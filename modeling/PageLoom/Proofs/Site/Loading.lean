import PageLoom.Proofs.Component.Generation
import PageLoom.Proofs.Component.Index
import PageLoom.Proofs.Site.FullBuild

/-!
# Loading the components

A load looks at the components directory, replaces the templates of the session by those on the
disk and forgets the cached fragments. If the directory cannot be looked at or is not there, the
builder goes on with the session it has.
-/

namespace PageLoom.Site.Plan

open BuildAction Component Disk DiskAction

variable {plan : Plan}

theorem runFrom_loadComponents_eq (state : BuildState) :
    runFrom plan.loadComponents state =
      match (state.disk.find plan.components).mapError BuildError.disk with
      | .error error => (.error error, state)
      | .ok _ =>
        if state.disk.isDirectory state.session.store.root then
          (.ok (state.session.loadedFrom state.disk).store.size,
            ⟨state.disk, state.session.loadedFrom state.disk, true⟩)
        else (.error (.componentsMissing plan.components), state) := by
  have hlook : runFrom (look plan.components) state.disk =
      (state.disk.find plan.components, state.disk) := by
    rw [look, runFrom_bind, runFrom_get, andThen_ok, runFrom_lift]
  rw [loadComponents, runFrom_bind, runFrom_onDisk, hlook]
  cases (state.disk.find plan.components).mapError BuildError.disk with
  | error error => rfl
  | ok found =>
      rw [andThen_ok, runFrom_bind, runFrom_get, andThen_ok]
      dsimp only
      rw [Session.load?_eq]
      by_cases hroot : state.disk.isDirectory state.session.store.root = true
      · rw [if_pos hroot, if_pos hroot]
        rfl
      · rw [if_neg hroot, if_neg hroot]
        rfl

/-- The ways in which a load can end. -/
theorem loadComponents_cases (plan : Plan) (state : BuildState) :
    (∃ failure, runFrom plan.loadComponents state = (.error (.disk failure), state)) ∨
    state.disk.isDirectory state.session.store.root = false ∧
      runFrom plan.loadComponents state = (.error (.componentsMissing plan.components), state) ∨
    state.disk.isDirectory state.session.store.root = true ∧
      runFrom plan.loadComponents state = (.ok (state.session.loadedFrom state.disk).store.size,
        ⟨state.disk, state.session.loadedFrom state.disk, true⟩) := by
  rw [runFrom_loadComponents_eq]
  cases state.disk.find plan.components with
  | error failure => exact .inl ⟨failure, rfl⟩
  | ok found =>
      cases hroot : state.disk.isDirectory state.session.store.root with
      | false => exact .inr (.inl ⟨rfl, rfl⟩)
      | true => exact .inr (.inr ⟨rfl, rfl⟩)

/-- A load makes the store the index of the components directory, whatever was loaded before, and
fails only without the directory. A builder answers with the number of names, or changes nothing. -/
theorem load_indexes {disk : Disk} (hdisk : disk.WellFormed) (store : Store) :
    (store.load? disk = none ↔ disk.isDirectory store.root = false) ∧
    (∀ loaded, store.load? disk = some loaded →
      loaded.Indexes disk ∧ loaded.root = store.root ∧ loaded.extensions = store.extensions ∧
        loaded.library.generation = store.library.generation + 1) ∧
    ∀ (plan : Plan) (state after : BuildState) (result : Except BuildError Nat),
      state.disk = disk → state.session.store = store →
      runFrom plan.loadComponents state = (result, after) →
        match result with
        | .ok size => store.load? disk = some after.session.store ∧
            size = after.session.store.library.names.length ∧ after.disk = disk
        | .error _ => after = state := by
  refine ⟨?_, fun loaded hload => ?_, ?_⟩
  · cases hroot : disk.isDirectory store.root <;> simp [Store.load?, hroot]
  · rw [Store.load?] at hload
    split at hload
    · cases hload
      exact ⟨Store.indexes_templatesOn hdisk _, rfl, rfl, rfl⟩
    · cases hload
  · rintro plan state after result rfl rfl hrun
    rcases plan.loadComponents_cases state with
      ⟨failure, hload⟩ | ⟨-, hload⟩ | ⟨hroot, hload⟩ <;> cases hrun.symm.trans hload
    · rfl
    · rfl
    · exact ⟨if_pos hroot, (Store.indexes_templatesOn hdisk _).size, rfl⟩

/-- A components tree in which two files go by the name of `a`, and two by that of `b`, one of them
not a text, with a file in a directory and one of another kind. -/
def sharedNames : Disk := ⟨[
  (["components".toList], .directory),
  (["components".toList, "a.H".toList], .file (Utf8.encode "0".toList)),
  (["components".toList, "a.h".toList], .file (Utf8.encode "1".toList)),
  (["components".toList, "b.h".toList], .file (Utf8.encode "2".toList)),
  (["components".toList, "b.x".toList], .file [0xff]),
  (["components".toList, "d".toList], .directory),
  (["components".toList, "d".toList, "e.f.h".toList], .file (Utf8.encode "3".toList)),
  (["components".toList, "g.t".toList], .file (Utf8.encode "4".toList))]⟩

/-- A store for that tree, with a template of earlier. -/
def staleStore : Store :=
  ⟨["components".toList], [".h".toList, ".x".toList], ⟨[("z".toList, "old".toList)], 4⟩⟩

theorem templatesOn_sharedNames :
    Store.templatesOn sharedNames staleStore.root staleStore.extensions =
      [("a".toList, "1".toList), ("b".toList, "2".toList), ("d/e.f".toList, "3".toList)] := by
  rw [Store.templatesOn, Store.filesBelow, List.mergeSort_of_pairwise (by decide +kernel)]
  decide +kernel

theorem load_indexes_sharedNames :
    staleStore.load? sharedNames = some { staleStore with
      library := ⟨[("a".toList, "1".toList), ("b".toList, "2".toList),
        ("d/e.f".toList, "3".toList)], 5⟩ } ∧
    (∃ below, Store.Holds sharedNames staleStore.root staleStore.extensions below
        "a".toList "1".toList ∧
      ∀ other old, Store.Holds sharedNames staleStore.root staleStore.extensions other
        "a".toList old → other = below ∨ compareNames other below = .lt) ∧
    ∃ after, runFrom (smallPlan "out".toList (by decide)).loadComponents
        ⟨sharedNames, Session.ofStore staleStore false, false⟩ = (.ok 3, after) ∧
      3 = after.session.store.library.names.length ∧ after.disk = sharedNames := by
  have hdisk : sharedNames.WellFormed := by decide +kernel
  have hload : staleStore.load? sharedNames = some { staleStore with
      library := ⟨[("a".toList, "1".toList), ("b".toList, "2".toList),
        ("d/e.f".toList, "3".toList)], 5⟩ } := by
    rw [Store.load?, if_pos (by decide +kernel), templatesOn_sharedNames]
    rfl
  obtain ⟨-, hloaded, hbuilder⟩ := load_indexes hdisk staleStore
  have hsession : (Session.ofStore staleStore false).load? sharedNames =
      some ((Session.ofStore staleStore false).loadedFrom sharedNames) := by
    rw [Session.load?_eq, if_pos (by decide +kernel)]
  have hrun : runFrom (smallPlan "out".toList (by decide)).loadComponents
      ⟨sharedNames, Session.ofStore staleStore false, false⟩ =
        (.ok 3, ⟨sharedNames, (Session.ofStore staleStore false).loadedFrom sharedNames, true⟩) := by
    have hsize : ((Session.ofStore staleStore false).loadedFrom sharedNames).store.size = 3 :=
      congrArg List.length templatesOn_sharedNames
    rw [runFrom_loadComponents (by decide +kernel) hsession, hsize]
  refine ⟨hload, ?_, _, hrun, (hbuilder _ _ _ (.ok 3) rfl rfl hrun).2⟩
  exact ((hloaded _ hload).1.templates "a".toList "1".toList).mp (by decide +kernel)

end PageLoom.Site.Plan
