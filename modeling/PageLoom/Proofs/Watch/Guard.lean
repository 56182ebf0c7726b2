import PageLoom.Proofs.Site.FullBuild
import PageLoom.Proofs.Watch.Run

/-!
# Requests while a build is in flight

Rebuilds and updates ask for the guard and are dropped while it is taken. The removal of an output
does not ask, and the time of a component change is noted before the rebuild asks, so a change that
is dropped can keep a later one from being rebuilt.
-/

namespace PageLoom.Watch

open Site

variable {plan : Plan} {processors now : Nat} {standpoint : Standpoint} {kind : ChangeKind}
variable {path : Path} {destination : Option Path} {state : WatchState}

/-- A change that is neither ignored nor without a place, and touches the components. -/
def ConcernsComponents (plan : Plan) (standpoint : Standpoint) (state : WatchState) (path : Path)
    (destination : Option Path) : Prop :=
  ∃ location, path.resolve standpoint = .ok location ∧ ¬Ignored plan location ∧
    touchesComponents standpoint state location destination = .ok true

/-- A change that removes an output, whether or not a build is in flight. -/
def PassesGuard (plan : Plan) (standpoint : Standpoint) (state : WatchState) (kind : ChangeKind)
    (path : Path) (destination : Option Path) : Prop :=
  kind ≠ .content ∧ ∃ location target, path.resolve standpoint = .ok location ∧
    ¬Ignored plan location ∧ touchesComponents standpoint state location destination = .ok false ∧
    plan.outputOf? location = some target ∧ state.build.disk.isFile target = true

/-- When a component change was last let through, after a change at some time. -/
def lastLetThrough (lastRebuild now : Nat) : Nat :=
  if now < lastRebuild + debounceDelay then lastRebuild else now

theorem withoutOutput_eq_iff {location : Location} {disk : Disk} :
    plan.withoutOutput location disk = disk ↔
      ¬∃ target, plan.outputOf? location = some target ∧ disk.isFile target = true := by
  rw [Plan.withoutOutput]
  cases plan.outputOf? location with
  | none => simp
  | some target =>
      dsimp only
      constructor
      · rintro hsame ⟨other, hother, hfile⟩
        cases hother
        rw [if_pos hfile] at hsame
        obtain ⟨bytes, hbytes⟩ := Disk.isFile_iff.mp hfile
        have herased := disk.entry?_erase (Disk.ne_nil_of_isFile hfile) target
        rw [hsame, if_pos rfl, hbytes] at herased
        cases herased
      · intro hnone
        rw [if_neg fun hfile => hnone ⟨target, rfl, hfile⟩]

theorem WatchState.build_withDisk_eq_iff {disk : Disk} :
    (state.withDisk disk).build = state.build ↔ disk = state.build.disk := by
  constructor
  · exact fun hsame => congrArg BuildState.disk hsame
  · rintro rfl
    rfl

section Busy

variable (hbusy : state.inFlight = true)

include hbusy

/-- All that a change does while a build is in flight. -/
theorem runFrom_handleChange_busy {location : Location}
    (hpath : path.resolve standpoint = .ok location) (hheeded : ¬Ignored plan location) :
    (runFrom (handleChange plan standpoint processors now kind path destination) state).2 =
      match touchesComponents standpoint state location destination, kind with
      | .error _, _ | .ok false, .content => state
      | .ok true, _ => state.dated (lastLetThrough state.lastRebuild now)
      | .ok false, _ => state.withDisk (plan.withoutOutput location state.build.disk) := by
  have hdated : runFrom (rebuild plan processors) (state.dated now) = (.ok none, state.dated now) :=
    runFrom_rebuild_busy hbusy
  have hremoved : (state.withDisk (plan.withoutOutput location state.build.disk)).inFlight = true :=
    hbusy
  rw [runFrom_handleChange hpath hheeded]
  cases touchesComponents standpoint state location destination with
  | error error => rfl
  | ok touches =>
      cases touches with
      | true =>
          by_cases hsoon : now < state.lastRebuild + debounceDelay
          · simp only [lastLetThrough, if_pos hsoon]
            rfl
          · simp only [lastLetThrough, if_neg hsoon, hdated, concluding]
      | false =>
          cases kind with
          | content =>
              dsimp only
              rw [runFrom_updateFile_busy hbusy]
              rfl
          | deleted => rfl
          | moved =>
              cases destination.map (Path.resolve standpoint) with
              | none => rfl
              | some resolved =>
                  cases resolved with
                  | error error => rfl
                  | ok target =>
                      dsimp only
                      rw [runFrom_updateFile_busy hremoved]
                      rfl

theorem lastRebuild_handleChange_busy
    (hconcerns : ConcernsComponents plan standpoint state path destination) :
    (runFrom (handleChange plan standpoint processors now kind path destination) state).2 =
      state.dated (lastLetThrough state.lastRebuild now) := by
  obtain ⟨location, hpath, hheeded, htouches⟩ := hconcerns
  rw [runFrom_handleChange_busy hbusy hpath hheeded, htouches]

/-- No client hears of a change while a build is in flight, and no build is reported. The builder
stays as it is unless the change is one that passes the guard. -/
theorem keeps_handleChange_busy {after : WatchState}
    (hafter : (runFrom (handleChange plan standpoint processors now kind path destination)
      state).2 = after) :
    after.hub = state.hub ∧ after.reports = state.reports ∧
      (after.build = state.build ↔ ¬PassesGuard plan standpoint state kind path destination) := by
  cases hpath : path.resolve standpoint with
  | error error =>
      rw [runFrom_handleChange_unresolved hpath] at hafter
      subst hafter
      refine ⟨rfl, rfl, ⟨?_, fun _ => rfl⟩⟩
      rintro - ⟨-, location, target, hlocation, -⟩
      cases hpath.symm.trans hlocation
  | ok location =>
      have hpasses : PassesGuard plan standpoint state kind path destination ↔
          kind ≠ .content ∧ ¬Ignored plan location ∧
            touchesComponents standpoint state location destination = .ok false ∧
            ∃ target, plan.outputOf? location = some target ∧
              state.build.disk.isFile target = true := by
        constructor
        · rintro ⟨hkind, other, target, hother, hheeded, hapart, htarget, hfile⟩
          cases hpath.symm.trans hother
          exact ⟨hkind, hheeded, hapart, target, htarget, hfile⟩
        · rintro ⟨hkind, hheeded, hapart, target, htarget, hfile⟩
          exact ⟨hkind, location, target, hpath, hheeded, hapart, htarget, hfile⟩
      rw [hpasses]
      by_cases hignored : Ignored plan location
      · rw [runFrom_handleChange_ignored hpath hignored] at hafter
        subst hafter
        exact ⟨rfl, rfl, fun _ hpasses => hpasses.2.1 hignored, fun _ => rfl⟩
      · rw [runFrom_handleChange_busy hbusy hpath hignored] at hafter
        subst hafter
        cases touchesComponents standpoint state location destination with
        | error error => simp
        | ok touches =>
            cases touches with
            | true =>
                dsimp only
                rw [state.hub_dated, state.reports_dated, state.build_dated]
                refine ⟨rfl, rfl, fun _ hpasses => ?_, fun _ => rfl⟩
                cases hpasses.2.2.1
            | false =>
                cases kind with
                | content => simp
                | deleted | moved =>
                    refine ⟨rfl, rfl, ?_⟩
                    rw [WatchState.build_withDisk_eq_iff, withoutOutput_eq_iff]
                    simp [hignored]

/-- While a build is in flight, rebuilds and updates change nothing at all, and a change of a file
tells nobody and leaves the builder alone exactly if it does not pass the guard. A later component
change is rebuilt, once the guard is free, exactly if it does not follow too soon on the last one
that was let through, which can be one that was dropped. -/
theorem busy_requests_iff :
    runFrom (rebuild plan processors) state = (.ok none, state) ∧
      (∀ location, runFrom (updateFile plan location) state = (.ok none, state)) ∧
      ∀ now kind path destination,
        let after :=
          (runFrom (handleChange plan standpoint processors now kind path destination) state).2
        (after.hub = state.hub ∧ after.reports = state.reports ∧
          (after.build = state.build ↔
            ¬PassesGuard plan standpoint state kind path destination)) ∧
        (ConcernsComponents plan standpoint state path destination →
          ∀ next : WatchState, next.inFlight = false → next.lastRebuild = after.lastRebuild →
            ∀ later laterKind laterPath laterDestination,
              ConcernsComponents plan standpoint next laterPath laterDestination →
                runFrom (handleChange plan standpoint processors later laterKind laterPath
                    laterDestination) next =
                  if later < lastLetThrough state.lastRebuild now + debounceDelay then
                    (.ok (), next)
                  else concluding (runFrom (rebuild plan processors) (next.dated later))) := by
  refine ⟨runFrom_rebuild_busy hbusy, fun location => runFrom_updateFile_busy hbusy,
    fun now kind path destination => ⟨keeps_handleChange_busy hbusy rfl, ?_⟩⟩
  rintro hconcerns next - hlast later laterKind laterPath laterDestination
    ⟨location, hpath, hheeded, htouches⟩
  rw [lastRebuild_handleChange_busy hbusy hconcerns] at hlast
  rw [runFrom_handleChange hpath hheeded, htouches, hlast]
  rfl

end Busy

/-- The small site with the output of its document. -/
def builtSite : Disk :=
  ⟨Plan.smallSite.entries ++ [(["out".toList], .directory),
    (["out".toList, "index.html".toList], .file (Utf8.encode "!".toList))]⟩

def builtPlan : Plan := Plan.smallPlan "out".toList (by decide)

/-- A watcher of the small site while a build is in flight. -/
def busyWatcher : WatchState :=
  { initialState builtPlan builtSite none with inFlight := true }

def atRoot : Standpoint := ⟨[], []⟩

def indexPath : Path := ⟨[], ["site".toList, "index.html".toList]⟩

def componentPath : Path := ⟨[], ["components".toList, "b.html".toList]⟩

theorem concernsComponents_componentPath (state : WatchState)
    (hstore : state.build.session.store.root = ["components".toList]) :
    ConcernsComponents builtPlan atRoot state componentPath none := by
  refine ⟨["components".toList, "b.html".toList], by decide +kernel, ?_, ?_⟩
  · rintro (hscratch | hinside)
    · revert hscratch
      decide +kernel
    · revert hinside
      decide +kernel
  · rw [touchesComponents, Component.Store.owns, hstore]
    decide +kernel

/-- A dropped edit of a document changes nothing, and so does a dropped component change but for its
time: a change that comes soon after it is passed over, a later one is rebuilt. -/
theorem busy_requests_builtSite :
    (runFrom (handleChange builtPlan atRoot 1 300000 .content indexPath none)
        busyWatcher).2.build = busyWatcher.build ∧
      ∀ next : WatchState, next.build = busyWatcher.build → next.inFlight = false →
        next.lastRebuild = 300000 →
          runFrom (handleChange builtPlan atRoot 1 500000 .content componentPath none) next =
            concluding (runFrom (rebuild builtPlan 1) (next.dated 500000)) := by
  obtain ⟨-, -, hchanges⟩ := @busy_requests_iff builtPlan 1 atRoot busyWatcher rfl
  have hconcerns := concernsComponents_componentPath busyWatcher rfl
  refine ⟨(hchanges 300000 .content indexPath none).1.2.2.mpr fun hpasses => hpasses.1 rfl, ?_⟩
  intro next hbuild hfree hlast
  have hdropped : next.lastRebuild = (runFrom (handleChange builtPlan atRoot 1 300000 .content
      componentPath none) busyWatcher).2.lastRebuild := by
    rw [hlast, lastRebuild_handleChange_busy rfl hconcerns]
    decide +kernel
  rw [(hchanges 300000 .content componentPath none).2 hconcerns next hfree hdropped 500000 .content
    componentPath none (concernsComponents_componentPath next (by rw [hbuild]; rfl))]
  exact if_neg (by decide +kernel)

/-- The watcher after a component change was dropped and the build has ended. -/
def droppedWatcher : WatchState :=
  (runFrom (handleChange builtPlan atRoot 1 300000 .content componentPath none)
    busyWatcher).2.freed

/-- A deletion that is reported while a build is in flight removes the output, and a component
change that is dropped then keeps one from being rebuilt that comes soon after it. -/
theorem busy_requests_not_dropped :
    builtSite.isFile ["out".toList, "index.html".toList] = true ∧
      (runFrom (handleChange builtPlan atRoot 1 300000 .deleted indexPath none)
        busyWatcher).2.build.disk.isFile ["out".toList, "index.html".toList] = false ∧
      runFrom (handleChange builtPlan atRoot 1 400000 .content componentPath none)
          droppedWatcher = (.ok (), droppedWatcher) ∧
      runFrom (handleChange builtPlan atRoot 1 400000 .content componentPath none)
          busyWatcher.freed =
        concluding (runFrom (rebuild builtPlan 1) (busyWatcher.freed.dated 400000)) := by
  refine ⟨by decide +kernel, by decide +kernel, by decide +kernel, ?_⟩
  obtain ⟨location, hpath, hheeded, htouches⟩ :=
    concernsComponents_componentPath busyWatcher.freed rfl
  rw [runFrom_handleChange hpath hheeded, htouches]
  exact if_neg (by decide +kernel)

end PageLoom.Watch
