import PageLoom.Proofs.Site.Product
import PageLoom.Proofs.Site.Stopped
import PageLoom.Proofs.Watch.Ready
import PageLoom.Proofs.Watch.Requests

/-!
# Failed rebuilds

A rebuild that is stopped by a missing directory leaves the disk and the templates as they were, and
nobody hears of it. The guard is free again after every request that found it free, however the
request ends, so that the next rebuild is not dropped: once the directories are there it builds what
a new builder builds.
-/

namespace PageLoom.Watch

open Site Site.Plan Disk

variable {plan : Plan} {standpoint : Standpoint} {processors : Nat} {state : WatchState}

/-! ## The guard -/

/-- No request leaves the guard other than it was. -/
theorem preservesParts_inFlight (plan : Plan) (standpoint : Standpoint) (processors : Nat)
    (inFlight : Bool) :
    PreservesParts plan standpoint processors fun state => state.inFlight = inFlight where
  rebuild state hstate := by
    cases inFlight with
    | true => rwa [runFrom_rebuild_busy hstate]
    | false => exact (settled_rebuild hstate).1
  updateFile location state hstate := by
    cases inFlight with
    | true => rwa [runFrom_updateFile_busy hstate]
    | false => exact (settled_updateFile hstate).1
  removeFile location state hstate := by rwa [runFrom_building]
  dated _ _ hstate := hstate
  builder request state hstate := by rwa [runFrom_building]

/-! ## States that can be reached -/

/-- What a watcher can come to: requests are made of it and of its builder, the disk changes under
it, builds begin and end elsewhere, and clients come and go. -/
inductive Reachable (plan : Plan) : WatchState → Prop
  | initial (disk : Disk) (hub : Option Serve.Hub) : Reachable plan (initialState plan disk hub)
  | request {state : WatchState} (hreachable : Reachable plan state) (standpoint : Standpoint)
      (processors : Nat) (request : Request) :
      Reachable plan (runFrom (perform plan standpoint processors request) state).2
  | altered {state : WatchState} (hreachable : Reachable plan state) (disk : Disk) :
      Reachable plan (state.withDisk disk)
  | guarded {state : WatchState} (hreachable : Reachable plan state) (inFlight : Bool) :
      Reachable plan { state with inFlight }
  | visited {state : WatchState} (hreachable : Reachable plan state) (hub : Option Serve.Hub) :
      Reachable plan { state with hub }

/-- The builder of a watcher loads from the components directory of its plan, whatever happens. -/
theorem Reachable.kindred (hreachable : Reachable plan state) :
    plan.blankSession.Kindred state.build.session := by
  induction hreachable with
  | initial disk hub => exact ⟨rfl, rfl, rfl⟩
  | request _ standpoint processors request ih =>
      exact (preservesParts_of_spares (sparesLoading_kindred Footprint.everywhere plan.blankSession)
        (Footprint.covers_everywhere plan.output) standpoint processors).perform request _ ih
  | altered _ disk ih => exact ih
  | guarded _ inFlight ih => exact ih
  | visited _ hub ih => exact ih

/-! ## Rebuilds -/

theorem stopsRebuild_iff {error : BuildError} : stopsRebuild error = true ↔ error.IsMissing := by
  cases error <;> simp [stopsRebuild, BuildError.IsMissing]

section Free

variable (hfree : state.inFlight = false)

include hfree

/-- A missing directory stops a rebuild before anything but the session is changed. -/
theorem rebuild_of_missing {error : BuildError} {after : BuildState}
    (hrun : runFrom (plan.build processors) state.build = (.error error, after))
    (hmissing : error.IsMissing) :
    after.disk = state.build.disk ∧ after.session.store = state.build.session.store ∧
      runFrom (rebuild plan processors) state = (.ok none, { state with build := after }) := by
  have hrebuild : runFrom (rebuild plan processors) state =
      (.ok none, { state with build := after }) := by
    rw [runFrom_rebuild hfree, hrun]
    dsimp only
    rw [if_pos (stopsRebuild_iff.mpr hmissing)]
  rcases stopped_build hrun hmissing with ⟨-, -, rfl⟩ | ⟨-, -, rfl⟩
  · exact ⟨rfl, rfl, hrebuild⟩
  · exact ⟨rfl, rfl, hrebuild⟩

/-- With both directories there, a rebuild answers like a new builder. -/
theorem rebuild_of_directories (hreachable : Reachable plan state)
    (hsource : state.build.disk.isDirectory plan.source = true)
    (hcomponents : state.build.disk.isDirectory plan.components = true) :
    (runFrom (rebuild plan processors) state).1 =
        (runFrom (plan.build processors) (plan.initialState state.build.disk)).1.map some ∧
      (runFrom (rebuild plan processors) state).2.build.disk =
        (runFrom (plan.build processors) (plan.initialState state.build.disk)).2.disk := by
  obtain ⟨hresult, hdisk⟩ := build_of_kindred processors hreachable.kindred
  refine ⟨?_, ?_⟩
  · rw [← hresult, runFrom_rebuild hfree]
    cases hrun : runFrom (plan.build processors) state.build with
    | mk result after =>
        cases result with
        | ok report => rfl
        | error error =>
            have hstops : ¬stopsRebuild error = true := by
              intro hstops
              rcases stopped_build hrun (stopsRebuild_iff.mp hstops) with ⟨-, hnone, -⟩ | ⟨-, hnone, -⟩
              · rw [hsource] at hnone
                cases hnone
              · rw [← hreachable.kindred.root] at hnone
                exact absurd hcomponents (Bool.eq_false_iff.mp hnone)
            dsimp only
            rw [if_neg hstops]
            rfl
  · rw [build_rebuild hfree, hdisk]

end Free

/-- A build that a missing directory stops leaves the disk and the templates alone, and the rebuild
tells nobody of it. Whatever is asked for, and however that ends, the guard is free afterwards, so
that the next rebuild is that of a new builder once both directories are there, and ends with a
report if nothing is in its way. -/
theorem rebuild_contained (hreachable : Reachable plan state) (hfree : state.inFlight = false)
    (processors : Nat) :
    (∀ error after, runFrom (plan.build processors) state.build = (.error error, after) →
      error.IsMissing →
        after.disk = state.build.disk ∧ after.session.store = state.build.session.store ∧
          runFrom (rebuild plan processors) state = (.ok none, { state with build := after })) ∧
    ∀ standpoint request,
      let later := (runFrom (perform plan standpoint processors request) state).2
      later.inFlight = false ∧
        ∀ repaired : Disk, repaired.isDirectory plan.source = true →
          repaired.isDirectory plan.components = true →
          let again := runFrom (rebuild plan processors) (later.withDisk repaired)
          let fresh := runFrom (plan.build processors) (plan.initialState repaired)
          again.1 = fresh.1.map some ∧ again.2.build.disk = fresh.2.disk ∧
            (plan.Buildable repaired →
              plan.Faultless repaired (plan.freshSession (plan.templatesOn repaired)) →
                ∃ report, again.1 = .ok (some report)) := by
  refine ⟨fun error after => rebuild_of_missing hfree, fun standpoint request => ?_⟩
  intro later
  have hlater : later.inFlight = false :=
    (preservesParts_inFlight plan standpoint processors false).perform request state hfree
  refine ⟨hlater, fun repaired hsource hcomponents => ?_⟩
  intro again fresh
  have hagain : Reachable plan (later.withDisk repaired) :=
    (hreachable.request standpoint processors request).altered repaired
  obtain ⟨hresult, hdisk⟩ := @rebuild_of_directories plan processors (later.withDisk repaired) hlater
    hagain hsource hcomponents
  refine ⟨hresult, hdisk, fun hbuildable hfaultless => ?_⟩
  obtain ⟨_, _, report, after, hbuild, -⟩ := hbuildable.performed processors hfaultless
  exact ⟨report, hresult.trans (congrArg (·.1.map some) hbuild)⟩

/-- The small site without its components. -/
def bareSite : Disk := ⟨[
  (["site".toList], .directory),
  (["site".toList, "index.html".toList], .file (Utf8.encode "<b/>".toList))]⟩

/-- A watcher with one client that has loaded the components of the small site before they went. -/
def bereftWatcher : WatchState :=
  (runFrom (perform builtPlan atRoot 1 (.builder .loadComponents))
    (initialState builtPlan smallSite (some ⟨[⟨1, "/index.html".toList, true, []⟩]⟩))).2.withDisk
    bareSite

theorem reachable_bereftWatcher : Reachable builtPlan bereftWatcher :=
  ((Reachable.initial _ _).request atRoot 1 (.builder .loadComponents)).altered bareSite

/-- Its rebuild fails and keeps the template, and succeeds when the components are back. -/
theorem rebuild_contained_bereft :
    runFrom (builtPlan.build 1) bereftWatcher.build =
        (.error (.componentsMissing ["components".toList]), restarted bereftWatcher.build) ∧
      bereftWatcher.build.session.store.size = 1 ∧
      runFrom (rebuild builtPlan 1) bereftWatcher =
        (.ok none, { bereftWatcher with build := restarted bereftWatcher.build }) ∧
      ∃ report, (runFrom (rebuild builtPlan 1)
        ((runFrom (perform builtPlan atRoot 1 .rebuild) bereftWatcher).2.withDisk smallSite)).1 =
          .ok (some report) := by
  have hrun : runFrom (builtPlan.build 1) bereftWatcher.build =
      (.error (.componentsMissing ["components".toList]), restarted bereftWatcher.build) := rfl
  have hsize : bereftWatcher.build.session.store.size = 1 :=
    congrArg List.length templatesOn_smallSite
  have hfaultless : builtPlan.Faultless smallSite
      (builtPlan.freshSession (builtPlan.templatesOn smallSite)) := by
    refine faultless_of_harmless ?_ (smallSite_harmless (by decide))
    intro key fragment missing hfound
    cases hfound
  obtain ⟨hstopped, hlater⟩ := rebuild_contained reachable_bereftWatcher rfl 1
  obtain ⟨-, hagain⟩ := hlater atRoot .rebuild
  exact ⟨hrun, hsize, (hstopped _ _ hrun trivial).2.2,
    (hagain smallSite rfl rfl).2.2 smallSite_buildable hfaultless⟩

end PageLoom.Watch
