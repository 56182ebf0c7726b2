import PageLoom.Proofs.Site.Render
import PageLoom.Watch.Watcher

/-!
# Runs of a watcher

What a watcher does with a request: nothing while the guard is taken, else what its builder does,
and then the clients are told. A change is dealt with in one of a few ways, with one rule for each.
-/

namespace PageLoom

namespace Site.Plan

/-- A disk without the output of a source file. -/
def withoutOutput (plan : Plan) (location : Location) (disk : Disk) : Disk :=
  match plan.outputOf? location with
  | some target => if disk.isFile target then disk.erase target else disk
  | none => disk

theorem runFrom_removeFile (plan : Plan) (location : Location) (state : BuildState) :
    runFrom (plan.removeFile location) state =
      (.ok ((plan.outputOf? location).any state.disk.isFile),
        { state with disk := plan.withoutOutput location state.disk }) := by
  rw [removeFile, withoutOutput]
  cases plan.outputOf? location with
  | none => rfl
  | some target =>
      apply BuildAction.runFrom_onDisk_ok
      rw [DiskAction.removeFile, runFrom_bind, runFrom_get, andThen_ok, Option.any_some]
      cases hfile : state.disk.isFile target with
      | false => simp only [Bool.false_eq_true, if_false, hfile, runFrom_pure]
      | true => simp only [if_true, hfile, runFrom_bind]; rfl

end Site.Plan

namespace Watch

open Site

variable {α : Type} {plan : Plan} {processors : Nat} {location : Location} {state : WatchState}

namespace WatchState

/-- A watcher whose disk has become another. -/
def withDisk (state : WatchState) (disk : Disk) : WatchState :=
  { state with build := { state.build with disk } }

/-- A watcher whose guard is free. -/
def freed (state : WatchState) : WatchState := { state with inFlight := false }

/-- A watcher that has let a component change through at some time. -/
def dated (state : WatchState) (now : Nat) : WatchState := { state with lastRebuild := now }

/-- A watcher that has told its clients of some pages. -/
def notified (state : WatchState) (pages : Option (List Text)) : WatchState :=
  { state with hub := state.hub.map fun hub => (hub.notify pages).2 }

@[simp] theorem lastRebuild_withDisk (state : WatchState) (disk : Disk) :
    (state.withDisk disk).lastRebuild = state.lastRebuild := rfl

@[simp] theorem build_dated (state : WatchState) (now : Nat) :
    (state.dated now).build = state.build := rfl

@[simp] theorem hub_dated (state : WatchState) (now : Nat) :
    (state.dated now).hub = state.hub := rfl

@[simp] theorem reports_dated (state : WatchState) (now : Nat) :
    (state.dated now).reports = state.reports := rfl

end WatchState

/-! ## The builder behind the guard -/

theorem runFrom_building (action : BuildAction α) (state : WatchState) :
    runFrom (building action) state =
      ((runFrom action state.build).1, { state with build := (runFrom action state.build).2 }) := by
  have hrun : action.run.run state.build = runFrom action state.build := rfl
  rw [building, runFrom_bind, runFrom_modifyGet, andThen_ok, hrun]
  generalize runFrom action state.build = run
  obtain ⟨result, after⟩ := run
  cases result <;> rfl

theorem runFrom_guarded_busy (hbusy : state.inFlight = true) (action : WatchAction α) :
    runFrom (guarded action) state = (.ok none, state) := by
  rw [guarded, runFrom_bind, runFrom_get, andThen_ok, if_pos hbusy, runFrom_pure]

/-- What the builder does behind a free guard, which is free again afterwards. -/
theorem runFrom_guarded_building (hfree : state.inFlight = false) (action : BuildAction α) :
    runFrom (guarded (building action)) state =
      ((runFrom action state.build).1.map some,
        { state with build := (runFrom action state.build).2 }) := by
  have hrun := runFrom_building action { state with inFlight := true }
  obtain ⟨build, hub, inFlight, lastRebuild, reports⟩ := state
  dsimp only at hfree hrun
  subst hfree
  rw [guarded, runFrom_bind, runFrom_get, andThen_ok, if_neg Bool.false_ne_true, runFrom_bind]
  change runFrom _ (WatchState.mk build hub true lastRebuild reports) = _
  rw [runFrom_bind]
  unfold runFrom at hrun ⊢
  simp only [tryCatch, tryCatchThe, MonadExceptOf.tryCatch, ExceptT.tryCatch, ExceptT.run,
    ExceptT.mk, bind, StateT.bind, StateT.run] at hrun ⊢
  rw [hrun]
  cases (action build).1 <;> rfl

/-! ## Requests -/

section Busy

variable (hbusy : state.inFlight = true)

include hbusy

theorem runFrom_rebuild_busy : runFrom (rebuild plan processors) state = (.ok none, state) := by
  rw [rebuild, runFrom_bind, runFrom_guarded_busy hbusy]
  rfl

theorem runFrom_updateFile_busy :
    runFrom (updateFile plan location) state = (.ok none, state) := by
  rw [updateFile, runFrom_bind, runFrom_guarded_busy hbusy]
  rfl

end Busy

section Free

variable (hfree : state.inFlight = false)

include hfree

/-- A rebuild that ends with a report is told to all clients. -/
theorem runFrom_rebuild :
    runFrom (rebuild plan processors) state =
      match runFrom (plan.build processors) state.build with
      | (.ok report, build) =>
        (.ok (some report),
          { ({ state with build } : WatchState).notified none with
            reports := state.reports ++ [report] })
      | (.error error, build) =>
        (if stopsRebuild error then .ok none else .error error, { state with build }) := by
  rw [rebuild, runFrom_bind, runFrom_guarded_building hfree, BuildAction.runFrom_attempt]
  cases runFrom (plan.build processors) state.build with
  | mk result build =>
      cases result with
      | ok report => rfl
      | error error =>
          dsimp only
          cases stopsRebuild error <;> rfl

/-- An update is told to the clients that show its page. -/
theorem runFrom_updateFile :
    runFrom (updateFile plan location) state =
      match runFrom (plan.processFile location) state.build with
      | (.ok (some target), build) =>
        (.ok (some target),
          ({ state with build } : WatchState).notified (some [pageOf plan target]))
      | (result, build) => (result, { state with build }) := by
  rw [updateFile, runFrom_bind, runFrom_guarded_building hfree]
  cases runFrom (plan.processFile location) state.build with
  | mk result build =>
      cases result with
      | error error => rfl
      | ok target? => cases target? <;> rfl

theorem build_rebuild :
    (runFrom (rebuild plan processors) state).2.build =
      (runFrom (plan.build processors) state.build).2 := by
  rw [runFrom_rebuild hfree]
  cases runFrom (plan.build processors) state.build with
  | mk result build => cases result <;> rfl

theorem build_updateFile :
    (runFrom (updateFile plan location) state).2.build =
      (runFrom (plan.processFile location) state.build).2 := by
  rw [runFrom_updateFile hfree]
  cases runFrom (plan.processFile location) state.build with
  | mk result build =>
      cases result with
      | error error => rfl
      | ok target? => cases target? <;> rfl

/-- The guard is free again after a rebuild, and the time of the last one is left alone. -/
theorem settled_rebuild :
    (runFrom (rebuild plan processors) state).2.inFlight = false ∧
      (runFrom (rebuild plan processors) state).2.lastRebuild = state.lastRebuild := by
  rw [runFrom_rebuild hfree]
  cases runFrom (plan.build processors) state.build with
  | mk result build =>
      cases result with
      | error error => exact ⟨hfree, rfl⟩
      | ok report => exact ⟨hfree, rfl⟩

theorem settled_updateFile :
    (runFrom (updateFile plan location) state).2.inFlight = false ∧
      (runFrom (updateFile plan location) state).2.lastRebuild = state.lastRebuild := by
  rw [runFrom_updateFile hfree]
  cases runFrom (plan.processFile location) state.build with
  | mk result build =>
      cases result with
      | error error => exact ⟨hfree, rfl⟩
      | ok target? =>
          cases target? with
          | none => exact ⟨hfree, rfl⟩
          | some target => exact ⟨hfree, rfl⟩

end Free

/-! ## Changes -/

section Changes

variable {standpoint : Standpoint} {now : Nat} {kind : ChangeKind} {path : Path}
variable {destination : Option Path}

/-- Changes of scratch files and in the output are of no interest. -/
def Ignored (plan : Plan) (location : Location) : Prop :=
  isScratch location = true ∨ isWithin plan.output location = true

/-- Ends a run without a result. -/
def concluding (run : Except BuildError α × WatchState) : Except BuildError Unit × WatchState :=
  (run.1.map fun _ => (), run.2)

theorem runFrom_concluding (action : WatchAction α) (state : WatchState) :
    runFrom (do let _ ← action) state = concluding (runFrom action state) := by
  rw [runFrom_bind]
  cases runFrom action state with
  | mk result after => cases result <;> rfl

theorem runFrom_known_ok {value : α} (state : WatchState) :
    runFrom (known (.ok value)) state = (.ok value, state) := rfl

theorem runFrom_known_error {error : PathError} (state : WatchState) :
    runFrom (known (.error error) : WatchAction α) state = (.error (.path error), state) := rfl

theorem runFrom_handleChange_unresolved {error : PathError}
    (hpath : path.resolve standpoint = .error error) :
    runFrom (handleChange plan standpoint processors now kind path destination) state =
      (.error (.path error), state) := by
  unfold handleChange
  rw [runFrom_bind, hpath, runFrom_known_error, andThen_error]

variable (hpath : path.resolve standpoint = .ok location)

include hpath

theorem runFrom_handleChange_ignored (hignored : Ignored plan location) :
    runFrom (handleChange plan standpoint processors now kind path destination) state =
      (.ok (), state) := by
  unfold handleChange
  rw [runFrom_bind, hpath, runFrom_known_ok, andThen_ok,
    if_pos (Bool.or_eq_true_iff.mpr hignored), runFrom_pure]

/-- A change of a component that comes too soon after the last one is passed over; any other
rebuilds everything, and its time counts even if the rebuild does not happen. A move removes the
output of the one place and then updates that of the other, if it is told which. -/
theorem runFrom_handleChange (hheeded : ¬Ignored plan location) :
    runFrom (handleChange plan standpoint processors now kind path destination) state =
      match touchesComponents standpoint state location destination with
      | .error error => (.error (.path error), state)
      | .ok true =>
        if now < state.lastRebuild + debounceDelay then (.ok (), state)
        else concluding (runFrom (rebuild plan processors) (state.dated now))
      | .ok false =>
        let removed := state.withDisk (plan.withoutOutput location state.build.disk)
        match kind, destination.map (Path.resolve standpoint) with
        | .content, _ => concluding (runFrom (updateFile plan location) state)
        | .deleted, _ | .moved, none => (.ok (), removed)
        | .moved, some (.error error) => (.error (.path error), removed)
        | .moved, some (.ok target) => concluding (runFrom (updateFile plan target) removed) := by
  unfold handleChange
  rw [runFrom_bind, hpath, runFrom_known_ok, andThen_ok,
    if_neg fun hignored => hheeded (Bool.or_eq_true_iff.mp hignored), runFrom_bind, runFrom_get,
    andThen_ok, runFrom_bind]
  cases touchesComponents standpoint state location destination with
  | error error => rfl
  | ok touches =>
      rw [runFrom_known_ok, andThen_ok]
      cases touches with
      | true =>
          rw [if_pos rfl, runFrom_bind, runFrom_get, andThen_ok]
          dsimp only
          split_ifs with hsoon
          · rfl
          · rw [runFrom_bind]
            exact runFrom_concluding _ _
      | false =>
          rw [if_neg Bool.false_ne_true]
          have hremove := runFrom_building (plan.removeFile location) state
          rw [plan.runFrom_removeFile] at hremove
          cases kind with
          | content => exact runFrom_concluding _ _
          | deleted =>
              dsimp only
              rw [runFrom_bind, hremove, andThen_ok]
              rfl
          | moved =>
              dsimp only
              rw [runFrom_bind, hremove, andThen_ok]
              cases destination with
              | none => rfl
              | some destination =>
                  rw [Option.map_some, runFrom_bind]
                  cases destination.resolve standpoint with
                  | error error => rfl
                  | ok target =>
                      rw [runFrom_known_ok, andThen_ok]
                      exact runFrom_concluding _ _

/-- A component change that comes too soon is passed over, any other rebuilds everything. -/
theorem runFrom_handleChange_component (hheeded : ¬Ignored plan location)
    (htouches : touchesComponents standpoint state location destination = .ok true) :
    runFrom (handleChange plan standpoint processors now kind path destination) state =
      if now < state.lastRebuild + debounceDelay then (.ok (), state)
      else concluding (runFrom (rebuild plan processors) (state.dated now)) := by
  rw [runFrom_handleChange hpath hheeded, htouches]

end Changes

end Watch

end PageLoom
