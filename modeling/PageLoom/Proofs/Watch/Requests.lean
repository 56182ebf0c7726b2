import PageLoom.Proofs.Site.Requests
import PageLoom.Proofs.Watch.Run

/-!
# Requests to a watcher

A watcher is asked for one thing after the other, or its builder is asked directly. What rebuilds,
updates and removals preserve is preserved by every request, however it ends.
-/

namespace PageLoom.Watch

open Disk Site

/-- What a watcher or its builder is asked for. -/
inductive Request where
  | builder (request : Site.Request)
  | rebuild
  | updateFile (path : Path)
  | handleChange (now : Nat) (kind : ChangeKind) (path : Path) (destination : Option Path)
  | handleEvent (now : Nat) (kind : EventKind) (onDirectory : Bool) (path : Path)
      (destination : Option Path)
deriving Repr, DecidableEq

/-- Does what is asked for. -/
def perform (plan : Plan) (standpoint : Standpoint) (processors : Nat) :
    Request → WatchAction Unit
  | .builder request => building (plan.perform standpoint processors request)
  | .rebuild => do let _ ← rebuild plan processors
  | .updateFile path => do let _ ← updateFile plan (← known (path.resolve standpoint))
  | .handleChange now kind path destination =>
    handleChange plan standpoint processors now kind path destination
  | .handleEvent now kind onDirectory path destination =>
    handleEvent plan standpoint processors now kind onDirectory path destination

/-- A watcher after some requests, however they ended. -/
def WatchState.afterRequests (plan : Plan) (standpoint : Standpoint) (processors : Nat)
    (state : WatchState) (requests : List Request) : WatchState :=
  requests.foldl (fun state request => (runFrom (perform plan standpoint processors request) state).2)
    state

/-! ## What requests preserve -/

theorem preserves_known {α : Type} {I : WatchState → Prop} (result : Except PathError α) :
    Preserves I (known result) := by
  cases result with
  | ok value => exact preserves_pure _
  | error error => exact preserves_throw _

/-- The parts that the requests to a watcher are made of preserve some fact. -/
structure PreservesParts (plan : Plan) (standpoint : Standpoint) (processors : Nat)
    (I : WatchState → Prop) : Prop where
  rebuild : Preserves I (rebuild plan processors)
  updateFile : ∀ location, Preserves I (updateFile plan location)
  removeFile : ∀ location, Preserves I (building (plan.removeFile location))
  dated : ∀ state now, I state → I (state.dated now)
  builder : ∀ request, Preserves I (building (plan.perform standpoint processors request))

namespace PreservesParts

variable {plan : Plan} {standpoint : Standpoint} {processors : Nat} {I : WatchState → Prop}
variable (hparts : PreservesParts plan standpoint processors I)

include hparts

theorem handleChange (now : Nat) (kind : ChangeKind) (path : Path) (destination : Option Path) :
    Preserves I (handleChange plan standpoint processors now kind path destination) := by
  have hupdate : ∀ location, Preserves I (do
      let _ ← Watch.updateFile plan location : WatchAction Unit) := fun location =>
    (hparts.updateFile location).bind fun _ => preserves_pure _
  unfold Watch.handleChange
  refine (preserves_known _).bind fun location => ?_
  split
  · exact preserves_pure _
  refine preserves_get.bind fun state => (preserves_known _).bind fun touches => ?_
  split
  · refine preserves_get.bind fun state => ?_
    split
    · exact preserves_pure _
    · exact (preserves_modifyGet fun state hstate => hparts.dated state now hstate).bind fun _ =>
        hparts.rebuild.bind fun _ => preserves_pure _
  · cases kind with
    | content => exact hupdate location
    | deleted => exact (hparts.removeFile location).bind fun _ => preserves_pure _
    | moved =>
        refine (hparts.removeFile location).bind fun _ => ?_
        cases destination with
        | none => exact preserves_pure _
        | some destination => exact (preserves_known _).bind fun target => hupdate target

theorem perform (request : Request) :
    Preserves I (perform plan standpoint processors request) := by
  cases request with
  | builder request => exact hparts.builder request
  | rebuild => exact hparts.rebuild.bind fun _ => preserves_pure _
  | updateFile path =>
      exact (preserves_known _).bind fun location =>
        (hparts.updateFile location).bind fun _ => preserves_pure _
  | handleChange now kind path destination => exact hparts.handleChange now kind path destination
  | handleEvent now kind onDirectory path destination =>
      change Preserves _
        (handleEvent plan standpoint processors now kind onDirectory path destination)
      unfold handleEvent
      split
      · exact hparts.handleChange _ _ _ _
      · exact preserves_pure _

/-- What every request preserves lasts through all of them. -/
theorem afterRequests (requests : List Request) (state : WatchState) (hstate : I state) :
    I (state.afterRequests plan standpoint processors requests) := by
  unfold WatchState.afterRequests
  induction requests generalizing state with
  | nil => exact hstate
  | cons request rest ih =>
      rw [List.foldl_cons]
      exact ih _ (hparts.perform request state hstate)

end PreservesParts

/-! ## What only the builder decides -/

theorem preserves_building {α : Type} {I : BuildState → Prop} {action : BuildAction α}
    (haction : Preserves I action) :
    Preserves (fun state => I state.build) (building action) := by
  intro state hstate
  rw [runFrom_building]
  exact haction state.build hstate

section Spared

variable {I : BuildState → Prop} {footprint : Footprint} (hspares : SparesLoading footprint I)
variable {plan : Plan} (hcovers : footprint.Covers plan.output)

include hspares hcovers

theorem preserves_rebuild (processors : Nat) :
    Preserves (fun state => I state.build) (rebuild plan processors) := by
  intro state hstate
  cases hguard : state.inFlight with
  | true => rwa [runFrom_rebuild_busy hguard]
  | false =>
      rw [build_rebuild hguard]
      exact hspares.build hcovers.toAdmits hcovers.locks processors state.build hstate

theorem preserves_updateFile (location : Location) :
    Preserves (fun state => I state.build) (updateFile plan location) := by
  intro state hstate
  cases hguard : state.inFlight with
  | true => rwa [runFrom_updateFile_busy hguard]
  | false =>
      rw [build_updateFile hguard]
      exact hspares.processFile plan (fun _ => Spares.admits_outputOf hcovers.toAdmits)
        state.build hstate

/-- What is spared in the output and at its lock is preserved by every request to a watcher. -/
theorem preservesParts_of_spares (standpoint : Standpoint) (processors : Nat) :
    PreservesParts plan standpoint processors fun state => I state.build where
  rebuild := preserves_rebuild hspares hcovers processors
  updateFile := preserves_updateFile hspares hcovers
  removeFile _ :=
    preserves_building (hspares.removeFile plan fun _ => SparesLoading.removes_outputOf hcovers)
  dated _ _ hstate := hstate
  builder request := preserves_building (hspares.perform hcovers standpoint processors request)

/-- What is spared by every request lasts through all of them. -/
theorem spared_afterRequests (standpoint : Standpoint) (processors : Nat)
    (requests : List Request) (state : WatchState) (hstate : I state.build) :
    I (state.afterRequests plan standpoint processors requests).build :=
  (preservesParts_of_spares hspares hcovers standpoint processors).afterRequests requests state
    hstate

end Spared

end PageLoom.Watch
