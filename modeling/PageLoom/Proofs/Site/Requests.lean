import PageLoom.Proofs.Site.Footprint

/-!
# Requests to a builder

A builder is asked for one thing after the other, and keeps its session from one request to the
next. The disk may change in between. All that a request can do happens in the output directory and
at its lock, and whatever is spared there is spared by the request, however it ends.
-/

namespace PageLoom.Site

open BuildAction Component Disk DiskAction

/-- What a builder is asked for, by a path where it is about one file. -/
inductive Request where
  | build
  | loadComponents
  | processFile (path : Path)
  | renderFile (path : Path)
  | removeFile (path : Path)
deriving Repr, DecidableEq

/-- Goes on at the location of a path, if it has one. -/
def atLocation {α : Type} (standpoint : Standpoint) (path : Path)
    (action : Location → BuildAction α) : BuildAction Unit := do
  match path.resolve standpoint with
  | .error error => throw (.path error)
  | .ok location => let _ ← action location

namespace Plan

variable (plan : Plan) (standpoint : Standpoint) (processors : Nat)

/-- Does what is asked for. -/
def perform : Request → BuildAction Unit
  | .build => do let _ ← plan.build processors
  | .loadComponents => do let _ ← plan.loadComponents
  | .processFile path => atLocation standpoint path plan.processFile
  | .renderFile path => do let _ ← plan.renderPath standpoint path
  | .removeFile path => atLocation standpoint path plan.removeFile

/-- A builder after a request made on a disk, however the request ended. -/
def afterRequest (state : BuildState) (asked : Disk × Request) : BuildState :=
  (runFrom (plan.perform standpoint processors asked.2) { state with disk := asked.1 }).2

/-- A builder after some requests, each made on the disk as it then was. -/
def afterRequests (state : BuildState) (history : List (Disk × Request)) : BuildState :=
  history.foldl (plan.afterRequest standpoint processors) state

end Plan

theorem preserves_atLocation {α : Type} {I : BuildState → Prop} {standpoint : Standpoint}
    {path : Path} {action : Location → BuildAction α}
    (haction : ∀ location, Preserves I (action location)) :
    Preserves I (atLocation standpoint path action) := by
  unfold atLocation
  split
  · exact preserves_throw _
  · exact (haction _).bind fun _ => preserves_pure _

namespace SparesLoading

/-- The output of every file may be removed. -/
theorem removes_outputOf {footprint : Footprint} {plan : Plan} {location target : Location}
    (hcovers : footprint.Covers plan.output) (htarget : plan.outputOf? location = some target) :
    footprint.removes target := by
  obtain ⟨rest, -, rfl⟩ := Option.map_eq_some_iff.mp htarget
  exact hcovers.removes _ (List.prefix_append ..)

variable {I : BuildState → Prop} {footprint : Footprint} (hspares : SparesLoading footprint I)
variable {plan : Plan} (hcovers : footprint.Covers plan.output)

include hspares hcovers

theorem renderPath (standpoint : Standpoint) (path : Path) :
    Preserves I (plan.renderPath standpoint path) := by
  have hrender : ∀ location, Preserves I (plan.renderFile location) := fun location =>
    hspares.renderFile plan fun _ => Spares.admits_outputOf hcovers.toAdmits
  unfold Plan.renderPath
  split
  · exact preserves_throw _
  rename_i location hlocation
  extract_lets reach
  have hreach : ∀ ready, Preserves I (reach ready) := by
    intro ready
    refine preserves_get.bind fun state => ?_
    split
    · exact preserves_throw _
    · exact hrender location
  split
  · exact (preserves_throw _).bind hreach
  · exact hreach ()

/-- What is spared in the output and at its lock is spared by every request. -/
theorem perform (standpoint : Standpoint) (processors : Nat) (request : Request) :
    Preserves I (plan.perform standpoint processors request) := by
  have hadmits : ∀ {location target}, plan.outputOf? location = some target →
      footprint.Admits target := Spares.admits_outputOf hcovers.toAdmits
  cases request with
  | build =>
      exact (hspares.build hcovers.toAdmits hcovers.locks processors).bind fun _ =>
        preserves_pure _
  | loadComponents => exact (hspares.loadComponents plan).bind fun _ => preserves_pure _
  | processFile path =>
      exact preserves_atLocation fun location => hspares.processFile plan fun _ => hadmits
  | renderFile path =>
      exact (hspares.renderPath hcovers standpoint path).bind fun _ => preserves_pure _
  | removeFile path =>
      exact preserves_atLocation fun location => hspares.removeFile plan fun _ =>
        removes_outputOf hcovers

end SparesLoading

end PageLoom.Site
