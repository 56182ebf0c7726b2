import PageLoom.Disk.Difference
import PageLoom.Watch.Watcher

/-!
# Surveys

A watcher that is not told what happens can look at the disk from time to time. Whatever changed
between two looks in the directories it watches is dealt with like a reported event.
-/

namespace PageLoom.Watch

open Site

/-- Directories of their own that are watched. -/
def watchedDirectories (plan : Plan) : List Location :=
  plan.source :: if isWithin plan.source plan.components then [] else [plan.components]

structure Event where
  kind : EventKind
  onDirectory : Bool
  location : Location
deriving Repr, DecidableEq

def isDirectoryEntry : Entry → Bool
  | .directory => true
  | .file _ => false

def eventOf (location : Location) : Difference → Event
  | .gone => ⟨.deleted, false, location⟩
  | .new entry => ⟨.created, isDirectoryEntry entry, location⟩
  | .altered entry => ⟨.modified, isDirectoryEntry entry, location⟩

/-- What happened between two looks at the disk. -/
def events (plan : Plan) (before after : Disk) : List Event :=
  ((before.differences after).filter fun (location, _) =>
    isExcluded (watchedDirectories plan) location).map fun (location, difference) =>
      eventOf location difference

/-- Deals with all that happened up to a look at the disk. -/
def handleSurvey (plan : Plan) (standpoint : Standpoint) (processors now : Nat)
    (before after : Disk) : WatchAction Unit := do
  modify fun state => { state with build := { state.build with disk := after } }
  (events plan before after).forM fun event =>
    handleEvent plan standpoint processors now event.kind event.onDirectory
      (Path.ofLocation event.location) none

end PageLoom.Watch
