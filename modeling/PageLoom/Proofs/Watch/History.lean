import PageLoom.Proofs.Watch.Run

/-!
# Histories of changes

Between two calls of a watcher the disk changes under it. A change holds the disk as it is when the
watcher is told; a history is a list of changes of which each is of some kind, seen from the disk
that the watcher left before it.
-/

namespace PageLoom.Watch

open Site

/-- What a watcher is told, and the disk as it then is. -/
structure Change where
  disk : Disk
  now : Nat
  kind : ChangeKind
  path : Path
  destination : Option Path

variable (plan : Plan) (standpoint : Standpoint) (processors : Nat)

namespace WatchState

/-- A watcher after it was told of a change, however it dealt with it. -/
def afterChange (state : WatchState) (change : Change) : WatchState :=
  (runFrom (handleChange plan standpoint processors change.now change.kind change.path
    change.destination) (state.withDisk change.disk)).2

def afterChanges (state : WatchState) (changes : List Change) : WatchState :=
  changes.foldl (afterChange plan standpoint processors) state

end WatchState

/-- Every change is of a kind, seen from the disk that the watcher left before it. -/
def History (happens : Disk → Change → Prop) (state : WatchState) : List Change → Prop
  | [] => True
  | change :: rest => happens state.build.disk change ∧
      History happens (state.afterChange plan standpoint processors change) rest

end PageLoom.Watch
