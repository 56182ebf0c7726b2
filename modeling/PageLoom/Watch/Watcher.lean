import PageLoom.Serve.Hub
import PageLoom.Site.Build

/-!
# Watching

A watcher keeps the output in step with changes that are reported to it. A change to a component
rebuilds everything, unless the last such change is too recent; any other change in the source
updates or removes one output file. A request that comes while a build is in flight is dropped.
Connected clients are told which pages are new.
-/

namespace PageLoom.Watch

open Site

/-- What happened to a file. Every other kind counts as a change of its content. -/
inductive ChangeKind where
  | deleted
  | moved
  | content
deriving Repr, DecidableEq

/-- What is reported about a file or directory. -/
inductive EventKind where
  | created
  | modified
  | deleted
  | moved
  | opened
  | closed
deriving Repr, DecidableEq

/-- The change that an event stands for; reading a file is none. -/
def EventKind.change? : EventKind → Option ChangeKind
  | created | modified => some .content
  | deleted => some .deleted
  | moved => some .moved
  | opened | closed => none

/-- The builder, the clients to tell, whether a build is in flight, when components last changed,
and the reports of all rebuilds so far. -/
structure WatchState where
  build : BuildState
  hub : Option Serve.Hub
  inFlight : Bool
  lastRebuild : Nat
  reports : List BuildReport
deriving Repr, DecidableEq

abbrev WatchAction := ExceptT BuildError (StateM WatchState)

/-- Microseconds that have to pass between two rebuilds for component changes. -/
def debounceDelay : Nat := 200000

/-- Editor swap files and temporary files. -/
def isScratchName (name : Text) : Bool :=
  Text.startsWith ['.'] name || Text.endsWith ['~'] name || Text.endsWith ".swp".toList name ||
    Text.endsWith ".tmp".toList name || Text.endsWith ".lock".toList name

def isScratch (names : List Text) : Bool := isScratchName (names.getLast?.getD [])

def initialState (plan : Plan) (disk : Disk) (hub : Option Serve.Hub) : WatchState :=
  ⟨plan.initialState disk, hub, false, 0, []⟩

def building {α : Type} (action : BuildAction α) : WatchAction α := do
  let result ← modifyGet fun state =>
    let (result, build) := action.run.run state.build
    (result, { state with build })
  match result with
  | .ok value => return value
  | .error error => throw error

def notify (pages : Option (List Text)) : WatchAction Unit :=
  modify fun state => { state with hub := state.hub.map fun hub => (hub.notify pages).2 }

/-- Runs an action with the guard taken, and frees the guard however the action ends. There is no
result if the guard is taken already. -/
def guarded {α : Type} (action : WatchAction α) : WatchAction (Option α) := do
  if (← get).inFlight then return none
  modify fun state => { state with inFlight := true }
  let free : WatchAction Unit := modify fun state => { state with inFlight := false }
  let result ← tryCatch action fun error => do
    free
    throw error
  free
  return some result

/-- A missing directory stops a build before it begins; other errors are not expected. -/
def stopsRebuild : BuildError → Bool
  | .sourceMissing _ | .componentsMissing _ => true
  | _ => false

/-- Rebuilds everything, unless a build is in flight. -/
def rebuild (plan : Plan) (processors : Nat) : WatchAction (Option BuildReport) := do
  let outcome ← guarded (building (BuildAction.attempt stopsRebuild (plan.build processors)))
  match outcome with
  | some (.ok report) =>
    notify none
    modify fun state => { state with reports := state.reports ++ [report] }
    return some report
  | _ => return none

def pageOf (plan : Plan) (target : Location) : Text :=
  '/' :: textBelow ((below? plan.output target).getD [])

/-- Brings one file up to date, unless a build is in flight, and tells those who show it. -/
def updateFile (plan : Plan) (location : Location) : WatchAction (Option Location) := do
  match ← guarded (building (plan.processFile location)) with
  | some (some target) =>
    notify (some [pageOf plan target])
    return some target
  | _ => return none

/-- What is known about a path, unless it has no location. -/
def known {α : Type} (result : Except PathError α) : WatchAction α :=
  match result with
  | .ok value => return value
  | .error error => throw (.path error)

/-- Whether a change touches a component by either of its places. The second may be given from a
home directory. -/
def touchesComponents (standpoint : Standpoint) (state : WatchState) (location : Location)
    (destination : Option Path) : Except PathError Bool :=
  if state.build.session.store.owns location then .ok true
  else
    match destination with
    | some destination => state.build.session.store.ownsPath standpoint destination
    | none => .ok false

/-- Deals with one change at a time given in microseconds. -/
def handleChange (plan : Plan) (standpoint : Standpoint) (processors now : Nat)
    (kind : ChangeKind) (path : Path) (destination : Option Path) : WatchAction Unit := do
  let location ← known (path.resolve standpoint)
  if isScratch location || isWithin plan.output location then return
  if ← known (touchesComponents standpoint (← get) location destination) then
    if now < (← get).lastRebuild + debounceDelay then return
    modify fun state => { state with lastRebuild := now }
    let _ ← rebuild plan processors
  else
    match kind with
    | .content => let _ ← updateFile plan location
    | .deleted => let _ ← building (plan.removeFile location)
    | .moved =>
      let _ ← building (plan.removeFile location)
      match destination with
      | some destination =>
        let _ ← updateFile plan (← known (destination.resolve standpoint))
      | none => return

/-- Deals with an event. Events on directories are left alone: what happens in them is reported for
each file. -/
def handleEvent (plan : Plan) (standpoint : Standpoint) (processors now : Nat)
    (kind : EventKind) (onDirectory : Bool) (path : Path) (destination : Option Path) :
    WatchAction Unit :=
  match onDirectory, kind.change? with
  | false, some change => handleChange plan standpoint processors now change path destination
  | _, _ => return

end PageLoom.Watch
