import PageLoom.Component.Session
import PageLoom.Site.Config
import PageLoom.Site.Partition
import PageLoom.Site.Report

/-!
# Builds

A full build reloads the components, copies the source tree and expands every document over its
copy. A document that cannot be expanded keeps its copy and is reported. A single changed file is
brought up to date by expanding or copying it alone.
-/

namespace PageLoom.Site

open Component

inductive BuildError where
  | sourceMissing (location : Location)
  | componentsMissing (location : Location)
  | disk (error : DiskError)
  | path (error : PathError)
  | undecodable
  | render (error : RenderError)
  | outsideSource
deriving Repr, DecidableEq

namespace BuildError

def message : BuildError → Text
  | sourceMissing location => "Source directory not found: ".toList ++ Location.toText location
  | componentsMissing location =>
    "Components directory not found: ".toList ++ Location.toText location
  | disk error => error.message
  | path _ => "path without location".toList
  | undecodable => "undecodable".toList
  | render (.cyclic cycle) =>
    "Cyclic component inclusion: ".toList ++ Text.joinWith " -> ".toList cycle
  | render (.fault _) => "number out of range".toList
  | outsideSource => "path outside the source directory".toList

/-- Errors that spoil one document only. A number fault, a path without location or outside the
source and a place without a name are not of that kind. -/
def spoilsDocument : BuildError → Bool
  | render (.fault _) | outsideSource | path _ | disk .unnamed | disk .holdsNul => false
  | _ => true

end BuildError

/-- The disk, and what one builder remembers from one build to the next. -/
structure BuildState where
  disk : Disk
  session : Session
  loaded : Bool
deriving Repr, DecidableEq

/-- Actions of a builder. What an action has done before it fails stays done. -/
abbrev BuildAction := ExceptT BuildError (StateM BuildState)

namespace BuildAction

def onDisk {α : Type} (action : DiskAction α) : BuildAction α := do
  let result ← modifyGet fun state =>
    let (result, disk) := action.run.run state.disk
    (result, { state with disk })
  match result with
  | .ok value => return value
  | .error error => throw (.disk error)

/-- Runs an action and hands over its error if that is of a given kind. -/
def attempt {α : Type} (handled : BuildError → Bool) (action : BuildAction α) :
    BuildAction (Except BuildError α) :=
  tryCatch (Except.ok <$> action) fun error =>
    if handled error then return .error error else throw error

end BuildAction

open BuildAction

namespace Plan

def initialState (plan : Plan) (disk : Disk) : BuildState :=
  ⟨disk,
    Session.ofStore (Store.ofRoot plan.components plan.config.componentExtensions)
      plan.config.traceMarkers,
    false⟩

def loadComponents (plan : Plan) : BuildAction Nat := do
  let _ ← onDisk (DiskAction.look plan.components)
  let state ← get
  match state.session.load? state.disk with
  | none => throw (.componentsMissing plan.components)
  | some session =>
    set { state with session, loaded := true }
    return session.store.size

/-- Expands one document and writes it to its place in the output. -/
def renderFile (plan : Plan) (location : Location) : BuildAction Location := do
  match below? plan.source location, plan.outputOf? location with
  | some below, some target =>
    let bytes ← onDisk (DiskAction.readBytes location)
    match Utf8.decode? bytes with
    | none => throw .undecodable
    | some text =>
      let rendered ← modifyGet fun state =>
        let (rendered, session) :=
          state.session.render text (textBelow below) plan.config.globals
        (rendered, { state with session })
      match rendered with
      | .error error => throw (.render error)
      | .ok rendered =>
        onDisk (DiskAction.writeText target rendered)
        return target
  | _, _ => throw .outsideSource

/-- Expands the document at the end of a path, which has to lead there on the disk. -/
def renderPath (plan : Plan) (standpoint : Standpoint) (path : Path) : BuildAction Location := do
  match path.resolve standpoint with
  | .error error => throw (.path error)
  | .ok location =>
    if !isWithin plan.source location then throw .outsideSource
    match (← get).disk.reach standpoint path with
    | .error error => throw (.disk error)
    | .ok _ => plan.renderFile location

/-- The outcome for every document of one part, in order. -/
def renderPart (plan : Plan) (part : List Location) :
    BuildAction (List (Location × Except BuildError Location)) :=
  part.mapM fun location => do
    return (location, ← attempt BuildError.spoilsDocument (plan.renderFile location))

/-- Parts are rendered independently of each other: an error that ends one does not keep the
others from being finished, and the first such error is the error of all. -/
def renderParts (plan : Plan) : List (List Location) →
    BuildAction (List (Location × Except BuildError Location))
  | [] => return []
  | part :: rest => do
    let outcome ← attempt (fun _ => true) (plan.renderPart part)
    let others ← attempt (fun _ => true) (plan.renderParts rest)
    match outcome, others with
    | .ok outcome, .ok others => return outcome ++ others
    | .error error, _ => throw error
    | _, .error error => throw error

/-- The number of parts; by default one for each of the processors at hand. -/
def workers (plan : Plan) (processors : Nat) : Nat := plan.config.workers.getD processors

def writtenOf (outcomes : List (Location × Except BuildError Location)) : List Location :=
  outcomes.filterMap fun
    | (_, .ok target) => some target
    | (_, .error _) => none

def failedOf (outcomes : List (Location × Except BuildError Location)) : List (Location × Text) :=
  outcomes.filterMap fun
    | (_, .ok _) => none
    | (location, .error error) => some (location, error.message)

/-- A full build. -/
def build (plan : Plan) (processors : Nat) : BuildAction BuildReport := do
  match ← onDisk (DiskAction.look plan.source) with
  | some .directory => pure ()
  | _ => throw (.sourceMissing plan.source)
  modify fun state => { state with session := state.session.reset }
  let components ← plan.loadComponents
  onDisk (DiskAction.takeLock plan.output)
  let copied ← onDisk (copyTree plan.traversalExclusions plan.source plan.output)
  let documents := Site.documents (← get).disk plan.rule plan.source
  let outcomes ← plan.renderParts (partition documents (plan.workers processors))
  let session := (← get).session
  return {
    source := plan.source
    output := plan.output
    written := writtenOf outcomes
    failed := failedOf outcomes
    copied
    components
    missing := session.failures.summary
    cacheEntries := session.cache.size
    cacheHits := session.cache.hits }

/-- Whether a changed file is none of the builder's business. -/
def ignores (plan : Plan) (location : Location) : Bool :=
  !isWithin plan.source location || isExcluded plan.traversalExclusions location

/-- Brings the output of one source file up to date, and answers with its place unless there was
nothing to do or it failed. -/
def processFile (plan : Plan) (location : Location) : BuildAction (Option Location) := do
  if plan.ignores location then return none
  if !(← get).loaded then let _ ← plan.loadComponents
  let outcome ← attempt BuildError.spoilsDocument do
    if plan.isDocument location then
      modify fun state => { state with session := state.session.clearCache }
      plan.renderFile location
    else
      match plan.outputOf? location with
      | none => throw .outsideSource
      | some target =>
        onDisk (DiskAction.copyFile location target)
        return target
  match outcome with
  | .ok target => return some target
  | .error _ => return none

/-- Removes the output of a source file, and answers whether there was one. -/
def removeFile (plan : Plan) (location : Location) : BuildAction Bool := do
  match plan.outputOf? location with
  | none => return false
  | some target => onDisk (DiskAction.removeFile target)

end Plan

end PageLoom.Site
