import PageLoom.Disk.Basic
import PageLoom.Props
import PageLoom.Site.Document

/-!
# Build configuration

Everything one build needs to know, with the defaults of what is not given, and the directories
that it names. Without an output directory the output goes next to where the build is run.
-/

namespace PageLoom.Site

structure BuildConfig where
  source : Option Path
  output : Option Path
  components : Path
  depth : Option Nat
  names : Option (List Text)
  extensions : List Text
  componentExtensions : List Text
  globals : Props
  traceMarkers : Bool
  workers : Option Nat
  host : Text
  port : Nat
deriving Repr, DecidableEq

def defaultConfig : BuildConfig where
  source := none
  output := none
  components := ⟨[], ["components".toList]⟩
  depth := none
  names := none
  extensions := [".html".toList]
  componentExtensions := [".html".toList]
  globals := []
  traceMarkers := true
  workers := none
  host := "127.0.0.1".toList
  port := 8000

/-- Why a configuration names no directories to build from and to. -/
inductive PlanError where
  | noSource
  | outputIsSource
  | path (error : PathError)
deriving Repr, DecidableEq

def PlanError.message : PlanError → Text
  | noSource => "No source directory configured.".toList
  | outputIsSource => "Output directory must differ from the source directory.".toList
  | path .holdsNul => "embedded null byte".toList
  | path .unknownHome => "Could not determine home directory.".toList

namespace BuildConfig

def sourceDirectory (config : BuildConfig) (standpoint : Standpoint) : Except PlanError Location :=
  match config.source with
  | none => .error .noSource
  | some source => (source.locate standpoint).mapError .path

def outputDirectory (config : BuildConfig) (standpoint : Standpoint) : Except PlanError Location :=
  match config.output with
  | some output => (output.locate standpoint).mapError .path
  | none => do
    let source ← config.sourceDirectory standpoint
    return standpoint.current ++ [source.getLast?.getD [] ++ "_processed".toList]

def componentsDirectory (config : BuildConfig) (standpoint : Standpoint) :
    Except PlanError Location :=
  (config.components.locate standpoint).mapError .path

end BuildConfig

/-- A configuration with its directories found. The output is not the source. -/
structure Plan where
  config : BuildConfig
  source : Location
  output : Location
  components : Location
  output_ne_source : output ≠ source

namespace Plan

def ofConfig (config : BuildConfig) (standpoint : Standpoint) : Except PlanError Plan := do
  let source ← config.sourceDirectory standpoint
  let output ← config.outputDirectory standpoint
  if output_ne_source : output ≠ source then
    let components ← config.componentsDirectory standpoint
    return { config, source, output, components, output_ne_source }
  else throw .outputIsSource

/-- Directories that neither the copy nor the search for documents enters: an output inside the
source, and its lock. -/
def traversalExclusions (plan : Plan) : List Location :=
  if isWithin plan.source plan.output then [plan.output, DiskAction.lockOf plan.output] else []

/-- Components inside the source are copied, but they are no documents. -/
def documentExclusions (plan : Plan) : List Location :=
  plan.traversalExclusions ++
    if isWithin plan.source plan.components then [plan.components] else []

def rule (plan : Plan) : DocumentRule :=
  ⟨plan.config.depth.map Int.ofNat, plan.config.names, plan.config.extensions,
    plan.documentExclusions⟩

def isDocument (plan : Plan) (location : Location) : Bool :=
  Site.isDocument plan.rule plan.source location

/-- Where the output of a source file goes. -/
def outputOf? (plan : Plan) (location : Location) : Option Location :=
  (below? plan.source location).map (plan.output ++ ·)

end Plan

end PageLoom.Site
