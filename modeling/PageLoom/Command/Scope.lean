import PageLoom.Command.Run

/-!
# Scope of a command

What has to be known of a disk before a command can be run on it: the environment file, then the few
places that decide which build is asked for, then the directories of that build.
-/

namespace PageLoom.Command

open Site Environment

/-- The paths that a command line names besides the directories of the build. -/
def namedPaths (arguments : List Text) : List Path :=
  match Invocation.ofArguments? arguments with
  | some (.build source options) => (source :: options.config.toList).map Path.ofText
  | some (.crowded source) => [Path.ofText source]
  | _ => []

/-- The place of the environment file, which comes before everything else. -/
def environmentPlace (surroundings : Surroundings) : Location :=
  surroundings.standpoint.current ++ [Environment.fileName]

/-- The places that decide which build is asked for, on a disk with the environment file. -/
def decidingPlaces (surroundings : Surroundings) (disk : Disk) (arguments : List Text) :
    List Location :=
  match surroundings.load disk with
  | .error _ => []
  | .ok surroundings =>
    let standpoint := surroundings.standpoint
    (standpoint.current ++ [Config.defaultFileName]) ::
      (namedPaths arguments).filterMap fun path => (path.locate standpoint).toOption

/-- The plan of the build that a command line asks for, if it comes to one. -/
def plan? (surroundings : Surroundings) (disk : Disk) (arguments : List Text) : Option Plan := do
  let surroundings ← (surroundings.load disk).toOption
  match ← Invocation.ofArguments? arguments with
  | .version | .help | .crowded _ => none
  | .build source options =>
    let source ← (sourceOf surroundings.standpoint disk source).toOption
    let settings ← surroundings.environment.settings.toOption
    (planFor surroundings disk settings source options).toOption

/-- The places that a build reads or writes. -/
def buildPlaces (plan : Plan) : List Location :=
  [plan.source, plan.components, plan.output, DiskAction.lockOf plan.output]

end PageLoom.Command
