import PageLoom.Command.Arguments
import PageLoom.Command.Logging
import PageLoom.Command.Notice
import PageLoom.Config.Layers
import PageLoom.Serve.Host
import PageLoom.Site.Build

/-!
# Running a command

One run of the command: the arguments are read, the configuration is put together, the site is
built once, and what was asked for besides is announced. A run ends early where one of these steps
fails, and then says why.
-/

namespace PageLoom.Command

open Config Site Environment

/-- Where a command is run. -/
structure Surroundings where
  standpoint : Standpoint
  environment : Environment
  processors : Nat

/-- The variable that names the home directory. -/
def homeVariable : Text := "HOME".toList

/-- The surroundings as the environment file of the current directory leaves them. -/
def Surroundings.load (surroundings : Surroundings) (disk : Disk) :
    Except FileError Surroundings := do
  let standpoint := surroundings.standpoint
  let environment ← surroundings.environment.load disk standpoint.current
  match environment.value? homeVariable with
  | some home => return { surroundings with environment, standpoint := standpoint.withHome home }
  | none => return { surroundings with environment }

/-- Failures that a command does not report in words of its own. -/
inductive Cause where
  | environment (error : FileError)
  | settings (issues : List Issue)
  | load (error : LoadError)
  | path (error : PathError)
  | disk (error : DiskError)
  | build (error : BuildError)
  | host
  | markup (error : Console.MarkupError)
deriving Repr, DecidableEq

/-- Why a run ends early. -/
inductive Stop where
  | usage
  | configuration (message : Text)
  | build (message : Text)
  | server (reason : Text)
  | escaped (cause : Cause)
deriving Repr, DecidableEq

def exitCode : Option Stop → Nat
  | none => 0
  | some .usage => 2
  | some _ => 1

/-- Everything that one run leaves behind, with the notices that were printed. -/
structure Outcome where
  stop : Option Stop
  level : LogLevel
  notices : List Notice
  disk : Disk
deriving Repr, DecidableEq

def Outcome.exitCode (outcome : Outcome) : Nat := Command.exitCode outcome.stop

/-- Ends a run with some notices. One that cannot be printed ends it before. -/
def concluded (stop : Option Stop) (level : LogLevel) (notices : List Notice) (disk : Disk) :
    Outcome :=
  match printable notices with
  | (said, none) => ⟨stop, level, said, disk⟩
  | (said, some error) => ⟨some (.escaped (.markup error)), level, said, disk⟩

/-- What is said about an early end. -/
def stopNotices : Stop → List Notice
  | .configuration message => [.configurationError message]
  | .build message => [.error message]
  | .server reason => [.serverRefused reason]
  | .usage | .escaped _ => []

def stopped (stop : Stop) (level : LogLevel) (disk : Disk) : Outcome :=
  concluded (some stop) level (stopNotices stop) disk

/-! ## Configuration -/

/-- What is at a location. -/
def look (disk : Disk) (location : Location) : Except Stop (Option Entry) :=
  (disk.find location).mapError fun error => .escaped (.disk error)

/-- The source directory, which has to be there. -/
def sourceOf (standpoint : Standpoint) (disk : Disk) (text : Text) : Except Stop Location := do
  let location ← ((Path.ofText text).locate standpoint).mapError fun error => .escaped (.path error)
  match ← look disk location with
  | some .directory => return location
  | _ => throw .usage

/-- The fields of a configuration that options override. -/
def overrides (source : Location) (options : Options) : Table :=
  let texts := [
    ("source".toList, some source.toText),
    ("output".toList, options.out),
    ("components".toList, options.components),
    ("host".toList, options.host)]
  let numbers := [
    ("depth".toList, options.depth),
    ("workers".toList, options.workers),
    ("port".toList, options.port)]
  texts.filterMap (fun (name, value?) => value?.map fun value => (name, .text value)) ++
    numbers.filterMap (fun (name, value?) => value?.map fun value => (name, ofNatural value)) ++
    (options.names.map fun names => ("names".toList, ofTexts names)).toList ++
    (options.traceMarkers.map fun traced => ("trace_markers".toList, .bool traced)).toList

def loadStop : LoadError → Stop
  | .missing location => .configuration (LoadError.missing location).message
  | .unreadable location error => .configuration (LoadError.unreadable location error).message
  | .badToml error => .configuration (LoadError.badToml error).message
  | .invalid issues => .configuration (LoadError.invalid issues).message
  | error => .escaped (.load error)

/-- The configuration file that a run uses, if any. -/
def configPath (surroundings : Surroundings) (disk : Disk) (options : Options) :
    Except Stop (Option Path) :=
  match options.config with
  | some path => .ok (some (Path.ofText path))
  | none =>
    let standpoint := surroundings.standpoint
    (findDefault standpoint disk (Path.ofLocation standpoint.current)).mapError fun error =>
      .escaped (.disk error)

def loadedFor (surroundings : Surroundings) (disk : Disk) (options : Options) :
    Except Stop Loaded := do
  match ← configPath surroundings disk options with
  | none => return nothingLoaded
  | some path => (loadConfig surroundings.standpoint disk path).mapError loadStop

def planStop : PlanError → Stop
  | .path error => .escaped (.path error)
  | error => .configuration error.message

/-- The plan of a build with some options. -/
def planFor (surroundings : Surroundings) (disk : Disk) (settings : Settings) (source : Location)
    (options : Options) : Except Stop Plan := do
  let loaded ← loadedFor surroundings disk options
  match layered loaded settings (overrides source options) with
  | .error issues => throw (.configuration (LoadError.invalid issues).message)
  | .ok config => (Plan.ofConfig config surroundings.standpoint).mapError planStop

/-! ## Building -/

def buildStop : BuildError → Stop
  | .sourceMissing location => .build (BuildError.sourceMissing location).message
  | .componentsMissing location => .build (BuildError.componentsMissing location).message
  | error => .escaped (.build error)

def reportNotices (report : BuildReport) : List Notice :=
  [.summary report] ++
    (if report.missing.isEmpty then [] else [.unresolved report.missing]) ++
    (if report.failed.isEmpty then []
      else .failedHeading :: report.failed.map fun (location, reason) => .failed location reason) ++
    [.complete report.output]

/-- The address of a page server. -/
def serverAddress (address port : Nat) : Text :=
  "http://".toList ++ Serve.addressText address ++ ':' :: Text.ofNat port ++ ['/']

def unknownHost : Text := "[Errno -2] Name or service not known".toList

/-- What follows a build that went well. -/
def afterBuild (plan : Plan) (options : Options) (level : LogLevel) (report : BuildReport)
    (disk : Disk) : Outcome :=
  let notices := reportNotices report
  if options.serve then
    match Serve.addressOf plan.config.host with
    | .ok address =>
      let serving := .serving report.output (serverAddress address plan.config.port)
      concluded none level (notices ++ [serving, .watching]) disk
    | .error .unknown =>
      concluded (some (.server unknownHost)) level (notices ++ [.serverRefused unknownHost]) disk
    | .error .unencodable => concluded (some (.escaped .host)) level notices disk
  else if options.watch then concluded none level (notices ++ [.watching]) disk
  else concluded none level notices disk

def runBuild (surroundings : Surroundings) (disk : Disk) (settings : Settings) (source : Location)
    (options : Options) : Outcome :=
  let level := LogLevel.chosen settings.logLevel options.logLevel options.verbose
  match planFor surroundings disk settings source options with
  | .error stop => stopped stop level disk
  | .ok plan =>
    match (plan.build surroundings.processors).run.run (plan.initialState disk) with
    | (.ok report, state) => afterBuild plan options level report state.disk
    | (.error error, state) => stopped (buildStop error) level state.disk

/-- Why a source with more arguments after it is refused. -/
def crowdedStop (standpoint : Standpoint) (disk : Disk) (source : Text) : Stop :=
  match sourceOf standpoint disk source with
  | .ok _ => .usage
  | .error stop => stop

/-- Runs the command with some arguments. -/
def run (surroundings : Surroundings) (disk : Disk) (arguments : List Text) : Outcome :=
  match surroundings.load disk with
  | .error error => stopped (.escaped (.environment error)) .warning disk
  | .ok surroundings =>
    let standpoint := surroundings.standpoint
    match Invocation.ofArguments? arguments with
    | none => stopped .usage .warning disk
    | some .version | some .help => concluded none .warning [] disk
    | some (.crowded source) => stopped (crowdedStop standpoint disk source) .warning disk
    | some (.build source options) =>
      match sourceOf standpoint disk source with
      | .error stop => stopped stop .warning disk
      | .ok source =>
        match surroundings.environment.settings with
        | .error issues => stopped (.escaped (.settings issues)) .warning disk
        | .ok settings => runBuild surroundings disk settings source options

end PageLoom.Command
