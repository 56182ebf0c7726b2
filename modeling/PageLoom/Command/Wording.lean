import PageLoom.Command.Run

/-!
# Wording

The lines in which a run tells how it is used and why it ends.
-/

namespace PageLoom.Command

open Site

def commandName : Text := "tagsmith".toList

def versionLine : Text := commandName ++ " 0.3.0".toList

def usageLines : List Text := [
  "Usage: ".toList ++ commandName ++ " [OPTIONS] SOURCE".toList,
  [],
  "Builds SOURCE into the output directory, optionally watching and serving it.".toList,
  [],
  "  -d, --depth N           greatest directory depth of processed documents".toList,
  "  -n, --names A,B         names of the documents to process, without extension".toList,
  "  -o, --out DIR           output directory".toList,
  "  -c, --components DIR    components directory".toList,
  "      --config FILE       configuration file".toList,
  "  -v, --verbose, --logs   log everything".toList,
  "      --log-level LEVEL   critical, error, warning, info or debug".toList,
  "  -w, --watch             rebuild when sources or components change".toList,
  "  -s, --serve             serve the output with live reload; implies --watch".toList,
  "  -p, --port N            port to serve at".toList,
  "      --host ADDRESS      address to serve at".toList,
  "      --trace-markers, --no-trace-markers".toList,
  "                          whether expanded components carry trace comments".toList,
  "      --workers N         number of workers".toList,
  "      --version           show the version and exit".toList,
  "      --help              show this text and exit".toList]

/-- The lines that a command line asks for in place of a build. -/
def answerLines (arguments : List Text) : List Text :=
  match Invocation.ofArguments? arguments with
  | some .version => [versionLine]
  | some .help => usageLines
  | _ => []

def markupMessage : Console.MarkupError → Text
  | .nothingToClose => "a closing tag closes nothing".toList
  | .badParameters => "the parameters of a tag are no literal".toList
  | .badColor => "a share of a color is no number".toList

def Cause.message : Cause → Text
  | .environment .undecodable => "the environment file is not UTF-8".toList
  | .environment .unusable => "the environment file binds what no variable can hold".toList
  | .settings issues => Config.issuesMessage issues
  | .load error => error.message
  | .path error => (PlanError.path error).message
  | .disk error => error.message
  | .build error => error.message
  | .host => "the host has no encoded form".toList
  | .markup error => markupMessage error

/-- The lines about an end that no notice tells of. -/
def Stop.lines : Stop → List Text
  | .usage => usageLines
  | .escaped cause => [cause.message]
  | .configuration _ | .build _ | .server _ => []

end PageLoom.Command
