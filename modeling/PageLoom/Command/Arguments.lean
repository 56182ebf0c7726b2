import PageLoom.Config.Validation

/-!
# Command line arguments

Options and the source directory, in any order. An option that takes a value takes what follows an
equals sign in its argument, or else the whole next argument, whatever that is. Short options can
share one argument. Of several uses of an option the last counts, and only its value is checked.
-/

namespace PageLoom.Command

open Config

inductive Flag where
  | verbose
  | watch
  | serve
  | traceMarkers
  | noTraceMarkers
  | version
  | help
deriving Repr, DecidableEq

/-- Options that take a value. -/
inductive Setting where
  | depth
  | names
  | out
  | components
  | config
  | logLevel
  | port
  | host
  | workers
deriving Repr, DecidableEq

inductive Switch where
  | flag (flag : Flag)
  | setting (setting : Setting)
deriving Repr, DecidableEq

/-- A use of an option. -/
inductive Use where
  | flag (flag : Flag)
  | setting (setting : Setting) (value : Text)
deriving Repr, DecidableEq

def longNames : List (Text × Switch) := [
  ("depth".toList, .setting .depth),
  ("names".toList, .setting .names),
  ("out".toList, .setting .out),
  ("components".toList, .setting .components),
  ("config".toList, .setting .config),
  ("verbose".toList, .flag .verbose),
  ("logs".toList, .flag .verbose),
  ("log-level".toList, .setting .logLevel),
  ("watch".toList, .flag .watch),
  ("serve".toList, .flag .serve),
  ("port".toList, .setting .port),
  ("host".toList, .setting .host),
  ("trace-markers".toList, .flag .traceMarkers),
  ("no-trace-markers".toList, .flag .noTraceMarkers),
  ("workers".toList, .setting .workers),
  ("version".toList, .flag .version),
  ("help".toList, .flag .help)]

def shortNames : List (Char × Switch) := [
  ('d', .setting .depth),
  ('n', .setting .names),
  ('o', .setting .out),
  ('c', .setting .components),
  ('v', .flag .verbose),
  ('w', .flag .watch),
  ('s', .flag .serve),
  ('p', .setting .port)]

/-- The uses of options in one argument, and the option that takes the next argument as its value,
if one does. -/
structure Reading where
  uses : List Use
  open? : Option Setting
deriving Repr, DecidableEq

/-- The options in an argument after its single dash. A character that is no option is an error. -/
def readShort : Text → Option Reading
  | [] => some ⟨[], none⟩
  | c :: rest =>
    match shortNames.lookup c with
    | none => none
    | some (.flag flag) =>
      (readShort rest).map fun reading => { reading with uses := .flag flag :: reading.uses }
    | some (.setting setting) =>
      if rest.isEmpty then some ⟨[], some setting⟩ else some ⟨[.setting setting rest], none⟩

/-- The option in an argument after its two dashes. A flag takes no value. -/
def readLong (text : Text) : Option Reading :=
  let (name, value?) :=
    match Text.cutAt? ['='] text with
    | some (name, value) => (name, some value)
    | none => (text, none)
  match longNames.lookup name, value? with
  | some (.flag flag), none => some ⟨[.flag flag], none⟩
  | some (.setting setting), some value => some ⟨[.setting setting value], none⟩
  | some (.setting setting), none => some ⟨[], some setting⟩
  | _, _ => none

/-- The uses of options in order, and the other arguments. -/
structure Parsed where
  uses : List Use
  others : List Text
deriving Repr, DecidableEq

def Parsed.after (uses : List Use) (parsed : Parsed) : Parsed :=
  { parsed with uses := uses ++ parsed.uses }

/-- Two dashes alone end the options; a single dash alone is none. -/
def parse : List Text → Option Parsed
  | [] => some ⟨[], []⟩
  | ['-', '-'] :: rest => some ⟨[], rest⟩
  | ('-' :: c :: text) :: rest =>
    match if c = '-' then readLong text else readShort (c :: text) with
    | none => none
    | some ⟨uses, none⟩ => (parse rest).map (Parsed.after uses)
    | some ⟨uses, some setting⟩ =>
      match rest with
      | [] => none
      | value :: rest => (parse rest).map (Parsed.after (uses ++ [.setting setting value]))
  | other :: rest => (parse rest).map fun parsed => { parsed with others := other :: parsed.others }

/-! ## Checked options -/

/-- A whole number from `least` on, spelled as in a configuration. -/
def naturalArgument? (least : Nat) (text : Text) : Option Nat :=
  (naturalOf least (.text text)).toOption

def portArgument? (text : Text) : Option Nat := (portOf (.text text)).toOption

/-- No path holds a NUL character. -/
def pathArgument? (text : Text) : Option Text := if text.contains '\x00' then none else some text

/-- Names between commas, trimmed and without empty ones. -/
def splitNames (text : Text) : List Text :=
  ((Text.splitOn ',' text).map Text.trim).filter (!·.isEmpty)

structure Options where
  depth : Option Nat
  names : Option (List Text)
  out : Option Text
  components : Option Text
  config : Option Text
  verbose : Bool
  logLevel : Option Text
  watch : Bool
  serve : Bool
  port : Option Nat
  host : Option Text
  traceMarkers : Option Bool
  workers : Option Nat
deriving Repr, DecidableEq

def lastValue? (uses : List Use) (setting : Setting) : Option Text :=
  uses.reverse.findSome? fun
    | .setting other value => if other = setting then some value else none
    | .flag _ => none

def hasFlag (uses : List Use) (flag : Flag) : Bool := uses.contains (.flag flag)

def lastTraceMarkers? (uses : List Use) : Option Bool :=
  uses.reverse.findSome? fun
    | .flag .traceMarkers => some true
    | .flag .noTraceMarkers => some false
    | _ => none

/-- Checks the value of an option if there is one. -/
def checked? {α : Type} (check : Text → Option α) : Option Text → Option (Option α)
  | none => some none
  | some value => (check value).map some

/-- What a command line asks for. A source with more arguments after it is looked at before they
are refused. -/
inductive Invocation where
  | version
  | help
  | build (source : Text) (options : Options)
  | crowded (source : Text)
deriving Repr, DecidableEq

def optionsOf (uses : List Use) : Option Options := do
  let value? := lastValue? uses
  let depth ← checked? (naturalArgument? 0) (value? .depth)
  let port ← checked? portArgument? (value? .port)
  let workers ← checked? (naturalArgument? 1) (value? .workers)
  let out ← checked? pathArgument? (value? .out)
  let components ← checked? pathArgument? (value? .components)
  let config ← checked? pathArgument? (value? .config)
  return {
    depth, port, workers, out, components, config
    names := (value? .names).map splitNames
    verbose := hasFlag uses .verbose
    logLevel := value? .logLevel
    watch := hasFlag uses .watch
    serve := hasFlag uses .serve
    host := value? .host
    traceMarkers := lastTraceMarkers? uses }

/-- Reads a command line, which has to name a source. -/
def Invocation.ofArguments? (arguments : List Text) : Option Invocation := do
  let parsed ← parse arguments
  if hasFlag parsed.uses .version then return .version
  if hasFlag parsed.uses .help then return .help
  let options ← optionsOf parsed.uses
  match parsed.others with
  | [] => none
  | source :: others =>
    let source ← pathArgument? source
    return if others.isEmpty then .build source options else .crowded source

end PageLoom.Command
