import PageLoom.Config.Datum
import PageLoom.Number.Numeral
import PageLoom.Site.Config
import PageLoom.Text.Lower

/-!
# Checking configurations

A table of configuration data is checked field by field, and all issues are reported together. Data
that spell a value of the wanted kind are accepted: digits for a whole number, a float without
fraction, the usual words for truth values. Field values are normalised on the way.
-/

namespace PageLoom.Config

open Site

inductive IssueKind where
  | tooSmall (least : Nat)
  | tooLarge (most : Nat)
  | notSpellingInteger
  | tooManyDigits
  | notInteger
  | fractional
  | notFinite
  | notText
  | notList
  | notTable
  | notSpellingBool
  | notBool
  | notPath
  | rejected
  | unknownField
deriving Repr, DecidableEq

/-- The word for a kind of issue. -/
def IssueKind.code : IssueKind → Text
  | tooSmall _ => "greater_than_equal".toList
  | tooLarge _ => "less_than_equal".toList
  | notSpellingInteger => "int_parsing".toList
  | tooManyDigits => "int_parsing_size".toList
  | notInteger => "int_type".toList
  | fractional => "int_from_float".toList
  | notFinite => "finite_number".toList
  | notText => "string_type".toList
  | notList => "list_type".toList
  | notTable => "dict_type".toList
  | notSpellingBool => "bool_parsing".toList
  | notBool => "bool_type".toList
  | notPath => "path_type".toList
  | rejected => "value_error".toList
  | unknownField => "extra_forbidden".toList

def IssueKind.message : IssueKind → Text
  | tooSmall least => "Input should be greater than or equal to ".toList ++ Text.ofNat least
  | tooLarge most => "Input should be less than or equal to ".toList ++ Text.ofNat most
  | notSpellingInteger =>
    "Input should be a valid integer, unable to parse string as an integer".toList
  | tooManyDigits => "Unable to parse input string as an integer, exceeded maximum size".toList
  | notInteger => "Input should be a valid integer".toList
  | fractional => "Input should be a valid integer, got a number with a fractional part".toList
  | notFinite => "Input should be a finite number".toList
  | notText => "Input should be a valid string".toList
  | notList => "Input should be a valid list".toList
  | notTable => "Input should be a valid dictionary".toList
  | notSpellingBool => "Input should be a valid boolean, unable to interpret input".toList
  | notBool => "Input should be a valid boolean".toList
  | notPath => "Input is not a valid path".toList
  | rejected => "Value error, at least one file suffix is required".toList
  | unknownField => "Extra inputs are not permitted".toList

/-- Where a value stands: the field, and the keys and numbers of items that lead on from there. -/
abbrev Place := List Text

/-- What is wrong with a value, and how messages show that value. -/
structure Issue where
  place : Place
  kind : IssueKind
  shown : Text
  typeName : Text
deriving Repr, DecidableEq

namespace Issue

def of (place : Place) (kind : IssueKind) (datum : Datum) : Issue :=
  ⟨place, kind, datum.shown, datum.typeName⟩

def placeText (issue : Issue) : Text := Text.joinWith ['.'] issue.place

/-- A part with points of its own goes between backquotes. -/
def placeLine (issue : Issue) : Text :=
  Text.joinWith ['.'] (issue.place.map fun part =>
    if part.contains '.' then '\x60' :: part ++ ['\x60'] else part)

/-- What a value may take of a message, in bytes. -/
def shownLimit : Nat := 50

/-- The longest start of a text that has at most so many bytes. -/
def startOf : Nat → Text → Text
  | _, [] => []
  | bytes, c :: text =>
    let size := (Utf8.encodeChar c).length
    if size ≤ bytes then c :: startOf (bytes - size) text else []

/-- The first and the last bytes of what is too long. -/
def shortened (text : Text) : Text :=
  if shownLimit < (Utf8.encode text).length then
    startOf 25 text ++ "...".toList ++ (startOf 24 text.reverse).reverse
  else text

def message (issue : Issue) : Text :=
  issue.placeLine ++ "\n  ".toList ++ issue.kind.message ++ " [type=".toList ++ issue.kind.code ++
    ", input_value=".toList ++ shortened issue.shown ++ ", input_type=".toList ++
    issue.typeName ++ [']']

end Issue

def issuesMessage (issues : List Issue) : Text :=
  let count := Text.ofNat issues.length
  let title := if issues.length = 1 then " validation error for " else " validation errors for "
  Text.joinWith ['\n']
    ((count ++ title.toList ++ "BuildConfig".toList) :: issues.map Issue.message)

abbrev Checked (α : Type) := Except (List Issue) α

def reject {α : Type} (place : Place) (kind : IssueKind) (datum : Datum) : Checked α :=
  .error [.of place kind datum]

/-- Applies a checked function to a checked argument and keeps the issues of both. -/
def Checked.and {α β : Type} : Checked (α → β) → Checked α → Checked β
  | .ok f, .ok x => .ok (f x)
  | .error issues, .ok _ => .error issues
  | .ok _, .error issues => .error issues
  | .error issues, .error others => .error (issues ++ others)

/-! ## Single values -/

/-- Blanks that may surround a number. The information separators are not among them. -/
def isNumberBlank (c : Char) : Bool := Text.isBlank c && !(28 ≤ c.toNat && c.toNat ≤ 31)

/-- A fraction of zeros after a whole number adds nothing. -/
def dropZeroFraction (text : Text) : Text :=
  match Text.cutAt? ['.'] text with
  | some (whole, zeros) => if !zeros.isEmpty && zeros.all (· == '0') then whole else text
  | none => text

/-- The whole number that a text spells: a sign, digits with single underscores between them, and
perhaps a fraction of zeros. -/
def integerOfText (text : Text) : Except IssueKind Int :=
  let (negative, unsigned) := Number.splitSign (Text.trimWhile isNumberBlank text)
  match Number.dropUnderscores? none (dropZeroFraction unsigned) with
  | none => .error .notSpellingInteger
  | some digits =>
    if digits.isEmpty || !digits.all Text.isAsciiDigit then .error .notSpellingInteger
    else if Number.digitLimit < digits.length then .error .tooManyDigits
    else
      let value : Int := Number.digitsValue digits
      .ok (if negative then -value else value)

/-- Floats from here on are too large to be taken for whole numbers, and whole numbers from here on
are too large for truth values. -/
def wordLimit : Int := Number.powerOfTwo 63

def integerOfFloat (value : Float) : Except IssueKind Int :=
  if !Number.isFinite value then .error .notFinite
  else
    match Number.wholeValue? value with
    | none => .error .fractional
    | some whole =>
      if -wordLimit < whole ∧ whole < wordLimit then .ok whole else .error .tooManyDigits

def integerOf : Datum → Except IssueKind Int
  | .integer value => .ok value
  | .bool value => .ok (if value then 1 else 0)
  | .text value => integerOfText value
  | .float value => integerOfFloat value
  | _ => .error .notInteger

/-- Places the issue of a single value. -/
def placed {α : Type} (place : Place) (datum : Datum) : Except IssueKind α → Checked α
  | .ok value => .ok value
  | .error kind => reject place kind datum

def naturalOf (least : Nat) (datum : Datum) : Except IssueKind Nat := do
  let value ← integerOf datum
  if value < least then throw (.tooSmall least) else return value.toNat

/-- A whole number from `least` on. -/
def natural (least : Nat) (place : Place) (datum : Datum) : Checked Nat :=
  placed place datum (naturalOf least datum)

def greatestPort : Nat := 65535

def portOf (datum : Datum) : Except IssueKind Nat := do
  let value ← naturalOf 0 datum
  if greatestPort < value then throw (.tooLarge greatestPort) else return value

def portNumber (place : Place) (datum : Datum) : Checked Nat := placed place datum (portOf datum)

def trueWords : List Text :=
  ["1".toList, "on".toList, "t".toList, "true".toList, "y".toList, "yes".toList]

def falseWords : List Text :=
  ["0".toList, "off".toList, "f".toList, "false".toList, "n".toList, "no".toList]

def boolOfInteger (value : Int) : Except IssueKind Bool :=
  if value = 1 then .ok true
  else if value = 0 then .ok false
  else if -wordLimit ≤ value ∧ value < wordLimit then .error .notSpellingBool
  else .error .notBool

def boolOf : Datum → Except IssueKind Bool
  | .bool value => .ok value
  | .integer value => boolOfInteger value
  | .float value =>
    match integerOfFloat value with
    | .ok whole => boolOfInteger whole
    | .error _ => .error .notBool
  | .text value =>
    let word := Number.asciiLower value
    if trueWords.contains word then .ok true
    else if falseWords.contains word then .ok false
    else .error .notSpellingBool
  | _ => .error .notBool

def boolean (place : Place) (datum : Datum) : Checked Bool := placed place datum (boolOf datum)

def text (place : Place) : Datum → Checked Text
  | .text value => .ok value
  | datum => reject place .notText datum

def path (place : Place) : Datum → Checked Path
  | .text value => .ok (Path.ofText value)
  | datum => reject place .notPath datum

/-- Null stands for no value. -/
def optional {α : Type} (check : Place → Datum → Checked α) (place : Place) :
    Datum → Checked (Option α)
  | .null => .ok none
  | datum => (check place datum).map some

def textsFrom (place : Place) : Nat → List Datum → Checked (List Text)
  | _, [] => .ok []
  | index, datum :: rest =>
    Checked.and ((text (place ++ [Text.ofNat index]) datum).map List.cons)
      (textsFrom place (index + 1) rest)

def textList (place : Place) : Datum → Checked (List Text)
  | .array values => textsFrom place 0 values
  | datum => reject place .notList datum

/-! ## Normalised values -/

/-- Suffixes are trimmed, lower-cased and given their point; empty ones are dropped. -/
def normalizeSuffix (value : Text) : Option Text :=
  match Text.lower (Text.trim value) with
  | [] => none
  | '.' :: rest => some ('.' :: rest)
  | suffix => some ('.' :: suffix)

def normalizeSuffixes (values : List Text) : List Text := values.filterMap normalizeSuffix

def suffixes (place : Place) (datum : Datum) : Checked (List Text) := do
  let normalized := normalizeSuffixes (← textList place datum)
  if normalized.isEmpty then reject place .rejected datum else return normalized

/-- Names are trimmed and empty ones dropped; no names left is no restriction. -/
def normalizeNames (values : List Text) : Option (List Text) :=
  let cleaned := (values.map Text.trim).filter (!·.isEmpty)
  if cleaned.isEmpty then none else some cleaned

def stems (place : Place) (datum : Datum) : Checked (Option (List Text)) := do
  return (← optional textList place datum).bind normalizeNames

/-- A variable is a text or a list of texts. What is neither is an issue for both. -/
def variableValue (place : Place) : Datum → Checked PropValue
  | .text value => .ok (.scalar value)
  | datum =>
    match textList (place ++ ["list[str]".toList]) datum with
    | .ok values => .ok (.list values)
    | .error issues => .error (.of (place ++ ["str".toList]) .notText datum :: issues)

def valuesFrom (place : Place) : Table → Checked Props
  | [] => .ok []
  | (name, datum) :: rest =>
    Checked.and ((variableValue (place ++ [name]) datum).map fun value others =>
      (name, value) :: others) (valuesFrom place rest)

def variableTable (place : Place) : Datum → Checked Props
  | .table entries => valuesFrom place entries
  | datum => reject place .notTable datum

/-! ## Configurations -/

def fieldNames : List Text := [
  "source".toList, "output".toList, "components".toList, "depth".toList, "names".toList,
  "extensions".toList, "component_extensions".toList, "variables".toList, "trace_markers".toList,
  "workers".toList, "host".toList, "port".toList]

/-- The fields of a configuration that a table gives values to. -/
def fieldsGiven (table : Table) : List Text :=
  fieldNames.filter fun name => (table.get? name).isSome

def unknownFields (table : Table) : Checked Unit :=
  let unknown := table.filter fun entry => !fieldNames.contains entry.1
  if unknown.isEmpty then .ok ()
  else .error (unknown.map fun (name, datum) => .of [name] .unknownField datum)

/-- The checked value of a field, or its default if it is not given. -/
def field {α : Type} (table : Table) (name : String) (check : Place → Datum → Checked α)
    (default : α) : Checked α :=
  match table.get? name.toList with
  | some datum => check [name.toList] datum
  | none => .ok default

def validateFields (table : Table) : Checked BuildConfig :=
  Checked.and (Checked.and (Checked.and (Checked.and (Checked.and (Checked.and (Checked.and
    (Checked.and (Checked.and (Checked.and (Checked.and
    ((field table "source" (optional path) defaultConfig.source).map BuildConfig.mk)
    (field table "output" (optional path) defaultConfig.output))
    (field table "components" path defaultConfig.components))
    (field table "depth" (optional (natural 0)) defaultConfig.depth))
    (field table "names" stems defaultConfig.names))
    (field table "extensions" suffixes defaultConfig.extensions))
    (field table "component_extensions" suffixes defaultConfig.componentExtensions))
    (field table "variables" variableTable defaultConfig.globals))
    (field table "trace_markers" boolean defaultConfig.traceMarkers))
    (field table "workers" (optional (natural 1)) defaultConfig.workers))
    (field table "host" text defaultConfig.host))
    (field table "port" portNumber defaultConfig.port)

/-- Fields are checked in their order, and after them the names of all that is given. -/
def validate (table : Table) : Checked BuildConfig :=
  Checked.and ((validateFields table).map fun config _ => config) (unknownFields table)

/-! ## Writing configurations down -/

def ofOption {α : Type} (write : α → Datum) : Option α → Datum
  | none => .null
  | some value => write value

def ofPath (path : Path) : Datum := .text path.toText

def ofTexts (values : List Text) : Datum := .array (values.map .text)

def ofVariable : PropValue → Datum
  | .scalar text => .text text
  | .list values => ofTexts values

def ofNatural (value : Nat) : Datum := .integer value

/-- The table of all fields of a configuration. -/
def dump (config : BuildConfig) : Table := [
  ("source".toList, ofOption ofPath config.source),
  ("output".toList, ofOption ofPath config.output),
  ("components".toList, ofPath config.components),
  ("depth".toList, ofOption ofNatural config.depth),
  ("names".toList, ofOption ofTexts config.names),
  ("extensions".toList, ofTexts config.extensions),
  ("component_extensions".toList, ofTexts config.componentExtensions),
  ("variables".toList, .table (config.globals.map fun (name, value) => (name, ofVariable value))),
  ("trace_markers".toList, .bool config.traceMarkers),
  ("workers".toList, ofOption ofNatural config.workers),
  ("host".toList, .text config.host),
  ("port".toList, ofNatural config.port)]

end PageLoom.Config
