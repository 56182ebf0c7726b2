import PageLoom.Text.Classes
import PageLoom.Text.Scan

/-!
# Environment files

An environment file binds variables line by line: an optional `export`, a name, and a value after an
equals sign. Values in quotes may span lines and hold escapes; other values end before a comment. A
line that is not a binding is passed over.
-/

namespace PageLoom.Environment

open Scan

/-- A name with its value; a name alone has none. -/
structure Binding where
  name : Text
  value : Option Text
deriving Repr, DecidableEq

/-- A reader fails with the text that it could not read. -/
abbrev LineReader (α : Type) := Text → Except Text (α × Text)

def isLineBlank (c : Char) : Bool := Text.isBlank c && c != '\n'

def skipExport (text : Text) : Text :=
  match Text.afterStart? "export".toList text with
  | some rest => if rest.head?.any isLineBlank then rest.dropWhile isLineBlank else text
  | none => text

def isNameChar (c : Char) : Bool := c != '=' && c != '#' && !Text.isBlank c

/-- The name at the head of a line, which a comment has none of. -/
def name : LineReader (Option Text) := fun text =>
  match text with
  | '#' :: _ => .ok (none, text)
  | '\'' :: rest =>
    match Text.cutAt? ['\''] rest with
    | some (c :: quoted, rest) => .ok (some (c :: quoted), rest)
    | _ => .error text
  | text =>
    let bare := text.takeWhile isNameChar
    if bare.isEmpty then .error text else .ok (some bare, text.dropWhile isNameChar)

/-- Cuts at the first quote. A backslash takes the character after it along. -/
def cutAtQuote? (quote : Char) : Text → Option (Text × Text)
  | [] => none
  | '\\' :: c :: text =>
    (cutAtQuote? quote text).map fun (inside, rest) => ('\\' :: c :: inside, rest)
  | c :: text =>
    if c = quote then some ([], text)
    else (cutAtQuote? quote text).map fun (inside, rest) => (c :: inside, rest)

/-- The inside of a quoted value. -/
def quoted (quote : Char) : LineReader Text := fun text =>
  match cutAtQuote? quote text with
  | some (inside, rest) => .ok (inside, rest)
  | none => .error (quote :: text)

def singleEscape? : Char → Option Char
  | '\\' => some '\\'
  | '\'' => some '\''
  | _ => none

def doubleEscape? : Char → Option Char
  | '\\' => some '\\'
  | '\'' => some '\''
  | '"' => some '"'
  | 'a' => some '\x07'
  | 'b' => some '\x08'
  | 'f' => some '\x0c'
  | 'n' => some '\n'
  | 'r' => some '\r'
  | 't' => some '\t'
  | 'v' => some '\x0b'
  | _ => none

def escapePattern (escape? : Char → Option Char) : Pattern Char := fun _ text =>
  match text with
  | '\\' :: c :: _ => (escape? c).map fun plain => (plain, 1)
  | _ => none

def unescape (escape? : Char → Option Char) (text : Text) : Text :=
  replaceWith (escapePattern escape?) (fun _ plain => [plain]) text

/-- The text before a number sign that follows a blank. -/
def beforeComment : Option Char → Text → Text
  | _, [] => []
  | before, c :: text =>
    if c = '#' && before.any Text.isBlank then [] else c :: beforeComment (some c) text

/-- A value without quotes, without the blanks around it. -/
def bareValue (text : Text) : Text × Text :=
  (Text.trim (beforeComment none (text.takeWhile (· ≠ '\n'))), text.dropWhile (· ≠ '\n'))

/-- The value after an equals sign. -/
def value : LineReader Text := fun text =>
  match text.dropWhile isLineBlank with
  | '\'' :: rest =>
    (quoted '\'' rest).map fun (inside, rest) => (unescape singleEscape? inside, rest)
  | '"' :: rest =>
    (quoted '"' rest).map fun (inside, rest) => (unescape doubleEscape? inside, rest)
  | _ => .ok (bareValue text)

def optionalValue : LineReader (Option Text) := fun text =>
  match text.dropWhile isLineBlank with
  | '=' :: rest => (value rest).map fun (value, rest) => (some value, rest)
  | rest => .ok (none, rest)

def skipComment (text : Text) : Text :=
  match text.dropWhile isLineBlank with
  | '#' :: rest => rest.dropWhile (· ≠ '\n')
  | _ => text

def lineEnd (text : Text) : Except Text Text :=
  match text.dropWhile isLineBlank with
  | [] => .ok []
  | '\n' :: rest => .ok rest
  | _ => .error text

def line : LineReader (Option Binding) := fun text => do
  let (name?, rest) ← name (skipExport text)
  let (value, rest) ← optionalValue rest
  let rest ← lineEnd (skipComment rest)
  return (name?.map fun name => ⟨name, value⟩, rest)

def skipLine (text : Text) : Text := (text.dropWhile (· ≠ '\n')).drop 1

/-- Every step takes a line, which is not empty. -/
def bindingsFrom : Nat → Text → List Binding
  | 0, _ => []
  | steps + 1, text =>
    match text.dropWhile Text.isBlank with
    | [] => []
    | text =>
      match line text with
      | .ok (binding?, rest) => binding?.toList ++ bindingsFrom steps rest
      | .error rest => bindingsFrom steps (skipLine rest)

/-- Line ends are single characters before anything else is read. -/
def unifyLineEnds (text : Text) : Text :=
  Text.replaceAll ['\r'] ['\n'] (Text.replaceAll ['\r', '\n'] ['\n'] text)

/-- A mark of the byte order may stand before everything else. -/
def skipMark : Text → Text
  | '\ufeff' :: text => text
  | text => text

/-- The bindings of an environment file, in order. -/
def bindings (text : Text) : List Binding :=
  let unified := unifyLineEnds (skipMark text)
  bindingsFrom (unified.length + 1) unified

end PageLoom.Environment
