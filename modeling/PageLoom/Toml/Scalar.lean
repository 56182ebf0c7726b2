import PageLoom.Config.Datum
import PageLoom.Number.Numeral
import PageLoom.Text.Scan

/-!
# Scalars in TOML

Strings in their four forms, numbers, and dates and times, each read from the head of a text. Dates
and times are checked and kept as they are written.
-/

namespace PageLoom.Toml

open Config

/-- Why a document is not read. A conflict is over a key that is taken. -/
inductive TomlError where
  | malformed
  | conflict (key : List Text)
  | tooManyDigits
  | tooDeep
deriving Repr, DecidableEq

abbrev Reader (α : Type) := Text → Except TomlError (α × Text)

def isControl (c : Char) : Bool := c.toNat < 32 || c.toNat == 127

/-- Characters that no comment and no string on one line may hold. -/
def isIllegal (c : Char) : Bool := isControl c && c != '\t'

def isIllegalInLines (c : Char) : Bool := isControl c && c != '\t' && c != '\n'

def isSpace (c : Char) : Bool := c == ' ' || c == '\t'

def isSpaceOrNewline (c : Char) : Bool := isSpace c || c == '\n'

def skipSpaces (text : Text) : Text := text.dropWhile isSpace

/-! ## Strings -/

def simpleEscape? : Char → Option Char
  | 'b' => some '\x08'
  | 't' => some '\t'
  | 'n' => some '\n'
  | 'f' => some '\x0c'
  | 'r' => some '\r'
  | '"' => some '"'
  | '\\' => some '\\'
  | _ => none

/-- A character given by its code point in a fixed number of hexadecimal digits. -/
def codePoint (width : Nat) : Reader Text := fun text =>
  let digits := text.take width
  let code := Text.valueInBase 16 digits
  if digits.length = width && digits.all Text.isHexDigit &&
      (code < 55296 || (57343 < code && code < 1114112)) then
    .ok ([Char.ofNat code], text.drop width)
  else .error .malformed

/-- The text that an escape stands for, given what follows the backslash. In a string of several
lines a backslash before a line end swallows all blanks up to the next other character. -/
def escape (severalLines : Bool) : Reader Text := fun text =>
  match text with
  | [] => .error .malformed
  | c :: rest =>
    if severalLines && isSpaceOrNewline c then
      match if c = '\n' then text else skipSpaces rest with
      | [] => .ok ([], [])
      | '\n' :: rest => .ok ([], rest.dropWhile isSpaceOrNewline)
      | _ => .error .malformed
    else if c = 'u' then codePoint 4 rest
    else if c = 'U' then codePoint 8 rest
    else
      match simpleEscape? c with
      | some plain => .ok ([plain], rest)
      | none => .error .malformed

/-- The inside of a string between double quotes, which are one or three. Every step takes at
least one character. -/
def basicFrom (severalLines : Bool) : Nat → Reader Text
  | 0, _ => .error .malformed
  | _ + 1, [] => .error .malformed
  | steps + 1, c :: text =>
    if c = '"' then
      if !severalLines then .ok ([], text)
      else
        match text with
        | '"' :: '"' :: rest => .ok ([], rest)
        | _ => do
          let (inside, rest) ← basicFrom severalLines steps text
          return ('"' :: inside, rest)
    else if c = '\\' then do
      let (plain, rest) ← escape severalLines text
      let (inside, rest) ← basicFrom severalLines steps rest
      return (plain ++ inside, rest)
    else if isIllegalInLines c || (c = '\n' && !severalLines) then .error .malformed
    else do
      let (inside, rest) ← basicFrom severalLines steps text
      return (c :: inside, rest)

/-- A string between double quotes, given what follows the first of them. -/
def basic : Reader Text := fun text => basicFrom false (text.length + 1) text

/-- A string between single quotes, given what follows the first of them. -/
def literal : Reader Text := fun text =>
  match Text.cutAt? ['\''] text with
  | some (inside, rest) => if inside.any isIllegal then .error .malformed else .ok (inside, rest)
  | none => .error .malformed

/-- Up to two quotes right after the closing three belong to the string. -/
def withExtraQuotes (quote : Char) (inside text : Text) : Text × Text :=
  match text with
  | first :: second :: rest =>
    if first = quote then
      if second = quote then (inside ++ [quote, quote], rest)
      else (inside ++ [quote], second :: rest)
    else (inside, first :: second :: rest)
  | [first] => if first = quote then (inside ++ [quote], []) else (inside, [first])
  | [] => (inside, [])

def dropFirstNewline : Text → Text
  | '\n' :: text => text
  | text => text

def basicLines : Reader Text := fun text => do
  let (inside, rest) ← basicFrom true (text.length + 1) (dropFirstNewline text)
  return withExtraQuotes '"' inside rest

def literalLines : Reader Text := fun text =>
  match Text.cutAt? ['\'', '\'', '\''] (dropFirstNewline text) with
  | some (inside, rest) =>
    if inside.any isIllegalInLines then .error .malformed
    else .ok (withExtraQuotes '\'' inside rest)
  | none => .error .malformed

/-! ## Numbers -/

/-- Digits, between any two of which one underscore may stand. -/
def moreDigits (isDigit : Char → Bool) : Text → Text × Text
  | '_' :: c :: text =>
    if isDigit c then
      let (digits, rest) := moreDigits isDigit text
      (c :: digits, rest)
    else ([], '_' :: c :: text)
  | c :: text =>
    if isDigit c then
      let (digits, rest) := moreDigits isDigit text
      (c :: digits, rest)
    else ([], c :: text)
  | [] => ([], [])

def digits? (isDigit : Char → Bool) : Text → Option (Text × Text)
  | c :: text =>
    if isDigit c then
      let (digits, rest) := moreDigits isDigit text
      some (c :: digits, rest)
    else none
  | [] => none

def basedNumber? (text : Text) : Option (Datum × Text) :=
  let read := fun (base : Nat) (isDigit : Char → Bool) (rest : Text) =>
    (digits? isDigit rest).map fun (digits, rest) =>
      (Datum.integer (Int.ofNat (Text.valueInBase base digits)), rest)
  match text with
  | '0' :: 'x' :: rest => read 16 Text.isHexDigit rest
  | '0' :: 'b' :: rest => read 2 (fun c => c == '0' || c == '1') rest
  | '0' :: 'o' :: rest => read 8 Text.isOctalDigit rest
  | _ => none

def wholePart? : Text → Option (Text × Text)
  | '0' :: rest => some (['0'], rest)
  | text => digits? Text.isAsciiDigit text

def fractionPart (text : Text) : Text × Text :=
  match text with
  | '.' :: rest => (digits? Text.isAsciiDigit rest).getD ([], text)
  | _ => ([], text)

/-- An exponent with its sign, if there is one. -/
def exponentPart (text : Text) : Option Int × Text :=
  match text with
  | mark :: rest =>
    if mark = 'e' || mark = 'E' then
      let (negative, unsigned) := Number.splitSign rest
      match digits? Text.isAsciiDigit unsigned with
      | some (digits, rest) =>
        let value : Int := Number.digitsValue digits
        (some (if negative then -value else value), rest)
      | none => (none, text)
    else (none, text)
  | [] => (none, text)

def decimalNumber? (text : Text) : Except TomlError (Option (Datum × Text)) :=
  let (negative, unsigned) := Number.splitSign text
  match wholePart? unsigned with
  | none => .ok none
  | some (whole, rest) =>
    let (fraction, rest) := fractionPart rest
    let (exponent?, rest) := exponentPart rest
    if fraction.isEmpty && exponent?.isNone then
      match Number.readWhole? whole with
      | none => .error .tooManyDigits
      | some value =>
        let value : Int := value
        .ok (some (.integer (if negative then -value else value), rest))
    else
      let numeral : Number.Numeral := ⟨whole, fraction, exponent?.getD 0⟩
      .ok (some (.float (numeral.toFloat negative), rest))

def specialFloat? (text : Text) : Option (Datum × Text) :=
  let (negative, unsigned) := Number.splitSign text
  match Text.afterStart? "inf".toList unsigned, Text.afterStart? "nan".toList unsigned with
  | some rest, _ => some (.float (Number.infinity negative), rest)
  | none, some rest => some (.float Number.notANumber, rest)
  | none, none => none

/-! ## Dates and times -/

def fixedDigits? (width least greatest : Nat) (text : Text) : Option (Nat × Text) :=
  let digits := text.take width
  let value := Text.valueInBase 10 digits
  if digits.length = width && digits.all Text.isAsciiDigit && least ≤ value && value ≤ greatest then
    some (value, text.drop width)
  else none

def afterChar? (expected : Char) : Text → Option Text
  | c :: text => if c = expected then some text else none
  | [] => none

/-- The text after a time of day, fractions of a second included. -/
def afterTime? (text : Text) : Option Text := do
  let (_, text) ← fixedDigits? 2 0 23 text
  let text ← afterChar? ':' text
  let (_, text) ← fixedDigits? 2 0 59 text
  let text ← afterChar? ':' text
  let (_, text) ← fixedDigits? 2 0 59 text
  match text with
  | '.' :: c :: rest =>
    if Text.isAsciiDigit c then return rest.dropWhile Text.isAsciiDigit else return text
  | _ => return text

def afterOffset (text : Text) : Text :=
  match text with
  | c :: rest =>
    if c = 'Z' || c = 'z' then rest
    else if c = '+' || c = '-' then
      (do
        let (_, rest) ← fixedDigits? 2 0 23 rest
        let rest ← afterChar? ':' rest
        let (_, rest) ← fixedDigits? 2 0 59 rest
        return rest : Option Text).getD text
    else text
  | [] => []

def isLeapYear (year : Nat) : Bool := year % 4 == 0 && (year % 100 != 0 || year % 400 == 0)

def daysInMonth (year month : Nat) : Nat :=
  if month = 2 then if isLeapYear year then 29 else 28
  else if month = 4 || month = 6 || month = 9 || month = 11 then 30
  else 31

/-- The text after a date with an optional time, and whether there is such a day. -/
def afterDate? (text : Text) : Option (Bool × Text) := do
  let (year, text) ← fixedDigits? 4 0 9999 text
  let text ← afterChar? '-' text
  let (month, text) ← fixedDigits? 2 1 12 text
  let text ← afterChar? '-' text
  let (day, text) ← fixedDigits? 2 1 31 text
  let exists? := 0 < year && day ≤ daysInMonth year month
  match text with
  | separator :: rest =>
    if separator = 'T' || separator = 't' || separator = ' ' then
      match afterTime? rest with
      | some rest => return (exists?, afterOffset rest)
      | none => return (exists?, text)
    else return (exists?, text)
  | [] => return (exists?, text)

/-- A date, a time or a number at the head of a text. -/
def momentOrNumber : Reader Datum := fun text =>
  match afterDate? text with
  | some (true, rest) => .ok (.moment (text.take (text.length - rest.length)), rest)
  | some (false, _) => .error .malformed
  | none =>
    match afterTime? text with
    | some rest => .ok (.moment (text.take (text.length - rest.length)), rest)
    | none =>
      match basedNumber? text with
      | some number => .ok number
      | none =>
        match decimalNumber? text with
        | .error error => .error error
        | .ok (some number) => .ok number
        | .ok none =>
          match specialFloat? text with
          | some number => .ok number
          | none => .error .malformed

end PageLoom.Toml
