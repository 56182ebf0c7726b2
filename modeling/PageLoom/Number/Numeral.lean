import PageLoom.Text.Classes
import PageLoom.Number.Rounding

/-!
# Reading numerals

Decimal numerals with an optional sign, fraction and exponent, digits of any script, single
underscores between digits, and the words for infinity and for no number. The value is the float
nearest to what is written, however many digits there are.
-/

namespace PageLoom.Number

/-- Replaces digits of any script by ASCII digits. -/
def plainDigit (c : Char) : Char :=
  match Text.digitValue? c with
  | some value => Char.ofNat (48 + value)
  | none => c

/-- Removes underscores, each of which has to stand between two digits. -/
def dropUnderscores? : Option Char → Text → Option Text
  | _, [] => some []
  | before, '_' :: text =>
    match before, text with
    | some left, right :: _ =>
      if Text.isAsciiDigit left && Text.isAsciiDigit right then dropUnderscores? (some '_') text
      else none
    | _, _ => none
  | _, c :: text => (dropUnderscores? (some c) text).map (c :: ·)

def digitsValue (digits : Text) : Nat :=
  digits.foldl (fun value digit => value * 10 + (digit.toNat - 48)) 0

/-- The sign of a text and what follows it. -/
def splitSign : Text → Bool × Text
  | '-' :: text => (true, text)
  | '+' :: text => (false, text)
  | text => (false, text)

/-- A numeral without sign: its digits before and after the point, and its exponent. -/
structure Numeral where
  whole : Text
  fraction : Text
  exponent : Int
deriving Repr, DecidableEq

def readExponent? : Text → Option Int
  | [] => some 0
  | mark :: text =>
    if mark = 'e' || mark = 'E' then
      let (negative, digits) := splitSign text
      if digits.isEmpty || !digits.all Text.isAsciiDigit then none
      else
        let value : Int := digitsValue digits
        some (if negative then -value else value)
    else none

def readNumeral? (text : Text) : Option Numeral :=
  let whole := text.takeWhile Text.isAsciiDigit
  let rest := text.dropWhile Text.isAsciiDigit
  let (fraction, rest) :=
    match rest with
    | '.' :: rest => (rest.takeWhile Text.isAsciiDigit, rest.dropWhile Text.isAsciiDigit)
    | rest => ([], rest)
  if whole.isEmpty && fraction.isEmpty then none
  else (readExponent? rest).map fun exponent => ⟨whole, fraction, exponent⟩

/-- The float nearest to a numeral. Numerals beyond the range of floats by their length alone are
settled before any power of ten is taken. -/
def Numeral.toFloat (negative : Bool) (numeral : Numeral) : Float :=
  let digits := (numeral.whole ++ numeral.fraction).dropWhile (· = '0')
  let exponent := numeral.exponent - numeral.fraction.length
  if digits.isEmpty || exponent + digits.length < -400 then nearest negative 0 1
  else if 400 < exponent + digits.length then infinity negative
  else
    nearest negative (digitsValue digits * powerOfTen exponent.toNat) (powerOfTen (-exponent).toNat)

def asciiLower (text : Text) : Text :=
  text.map fun c => if 'A' ≤ c && c ≤ 'Z' then Char.ofNat (c.toNat + 32) else c

/-- The float that a text spells, blanks around it aside. -/
def readFloat? (text : Text) : Option Float :=
  match dropUnderscores? none ((Text.trim text).map plainDigit) with
  | none => none
  | some text =>
    let (negative, text) := splitSign text
    let word := asciiLower text
    if word = "inf".toList || word = "infinity".toList then some (infinity negative)
    else if word = "nan".toList then some notANumber
    else (readNumeral? text).map (Numeral.toFloat negative)

/-- The most digits that a whole number may have where it is read or written. -/
def digitLimit : Nat := 4300

/-- The whole number that digits of any script spell, unless there are too many of them. -/
def readWhole? (digits : Text) : Option Nat :=
  if digitLimit < digits.length then none else some (digitsValue (digits.map plainDigit))

def writeWhole? (value : Int) : Option Text :=
  if powerOfTen digitLimit ≤ value.natAbs then none else some (Text.ofInt value)

end PageLoom.Number
