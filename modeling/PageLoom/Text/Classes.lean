import PageLoom.Text.Basic
import PageLoom.Text.WordTable
import PageLoom.Text.UnprintableTable

/-!
# Character classes

Which characters separate, which belong to a word, which are digits of some base or decimal digits
of some script, and which have a printed form. ASCII is decided by rule; beyond it the tables of
this folder decide.
-/

namespace PageLoom.Text

def inRanges (ranges : List (Nat × Nat)) (code : Nat) : Bool :=
  ranges.any fun range => range.1 ≤ code && code ≤ range.2

/-- Blanks, line ends and the other separators, the four ASCII information separators included. -/
def isBlank (c : Char) : Bool :=
  let code := c.toNat
  if code < 128 then (9 ≤ code && code ≤ 13) || (28 ≤ code && code ≤ 32)
  else code == 133 || code == 160 || code == 5760 || (8192 ≤ code && code ≤ 8202) ||
    code == 8232 || code == 8233 || code == 8239 || code == 8287 || code == 12288

def isAsciiLetter (c : Char) : Bool :=
  ('a' ≤ c && c ≤ 'z') || ('A' ≤ c && c ≤ 'Z')

def isAsciiDigit (c : Char) : Bool := '0' ≤ c && c ≤ '9'

/-- The first characters of the names of components, attributes and loop variables. -/
def isIdentifierStart (c : Char) : Bool := isAsciiLetter c || c == '_'

def isOctalDigit (c : Char) : Bool := '0' ≤ c && c ≤ '7'

def hexValue? (c : Char) : Option Nat :=
  if isAsciiDigit c then some (c.toNat - 48)
  else if 'a' ≤ c && c ≤ 'f' then some (c.toNat - 87)
  else if 'A' ≤ c && c ≤ 'F' then some (c.toNat - 55)
  else none

def isHexDigit (c : Char) : Bool := (hexValue? c).isSome

/-- The number that is written in the digits of a base up to sixteen. -/
def valueInBase (base : Nat) (digits : Text) : Nat :=
  digits.foldl (fun value c => value * base + (hexValue? c).getD 0) 0

/-- Letters, digits and other numeric characters of any script, and the underscore. -/
def isWord (c : Char) : Bool :=
  if c.toNat < 128 then isAsciiLetter c || isAsciiDigit c || c == '_'
  else inRanges wordRanges c.toNat

/-- The value of a decimal digit of any script. -/
def digitValue? (c : Char) : Option Nat :=
  let code := c.toNat
  if code < 128 then if isAsciiDigit c then some (code - 48) else none
  else (digitRuns.find? fun first => first ≤ code && code < first + 10).map (code - ·)

def isDigit (c : Char) : Bool := (digitValue? c).isSome

def isPrintable (c : Char) : Bool :=
  if c.toNat < 128 then 32 ≤ c.toNat && c.toNat < 127
  else !inRanges unprintableRanges c.toNat

def trim (text : Text) : Text := trimWhile isBlank text

def trimStart (text : Text) : Text := text.dropWhile isBlank

def trimEnd (text : Text) : Text := trimEndWhile isBlank text

/-- The words of a text, of which any blanks separate two. -/
def words (text : Text) : List Text :=
  (splitOn ' ' (text.map fun c => if isBlank c then ' ' else c)).filter (!·.isEmpty)

end PageLoom.Text
