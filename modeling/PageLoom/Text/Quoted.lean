import PageLoom.Text.Classes

/-!
# Quoted text

The form in which error messages show a text: between single quotes, or between double quotes if it
holds a single one and no double one. Backslashes, the quote in use and characters without a
printed form are escaped.
-/

namespace PageLoom.Text

def hexDigit (value : Nat) : Char := (Nat.digitChar (value % 16))

/-- A number in lower-case hexadecimal with a given count of digits. -/
def hexOfWidth : Nat → Nat → Text
  | 0, _ => []
  | width + 1, value => hexOfWidth width (value / 16) ++ [hexDigit value]

def escapeChar (quote c : Char) : Text :=
  if c = quote || c = '\\' then ['\\', c]
  else if c = '\t' then ['\\', 't']
  else if c = '\n' then ['\\', 'n']
  else if c = '\r' then ['\\', 'r']
  else if isPrintable c then [c]
  else if c.toNat < 256 then '\\' :: 'x' :: hexOfWidth 2 c.toNat
  else if c.toNat < 65536 then '\\' :: 'u' :: hexOfWidth 4 c.toNat
  else '\\' :: 'U' :: hexOfWidth 8 c.toNat

def quoteFor (text : Text) : Char :=
  if text.contains '\'' && !text.contains '"' then '"' else '\''

def quoted (text : Text) : Text :=
  let quote := quoteFor text
  quote :: text.flatMap (escapeChar quote) ++ [quote]

end PageLoom.Text
