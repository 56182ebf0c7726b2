import PageLoom.Text.CaseTable
import PageLoom.Text.Classes
import PageLoom.Text.LowerTable

/-!
# Small letters

Lower-casing of a whole text. Every capital has one small letter but two: the dotted capital I
becomes an i with a combining dot, and a capital sigma at the end of a word takes its final form.
-/

namespace PageLoom.Text

def LowerRun.covers (run : LowerRun) (code : Nat) : Bool :=
  run.first ≤ code && code ≤ run.last && (code - run.first) % run.step == 0

def lowerChar (c : Char) : Char :=
  let code := c.toNat
  if code < 128 then if 'A' ≤ c && c ≤ 'Z' then Char.ofNat (code + 32) else c
  else
    match lowerRuns.find? (·.covers code) with
    | some run => Char.ofNat (Int.ofNat code + run.distance).toNat
    | none => c

/-- Characters with letter case. -/
def isCased (c : Char) : Bool :=
  if c.toNat < 128 then isAsciiLetter c else inRanges casedRanges c.toNat

/-- Marks inside a word that do not end it. -/
def isWordMark (c : Char) : Bool :=
  if c.toNat < 128 then ['\'', '.', ':', '^', '\x60'].contains c
  else inRanges wordMarkRanges c.toNat

def leadsToCased (text : Text) : Bool :=
  match text.dropWhile isWordMark with
  | [] => false
  | c :: _ => isCased c

/-- Lower-cases a text, given the characters before it, nearest first. -/
def lowerAfter (before : Text) : Text → Text
  | [] => []
  | c :: text =>
    let small :=
      if c = 'İ' then ['i', '\u0307']
      else if c = 'Σ' then
        if leadsToCased before && !leadsToCased text then ['ς'] else ['σ']
      else [lowerChar c]
    small ++ lowerAfter (c :: before) text

def lower (text : Text) : Text := lowerAfter [] text

end PageLoom.Text
