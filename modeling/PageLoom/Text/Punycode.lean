import PageLoom.Text.Basic

/-!
# Punycode

An ASCII form for any text: its ASCII characters, then for every other character, in increasing
order, the distance in a walk through all places and code points. A distance is written in digits
to the base 36 whose thresholds adapt to the distances before.
-/

namespace PageLoom.Punycode

def digit (value : Nat) : Char := Char.ofNat (if value < 26 then 97 + value else 22 + value)

/-- From here on a digit of some position is not the last one. -/
def threshold (position bias : Nat) : Nat :=
  if position ≤ bias then 1 else min (position - bias) 26

theorem threshold_pos (position bias : Nat) : 1 ≤ threshold position bias := by
  unfold threshold
  split <;> omega

/-- The digits of a distance, the least first. -/
def digits (bias position distance : Nat) : Text :=
  let least := threshold position bias
  if distance < least then [digit distance]
  else
    digit (least + (distance - least) % (36 - least)) ::
      digits bias (position + 36) ((distance - least) / (36 - least))
termination_by distance
decreasing_by
  have := threshold_pos position bias
  calc (distance - threshold position bias) / (36 - threshold position bias)
      ≤ distance - threshold position bias := Nat.div_le_self _ _
    _ < distance := by omega

/-- Brings a distance down to the range of the bias, and counts the steps in positions. -/
def scaleDown (distance positions : Nat) : Nat × Nat :=
  if 455 < distance then scaleDown (distance / 35) (positions + 36) else (distance, positions)
termination_by distance
decreasing_by exact Nat.div_lt_self (by omega) (by omega)

/-- The bias after a distance, when so many characters are written. -/
def adapt (distance written : Nat) (isFirst : Bool) : Nat :=
  let damped := if isFirst then distance / 700 else distance / 2
  let (scaled, positions) := scaleDown (damped + damped / written) 0
  positions + 36 * scaled / (scaled + 38)

/-- What has been written so far: the digits, the distance since then, the bias, and the count of
characters. -/
structure Progress where
  written : Text
  distance : Nat
  bias : Nat
  count : Nat

/-- Passes a character of the text while the characters of a code point are written. -/
def pass (plain code : Nat) (progress : Progress) (c : Char) : Progress :=
  if c.toNat < code then { progress with distance := progress.distance + 1 }
  else if c.toNat = code then
    { written := progress.written ++ digits progress.bias 36 progress.distance
      distance := 0
      bias := adapt progress.distance (progress.count + 1) (progress.count = plain)
      count := progress.count + 1 }
  else progress

def writeCodes (text : Text) (plain : Nat) : List Nat → Nat → Progress → Progress
  | [], _, progress => progress
  | code :: codes, next, progress =>
    let distance := progress.distance + (code - next) * (progress.count + 1)
    let passed := text.foldl (pass plain code) { progress with distance }
    writeCodes text plain codes (code + 1) { passed with distance := passed.distance + 1 }

def isAscii (c : Char) : Bool := c.toNat < 128

def encode (text : Text) : Text :=
  let plain := text.filter isAscii
  let codes := ((text.filter (!isAscii ·)).map Char.toNat).eraseDups.mergeSort
  let progress := writeCodes text plain.length codes 128 ⟨[], 0, 72, plain.length⟩
  plain ++ (if plain.isEmpty then [] else ['-']) ++ progress.written

end PageLoom.Punycode
