import PageLoom.Text.Basic

/-!
# UTF-8

Files hold bytes. A text is written as UTF-8; bytes are read back strictly, or with the replacement
character in the place of every maximal piece that no well-formed sequence begins with.
-/

namespace PageLoom

abbrev Bytes := List UInt8

namespace Utf8

def byte (value : Nat) : UInt8 := UInt8.ofNat value

def encodeChar (c : Char) : Bytes :=
  let code := c.toNat
  if code < 128 then [byte code]
  else if code < 2048 then [byte (192 + code / 64), byte (128 + code % 64)]
  else if code < 65536 then
    [byte (224 + code / 4096), byte (128 + code / 64 % 64), byte (128 + code % 64)]
  else
    [byte (240 + code / 262144), byte (128 + code / 4096 % 64), byte (128 + code / 64 % 64),
      byte (128 + code % 64)]

def encode (text : Text) : Bytes := text.flatMap encodeChar

/-- Which bytes may follow a lead byte: how many, the range of the first of them, and the value
that the lead byte contributes. -/
structure Lead where
  following : Nat
  low : Nat
  high : Nat
  value : Nat

def lead? (first : Nat) : Option Lead :=
  if first < 128 then some ⟨0, 128, 191, first⟩
  else if first < 194 then none
  else if first < 224 then some ⟨1, 128, 191, first - 192⟩
  else if first = 224 then some ⟨2, 160, 191, 0⟩
  else if first = 237 then some ⟨2, 128, 159, 13⟩
  else if first < 240 then some ⟨2, 128, 191, first - 224⟩
  else if first = 240 then some ⟨3, 144, 191, 0⟩
  else if first < 244 then some ⟨3, 128, 191, first - 240⟩
  else if first = 244 then some ⟨3, 128, 143, 4⟩
  else none

/-- Reads the continuation bytes of a sequence, given the value so far. The answer is the code
point, or how many of the bytes still fit, and the count of bytes read beyond `seen`. -/
def readFollowing : Nat → Nat → Nat → Nat → Nat → Bytes → Except Nat (Nat × Nat)
  | 0, _, _, value, seen, _ => .ok (value, seen)
  | _ + 1, _, _, _, seen, [] => .error seen
  | following + 1, low, high, value, seen, next :: bytes =>
    if low ≤ next.toNat && next.toNat ≤ high then
      readFollowing following 128 191 (value * 64 + (next.toNat - 128)) (seen + 1) bytes
    else .error seen

/-- What stands at the head of some bytes: a character and how many bytes it takes beyond the
first, or how many bytes beyond the first belong to the ill-formed piece there. -/
def headChar (first : UInt8) (bytes : Bytes) : Except Nat (Char × Nat) :=
  match lead? first.toNat with
  | none => .error 0
  | some lead =>
    match readFollowing lead.following lead.low lead.high lead.value 0 bytes with
    | .ok (code, more) => .ok (Char.ofNat code, more)
    | .error more => .error more

def decodeFrom : Nat → Bytes → Option Text
  | _, [] => some []
  | skip + 1, _ :: bytes => decodeFrom skip bytes
  | 0, first :: bytes =>
    match headChar first bytes with
    | .ok (c, more) => (decodeFrom more bytes).map (c :: ·)
    | .error _ => none

/-- The text that some bytes are the UTF-8 of. -/
def decode? (bytes : Bytes) : Option Text := decodeFrom 0 bytes

/-- The surrogate that some bytes spell in the way of UTF-8. -/
def surrogate? (first : UInt8) (bytes : Bytes) : Option Nat :=
  match bytes with
  | second :: third :: _ =>
    if first = 237 && 160 ≤ second && second < 192 && 128 ≤ third && third < 192 then
      some (53248 + (second.toNat - 128) * 64 + (third.toNat - 128))
    else none
  | _ => none

def surrogatesFrom : Nat → Bytes → Option (List Nat)
  | _, [] => some []
  | skip + 1, _ :: bytes => surrogatesFrom skip bytes
  | 0, first :: bytes =>
    match headChar first bytes, surrogate? first bytes with
    | .ok (_, more), _ => surrogatesFrom more bytes
    | .error _, some code => (surrogatesFrom 2 bytes).map (code :: ·)
    | .error _, none => none

/-- The surrogates in bytes that are UTF-8 but for these. -/
def surrogates? (bytes : Bytes) : Option (List Nat) := surrogatesFrom 0 bytes

def replacement : Char := '\ufffd'

def decodeReplacingFrom : Nat → Bytes → Text
  | _, [] => []
  | skip + 1, _ :: bytes => decodeReplacingFrom skip bytes
  | 0, first :: bytes =>
    match headChar first bytes with
    | .ok (c, more) => c :: decodeReplacingFrom more bytes
    | .error more => replacement :: decodeReplacingFrom more bytes

def decodeReplacing (bytes : Bytes) : Text := decodeReplacingFrom 0 bytes

end Utf8

end PageLoom
