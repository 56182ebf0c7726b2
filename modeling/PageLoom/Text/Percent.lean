import PageLoom.Text.Classes
import PageLoom.Text.Utf8

/-!
# Percent encoding

A character that is not safe where it is to stand is written as its UTF-8 bytes, each of them as a
percent sign and two hexadecimal digits. Reading takes every such triple for its byte; a percent
sign without two digits stands for itself, and so does every character beyond ASCII.
-/

namespace PageLoom.Percent

/-- Characters that are safe everywhere. -/
def isUnreserved (c : Char) : Bool :=
  Text.isAsciiLetter c || Text.isAsciiDigit c || ['_', '.', '-', '~'].contains c

def hexDigit (value : Nat) : Char :=
  if value < 10 then Char.ofNat (48 + value) else Char.ofNat (55 + value)

def triple (byte : UInt8) : Text := ['%', hexDigit (byte.toNat / 16), hexDigit (byte.toNat % 16)]

def encode (isSafe : Char → Bool) (text : Text) : Text :=
  text.flatMap fun c => if isSafe c then [c] else (Utf8.encodeChar c).flatMap triple

/-- The byte that two hexadecimal digits at the head of a text spell. -/
def hexByte? : Text → Option UInt8
  | high :: low :: _ =>
    match Text.hexValue? high, Text.hexValue? low with
    | some high, some low => some (UInt8.ofNat (high * 16 + low))
    | _, _ => none
  | _ => none

/-- Reads a text of which the first `skip` characters belong to a triple, after the bytes of the
stretch of ASCII characters so far. Every stretch is decoded on its own. -/
def decodeFrom : Nat → Bytes → Text → Text
  | _, bytes, [] => Utf8.decodeReplacing bytes
  | skip + 1, bytes, _ :: text => decodeFrom skip bytes text
  | 0, bytes, c :: text =>
    if 128 ≤ c.toNat then Utf8.decodeReplacing bytes ++ c :: decodeFrom 0 [] text
    else
      match if c = '%' then hexByte? text else none with
      | some byte => decodeFrom 2 (bytes ++ [byte]) text
      | none => decodeFrom 0 (bytes ++ [Utf8.byte c.toNat]) text

def decode (text : Text) : Text := decodeFrom 0 [] text

/-- The stretches of ASCII characters that are decoded on their own, as bytes. -/
def stretchesFrom : Nat → Bytes → Text → List Bytes
  | _, bytes, [] => [bytes]
  | skip + 1, bytes, _ :: text => stretchesFrom skip bytes text
  | 0, bytes, c :: text =>
    if 128 ≤ c.toNat then bytes :: stretchesFrom 0 [] text
    else
      match if c = '%' then hexByte? text else none with
      | some byte => stretchesFrom 2 (bytes ++ [byte]) text
      | none => stretchesFrom 0 (bytes ++ [Utf8.byte c.toNat]) text

/-- The surrogates that a text spells which spells nothing else that is ill-formed. -/
def surrogates (text : Text) : List Nat :=
  (((stretchesFrom 0 [] text).mapM Utf8.surrogates?).getD []).flatten

end PageLoom.Percent
