import PageLoom.Number.Numeral
import PageLoom.Serve.HostName

/-!
# Hosts

The hosts that a server can be bound to without a name service: every address in numbers, the local
host by its name, the broadcast address by its name, and the empty host for all addresses. An
address has up to four parts between points, in decimal, octal or hexadecimal digits; the last part
fills all bytes that are left.
-/

namespace PageLoom.Serve

/-- Why there is no address for a host: it has no ASCII form, or it is not known. -/
inductive HostError where
  | unencodable
  | unknown
deriving Repr, DecidableEq

/-- A number in the base that its first characters tell. -/
def addressPart? : Text → Option Nat
  | '0' :: mark :: digits =>
    if mark = 'x' || mark = 'X' then
      if !digits.isEmpty && digits.all Text.isHexDigit then some (Text.valueInBase 16 digits)
      else none
    else if (mark :: digits).all Text.isOctalDigit then some (Text.valueInBase 8 (mark :: digits))
    else none
  | digits =>
    if !digits.isEmpty && digits.all Text.isAsciiDigit then some (Text.valueInBase 10 digits)
    else none

/-- The address of parts, given how many bytes are left for them. -/
def joinParts? : Nat → List Nat → Option Nat
  | bytes, [last] => if last < 256 ^ bytes then some last else none
  | bytes + 1, part :: parts =>
    if part < 256 then (joinParts? bytes parts).map (part * 256 ^ bytes + ·) else none
  | _, _ => none

def numericAddress? (host : Text) : Option Nat := do
  joinParts? 4 (← (Text.splitOn '.' host).mapM addressPart?)

def localAddress : Nat := 0x7f000001

def broadcastAddress : Nat := 0xffffffff

def addressOfName? (name : Text) : Option Nat :=
  if name.isEmpty then some 0
  else if name = "<broadcast>".toList then some broadcastAddress
  else if Number.asciiLower name = "localhost".toList then some localAddress
  else numericAddress? name

/-- The address of a host. -/
def addressOf (host : Text) : Except HostError Nat :=
  match HostName.encode? host with
  | none => .error .unencodable
  | some name =>
    if name.contains '\x00' then .error .unencodable
    else
      match addressOfName? name with
      | some address => .ok address
      | none => .error .unknown

/-- An address as its four bytes. -/
def addressText (address : Nat) : Text :=
  let high := [address / 0x1000000, address / 0x10000, address / 0x100, address]
  Text.joinWith ['.'] (high.map fun bytes => Text.ofNat (bytes % 0x100))

end PageLoom.Serve
