/-!
# Exact values of floats

A finite float is a whole number times a power of two. Everything that has to be exact about floats
is computed on that form: the float nearest to a quotient of whole numbers, with halves going to
the even neighbour, and the whole number that a float with no fractional part equals.
-/

namespace PageLoom.Number

def powerOfTwo (exponent : Nat) : Nat := Nat.pow 2 exponent

def powerOfTen (exponent : Nat) : Nat := Nat.pow 10 exponent

/-- The value `± mantissa · 2 ^ exponent`. -/
structure Dyadic where
  negative : Bool
  mantissa : Nat
  exponent : Int
deriving Repr, DecidableEq

def mantissaBits : Nat := 52

def leastExponent : Int := -1074

def infinityBits : Nat := 2047 * powerOfTwo mantissaBits

def signBit : Nat := powerOfTwo 63

def isFinite (x : Float) : Bool := x.toBits.toNat % signBit < infinityBits

def isNegative (x : Float) : Bool := signBit ≤ x.toBits.toNat

/-- The exact value of a finite float. -/
def dyadic (x : Float) : Dyadic :=
  let magnitude := x.toBits.toNat % signBit
  let field := magnitude / powerOfTwo mantissaBits
  let fraction := magnitude % powerOfTwo mantissaBits
  if field = 0 then ⟨isNegative x, fraction, leastExponent⟩
  else ⟨isNegative x, fraction + powerOfTwo mantissaBits, leastExponent + (field - 1)⟩

/-- A fraction with the value of a number, its sign aside. -/
def Dyadic.numerator (value : Dyadic) : Nat := value.mantissa * powerOfTwo value.exponent.toNat

def Dyadic.denominator (value : Dyadic) : Nat := powerOfTwo (-value.exponent).toNat

/-- The whole number nearest to a quotient; a half goes to the even neighbour. -/
def roundedQuotient (numerator denominator : Nat) : Nat :=
  let whole := numerator / denominator
  let twice := 2 * (numerator % denominator)
  if twice < denominator then whole
  else if denominator < twice then whole + 1
  else whole + whole % 2

/-- The greatest power of two that does not exceed a positive quotient, as an exponent. -/
def binaryMagnitude (numerator denominator : Nat) : Int :=
  let estimate : Int := (numerator.log2 : Int) - denominator.log2
  let isReached :=
    denominator * powerOfTwo estimate.toNat ≤ numerator * powerOfTwo (-estimate).toNat
  if isReached then estimate else estimate - 1

/-- The bits of the float nearest to a quotient; what is too large is infinite. -/
def nearestBits (numerator denominator : Nat) : Nat :=
  if numerator = 0 then 0
  else
    let exponent := max (binaryMagnitude numerator denominator - mantissaBits) leastExponent
    let mantissa :=
      roundedQuotient (numerator * powerOfTwo (-exponent).toNat)
        (denominator * powerOfTwo exponent.toNat)
    min infinityBits (mantissa + (exponent - leastExponent).toNat * powerOfTwo mantissaBits)

def ofMagnitude (negative : Bool) (magnitude : Nat) : Float :=
  Float.ofBits (UInt64.ofNat (if negative then signBit + magnitude else magnitude))

/-- The float nearest to a signed quotient. -/
def nearest (negative : Bool) (numerator denominator : Nat) : Float :=
  ofMagnitude negative (nearestBits numerator denominator)

def infinity (negative : Bool) : Float := ofMagnitude negative infinityBits

def notANumber : Float := ofMagnitude false (infinityBits + powerOfTwo 51)

/-- The float nearest to a whole number, unless that is out of range. -/
def ofInt? (value : Int) : Option Float :=
  let x := nearest (value < 0) value.natAbs 1
  if isFinite x then some x else none

/-- The whole number that a finite float with no fractional part equals. -/
def wholeValue? (x : Float) : Option Int :=
  let value := dyadic x
  if isFinite x && value.numerator % value.denominator = 0 then
    let magnitude : Int := value.numerator / value.denominator
    some (if value.negative then -magnitude else magnitude)
  else none

/-- Exact order of a whole number and a finite float. -/
def compareWhole (left : Int) (right : Dyadic) : Ordering :=
  let scaled : Int := right.numerator
  compare (left * right.denominator) (if right.negative then -scaled else scaled)

/-- The remainder of two finite floats, with the sign of the first. It needs no rounding. -/
def remainder (left right : Float) : Float :=
  let dividend := dyadic left
  let divisor := dyadic right
  let exponent := min dividend.exponent divisor.exponent
  let rest :=
    (dividend.mantissa * powerOfTwo (dividend.exponent - exponent).toNat) %
      (divisor.mantissa * powerOfTwo (divisor.exponent - exponent).toNat)
  nearest dividend.negative (rest * powerOfTwo exponent.toNat) (powerOfTwo (-exponent).toNat)

end PageLoom.Number
