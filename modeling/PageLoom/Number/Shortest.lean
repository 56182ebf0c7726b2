import PageLoom.Text.Basic
import PageLoom.Number.Rounding

/-!
# Shortest decimals

A float is written with the fewest significant digits that read back as the same float, and of
those the nearest ones. The candidates on a decimal grid are the two neighbours of the value; a
grid is fine enough when one of them lies among the reals that round to the float.
-/

namespace PageLoom.Number

/-- The value `digits · 10 ^ exponent`. -/
structure Decimal where
  digits : Nat
  exponent : Int
deriving Repr, DecidableEq

/-- The exponent of the greatest power of ten that does not exceed a positive quotient. -/
def decimalMagnitude (numerator denominator : Nat) : Int :=
  if denominator ≤ numerator then
    ((Nat.toDigits 10 (numerator / denominator)).length : Int) - 1
  else
    -((Nat.toDigits 10 ((denominator - 1) / numerator)).length : Int)

/-- The reals that round to a positive float, from `low` to `high` in units of `2 ^ exponent`;
the ends belong to them if `closed`. -/
structure RoundingInterval where
  low : Nat
  high : Nat
  exponent : Int
  closed : Bool

def roundingInterval (value : Dyadic) : RoundingInterval :=
  let closed := value.mantissa % 2 == 0
  if value.mantissa = powerOfTwo mantissaBits && leastExponent < value.exponent then
    ⟨4 * value.mantissa - 1, 4 * value.mantissa + 2, value.exponent - 2, closed⟩
  else
    ⟨4 * value.mantissa - 2, 4 * value.mantissa + 2, value.exponent - 2, closed⟩

/-- Compares `left · 10 ^ grid` with `right · 2 ^ exponent`. -/
def compareScaled (left : Nat) (grid : Int) (right : Nat) (exponent : Int) : Ordering :=
  compare (left * powerOfTen grid.toNat * powerOfTwo (-exponent).toNat)
    (right * powerOfTwo exponent.toNat * powerOfTen (-grid).toNat)

def RoundingInterval.holds (interval : RoundingInterval) (point : Nat) (grid : Int) : Bool :=
  let low := compareScaled point grid interval.low interval.exponent
  let high := compareScaled point grid interval.high interval.exponent
  if interval.closed then low != .lt && high != .gt else low == .gt && high == .lt

/-- The better of the two neighbours of a value on the grid of multiples of `10 ^ grid`, if one of
them reads back. -/
def onGrid? (value : Dyadic) (interval : RoundingInterval) (grid : Int) : Option Decimal :=
  let numerator := value.numerator * powerOfTen (-grid).toNat
  let denominator := value.denominator * powerOfTen grid.toNat
  let below := numerator / denominator
  let nearer := roundedQuotient numerator denominator
  let other := if nearer = below then below + 1 else below
  if interval.holds nearer grid then some ⟨nearer, grid⟩
  else if interval.holds other grid then some ⟨other, grid⟩
  else none

def shortestFrom (value : Dyadic) (interval : RoundingInterval) (magnitude : Int) :
    Nat → Nat → Decimal
  | 0, count =>
    let grid := magnitude - count
    ⟨roundedQuotient (value.numerator * powerOfTen (-grid).toNat)
      (value.denominator * powerOfTen grid.toNat),
      grid⟩
  | more + 1, count =>
    match onGrid? value interval (magnitude - count) with
    | some decimal => decimal
    | none => shortestFrom value interval magnitude more (count + 1)

def dropTrailingZeros : Nat → Decimal → Decimal
  | 0, decimal => decimal
  | steps + 1, decimal =>
    if decimal.digits % 10 = 0 && decimal.digits ≠ 0 then
      dropTrailingZeros steps ⟨decimal.digits / 10, decimal.exponent + 1⟩
    else decimal

/-- The shortest decimal of a positive finite value. -/
def shortest (value : Dyadic) : Decimal :=
  dropTrailingZeros 18 <|
    shortestFrom value (roundingInterval value)
      (decimalMagnitude value.numerator value.denominator) 17 0

/-- Where positional notation begins and ends, by the exponent of the first digit, and how many
digits the exponent has at least. -/
structure FloatStyle where
  leastPositional : Int
  leastScientific : Int
  exponentWidth : Nat

/-- Values from `0.0001` up to below `10 ^ 16` are positional; exponents have two digits. -/
def floatStyle : FloatStyle := ⟨-4, 16, 2⟩

def zeros (count : Nat) : Text := List.replicate count '0'

def writeExponent (style : FloatStyle) (exponent : Int) : Text :=
  let digits := Text.ofNat exponent.natAbs
  (if exponent < 0 then '-' else '+') :: zeros (style.exponentWidth - digits.length) ++ digits

def writeDecimal (style : FloatStyle) (decimal : Decimal) : Text :=
  let digits := Text.ofNat decimal.digits
  let first := decimal.exponent + digits.length - 1
  if style.leastPositional ≤ first && first < style.leastScientific then
    if first < 0 then '0' :: '.' :: zeros (-first - 1).toNat ++ digits
    else if digits.length ≤ first.toNat + 1 then
      digits ++ zeros (first.toNat + 1 - digits.length) ++ ['.', '0']
    else digits.take (first.toNat + 1) ++ '.' :: digits.drop (first.toNat + 1)
  else
    match digits with
    | [] => []
    | lead :: [] => lead :: 'e' :: writeExponent style first
    | lead :: rest => lead :: '.' :: rest ++ 'e' :: writeExponent style first

/-- The text of a float. -/
def writeFloat (x : Float) : Text :=
  if isFinite x then
    let value := dyadic x
    let magnitude :=
      if value.mantissa = 0 then ['0', '.', '0'] else writeDecimal floatStyle (shortest value)
    if value.negative then '-' :: magnitude else magnitude
  else if x.toBits.toNat % signBit = infinityBits then
    if isNegative x then "-inf".toList else "inf".toList
  else "nan".toList

end PageLoom.Number
