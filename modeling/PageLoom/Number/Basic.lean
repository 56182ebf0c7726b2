import PageLoom.Number.Rounding
import PageLoom.Number.Shortest
import PageLoom.Number.Numeral

/-!
# Numbers

Whole numbers without bound next to floats. Whole numbers stay whole under sums, differences and
products; everything else is computed on floats. A whole number and a float are compared exactly.
-/

namespace PageLoom

inductive Number where
  | whole (value : Int)
  | float (value : Float)

/-- Arithmetic that has no result even on well-formed numbers. -/
inductive NumberFault where
  | tooManyDigits
  | outOfRange
  | remainderOfInfinity
deriving Repr, DecidableEq

namespace Number

def toFloat : Number → Except NumberFault Float
  | whole value =>
    match ofInt? value with
    | some x => .ok x
    | none => .error .outOfRange
  | float x => .ok x

def isZero : Number → Bool
  | whole value => value == 0
  | float x => x == 0

/-- The order of two numbers; there is none if one of them is not a number. -/
def order? : Number → Number → Option Ordering
  | whole left, whole right => some (Ord.compare left right)
  | whole left, float right =>
    if right.isNaN then none
    else if isFinite right then some (compareWhole left (dyadic right))
    else some (if isNegative right then .gt else .lt)
  | float left, whole right =>
    if left.isNaN then none
    else if isFinite left then some (compareWhole right (dyadic left)).swap
    else some (if isNegative left then .lt else .gt)
  | float left, float right =>
    if left < right then some .lt
    else if left == right then some .eq
    else if right < left then some .gt
    else none

def equal (left right : Number) : Bool := order? left right == some .eq

def negate : Number → Number
  | whole value => whole (-value)
  | float x => float (-x)

def onFloats (operate : Float → Float → Float) (left right : Number) :
    Except NumberFault Number := do
  return float (operate (← left.toFloat) (← right.toFloat))

def add : Number → Number → Except NumberFault Number
  | whole left, whole right => .ok (whole (left + right))
  | left, right => onFloats (· + ·) left right

def subtract : Number → Number → Except NumberFault Number
  | whole left, whole right => .ok (whole (left - right))
  | left, right => onFloats (· - ·) left right

def multiply : Number → Number → Except NumberFault Number
  | whole left, whole right => .ok (whole (left * right))
  | left, right => onFloats (· * ·) left right

/-- The quotient by a number other than zero. That of two whole numbers is rounded once. -/
def divide : Number → Number → Except NumberFault Number
  | whole left, whole right =>
    let quotient := nearest (decide (left < 0) ^^ decide (right < 0)) left.natAbs right.natAbs
    if isFinite quotient then .ok (float quotient) else .error .outOfRange
  | left, right => onFloats (· / ·) left right

/-- The remainder by a number other than zero, with the sign of the dividend. -/
def modulo (left right : Number) : Except NumberFault Number := do
  let dividend ← left.toFloat
  let divisor ← right.toFloat
  if dividend.isNaN || divisor.isNaN then return float notANumber
  else if !isFinite dividend then throw .remainderOfInfinity
  else if !isFinite divisor then return float dividend
  else return float (remainder dividend divisor)

/-- Whether a number counts as true. A whole number beyond the floats cannot be tested. -/
def isTruthy : Number → Except NumberFault Bool
  | whole value => do
    if value = 0 then return false
    let _ ← (whole value).toFloat
    return true
  | float x => .ok (!(x == 0) && !x.isNaN)

end Number

end PageLoom
