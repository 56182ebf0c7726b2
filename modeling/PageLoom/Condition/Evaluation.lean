import PageLoom.Condition.Grammar

/-!
# Evaluation of conditions

The value of an expression tree. Sums with a text join texts; every other arithmetic and every
order between unlike values works on numbers, to which texts are read where they spell one. Trees
that are too deep have no value. A condition holds if its value counts as true, and does not hold if
it has none.
-/

namespace PageLoom.Condition

def arithmetic {α : Type} (result : Except NumberFault α) : Except Failure α :=
  result.mapError .fault

/-- The number that a value stands for. A text without a point and an exponent that spells a whole
number stands for that whole number. -/
def toNumber : Value → Except Failure Number
  | .null => .ok (.whole 0)
  | .bool value => .ok (.whole (if value then 1 else 0))
  | .number value => .ok value
  | .text value =>
    let spelled := Text.trim value
    if spelled.isEmpty then .ok (.whole 0)
    else
      match Number.readFloat? spelled with
      | none => .error (.refused (.notNumeric value))
      | some x =>
        if spelled.any fun c => c == '.' || c == 'e' || c == 'E' then .ok (.float x)
        else
          match Number.wholeValue? x with
          | some whole => .ok (.whole whole)
          | none => .ok (.float x)

/-- Equality of two values of one kind; values of different kinds are not identical. -/
def identical : Value → Value → Bool
  | .null, .null => true
  | .bool left, .bool right => left == right
  | .number left, .number right => left.equal right
  | .text left, .text right => left == right
  | _, _ => false

/-- Equality across kinds compares numbers. Null equals nothing but itself. -/
def looselyEqual (left right : Value) : Bool :=
  if left.kind = right.kind then identical left right
  else if left.kind = .null || right.kind = .null then false
  else
    match toNumber left, toNumber right with
    | .ok left, .ok right => left.equal right
    | _, _ => false

/-- The order of two texts, or of the numbers that two values stand for. -/
def orderOf (left right : Value) : Except Failure (Option Ordering) :=
  match left, right with
  | .text left, .text right => .ok (some (Text.compare left right))
  | left, right => do return (← toNumber left).order? (← toNumber right)

def ordered (accept : Ordering → Bool) (left right : Value) : Except Failure Value := do
  return .bool ((← orderOf left right).any accept)

def sum (left right : Value) : Except Failure Value :=
  if left.kind = .text || right.kind = .text then do
    let first ← arithmetic left.asText
    let second ← arithmetic right.asText
    return .text (first ++ second)
  else do return .number (← arithmetic ((← toNumber left).add (← toNumber right)))

def withDivisor (operate : Number → Number → Except NumberFault Number) (left right : Value) :
    Except Failure Value := do
  let dividend ← toNumber left
  let divisor ← toNumber right
  if divisor.isZero then throw (.refused .divisionByZero)
  return .number (← arithmetic (operate dividend divisor))

def applyBinary (op : BinaryOp) (left right : Value) : Except Failure Value :=
  match op with
  | .equal => .ok (.bool (looselyEqual left right))
  | .unequal => .ok (.bool !(looselyEqual left right))
  | .identical => .ok (.bool (identical left right))
  | .distinct => .ok (.bool !(identical left right))
  | .less => ordered (· == .lt) left right
  | .atMost => ordered (· != .gt) left right
  | .greater => ordered (· == .gt) left right
  | .atLeast => ordered (· != .lt) left right
  | .add => sum left right
  | .subtract => do
    return .number (← arithmetic ((← toNumber left).subtract (← toNumber right)))
  | .multiply => do
    return .number (← arithmetic ((← toNumber left).multiply (← toNumber right)))
  | .divide => withDivisor Number.divide left right
  | .modulo => withDivisor Number.modulo left right

def applyUnary (op : UnaryOp) (operand : Value) : Except Failure Value :=
  match op with
  | .not => do return .bool !(← arithmetic operand.isTruthy)
  | .minus => do return .number (← toNumber operand).negate
  | .plus => do return .number (← toNumber operand)

/-- The value of an expression, with room for so many operators inside each other. The right side of
a connective is evaluated only if needed. -/
def evaluateWithin : Nat → Expr → Except Failure Value
  | 0, _ => .error .tooDeep
  | _ + 1, .literal value => .ok value
  | _ + 1, .name name => .error (.refused (.unboundName name))
  | room + 1, .unary op operand => do applyUnary op (← evaluateWithin room operand)
  | room + 1, .binary op left right => do
    let first ← evaluateWithin room left
    let second ← evaluateWithin room right
    applyBinary op first second
  | room + 1, .logical op left right => do
    let first ← evaluateWithin room left
    let holds ← arithmetic first.isTruthy
    match op, holds with
    | .and, true | .or, false => evaluateWithin room right
    | .and, false | .or, true => return first

/-- The room for operators inside each other: chains are as deep as they are long. -/
def evaluationRoom : Nat := 980

def evaluate (expr : Expr) : Except Failure Value := evaluateWithin evaluationRoom expr

/-- Whether a condition holds among some props. -/
def holds (source : Text) (scope : Props) : Except NumberFault Bool :=
  let result := do
    let value ← evaluate (← parse source scope)
    arithmetic value.isTruthy
  match result with
  | .ok value => .ok value
  | .error (.refused _) => .ok false
  | .error .tooDeep => .ok false
  | .error (.fault fault) => .error fault

end PageLoom.Condition
