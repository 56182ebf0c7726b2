import PageLoom.Number.Basic
import PageLoom.Text.Quoted
import PageLoom.Text.Lower

/-!
# Values of conditions

What an expression in a condition evaluates to, the kinds that strict comparison tells apart, and
how a value is shown in an error message.
-/

namespace PageLoom.Condition

inductive Value where
  | null
  | bool (value : Bool)
  | number (value : Number)
  | text (value : Text)

inductive Kind where
  | null
  | bool
  | number
  | text
deriving Repr, DecidableEq

namespace Value

def kind : Value → Kind
  | null => .null
  | bool _ => .bool
  | number _ => .number
  | text _ => .text

def shown : Value → Text
  | null => "None".toList
  | bool true => "True".toList
  | bool false => "False".toList
  | number (.whole value) => Text.ofInt value
  | number (.float value) => Number.writeFloat value
  | text value => Text.quoted value

/-- The text that a value contributes to a sum with a text. -/
def asText : Value → Except NumberFault Text
  | null => .ok "null".toList
  | bool true => .ok "true".toList
  | bool false => .ok "false".toList
  | number (.whole value) =>
    match Number.writeWhole? value with
    | some digits => .ok digits
    | none => .error .tooManyDigits
  | number (.float value) =>
    match Number.wholeValue? value with
    | some whole => .ok (Text.ofInt whole)
    | none => .ok (Number.writeFloat value)
  | text value => .ok value

/-- Whether a value counts as true. The word `false` in any letter case does not. -/
def isTruthy : Value → Except NumberFault Bool
  | null => .ok false
  | bool value => .ok value
  | number value => value.isTruthy
  | text value => .ok (!value.isEmpty && Text.lower value != "false".toList)

end Value

end PageLoom.Condition
