import PageLoom.Table
import PageLoom.Text.Basic

/-!
# Props

The named values that a component is invoked with: plain texts, as every attribute is, or lists of
texts. Props keep the order in which their names were first given. Callers may give other values
too, which become the texts that they are written as.
-/

namespace PageLoom

inductive PropValue where
  | scalar (text : Text)
  | list (values : List Text)
deriving Repr, DecidableEq

namespace PropValue

def asText : PropValue → Text
  | scalar text => text
  | list values => Text.joinWith [','] values

/-- The elements that a loop runs over. Commas always separate; there is no escape for them. -/
def items : PropValue → List Text
  | scalar [] => []
  | scalar (c :: text) => Text.splitOn ',' (c :: text)
  | list values => values

end PropValue

/-- A value that is neither a prop value nor a list: one of some kinds, or anything else, which is
known by its text. -/
inductive RawValue where
  | text (value : Text)
  | integer (value : Int)
  | boolean (value : Bool)
  | absent
  | other (written : Text)
deriving Repr, DecidableEq

/-- How a value is written as a text. -/
def RawValue.asText : RawValue → Text
  | text value => value
  | integer value => Text.ofInt value
  | boolean value => if value then "True".toList else "False".toList
  | absent => "None".toList
  | other written => written

/-- What callers give as the value of a prop. -/
inductive GivenValue where
  | prop (value : PropValue)
  | single (value : RawValue)
  | several (values : List RawValue)
deriving Repr, DecidableEq

/-- The prop value that a given value becomes; what is one already stays what it is. -/
def GivenValue.coerce : GivenValue → PropValue
  | prop value => value
  | single value => .scalar value.asText
  | several values => .list (values.map RawValue.asText)

abbrev Props := List (Text × PropValue)

namespace Props

def get? (props : Props) (name : Text) : Option PropValue := props.lookup name

/-- The props that given names and values become, if any are given. -/
def coerce (given? : Option (List (RawValue × GivenValue))) : Props :=
  Table.ofEntries ((given?.getD []).map fun (name, value) => (name.asText, value.coerce))

end Props

end PageLoom
