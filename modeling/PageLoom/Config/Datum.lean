import PageLoom.Number.Shortest
import PageLoom.Table
import PageLoom.Text.Quoted

/-!
# Configuration data

The values that a configuration is given in, before they are checked: what a configuration file can
hold, and the explicit absence of a value. Messages about a value show it together with its type.
-/

namespace PageLoom.Config

inductive Datum where
  | null
  | bool (value : Bool)
  | integer (value : Int)
  | float (value : Float)
  | text (value : Text)
  | moment (source : Text)
  | array (values : List Datum)
  | table (entries : List (Text × Datum))
deriving Inhabited

abbrev Table := List (Text × Datum)

namespace Table

def get? (table : Table) (key : Text) : Option Datum := table.lookup key

def insert (table : Table) (key : Text) (value : Datum) : Table :=
  PageLoom.Table.put table key value

end Table

namespace Datum

/-- Puts parts between brackets, with commas between them. -/
def enclosed (opening closing : Char) (parts : List Text) : Text :=
  opening :: Text.joinWith ", ".toList parts ++ [closing]

mutual

def shown : Datum → Text
  | .null => "None".toList
  | .bool value => if value then "True".toList else "False".toList
  | .integer value => Text.ofInt value
  | .float value => Number.writeFloat value
  | .text value => Text.quoted value
  | .moment source => source
  | .array values => enclosed '[' ']' (shownItems values)
  | .table entries => enclosed '\x7b' '\x7d' (shownEntries entries)

def shownItems : List Datum → List Text
  | [] => []
  | value :: values => value.shown :: shownItems values

def shownEntries : List (Text × Datum) → List Text
  | [] => []
  | (key, value) :: entries =>
    (Text.quoted key ++ ": ".toList ++ value.shown) :: shownEntries entries

end

def typeName : Datum → Text
  | .null => "NoneType".toList
  | .bool _ => "bool".toList
  | .integer _ => "int".toList
  | .float _ => "float".toList
  | .text _ => "str".toList
  | .moment _ => "datetime".toList
  | .array _ => "list".toList
  | .table _ => "dict".toList

end Datum

end PageLoom.Config
