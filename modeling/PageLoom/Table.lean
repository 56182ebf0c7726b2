/-!
# Tables

Lists of pairs in which a new value takes the place of the old one and a new key goes to the end.
-/

namespace PageLoom.Table

variable {κ υ : Type} [DecidableEq κ]

/-- Gives a key a value; a key that is there already keeps its place. -/
def put (entries : List (κ × υ)) (key : κ) (value : υ) : List (κ × υ) :=
  match entries with
  | [] => [(key, value)]
  | (other, old) :: rest =>
    if other = key then (key, value) :: rest else (other, old) :: put rest key value

/-- The table that comes of putting some entries, one after the other. -/
def ofEntries (entries : List (κ × υ)) : List (κ × υ) :=
  entries.foldl (fun table entry => put table entry.1 entry.2) []

end PageLoom.Table
