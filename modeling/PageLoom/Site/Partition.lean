/-!
# Partitions

Work is dealt out in turn: the parts of a list are its members at every `count`-th place, beginning
at each of the first `count` places. Empty parts are left out.
-/

namespace PageLoom.Site

variable {α : Type}

/-- Every member of which the place is a multiple of `step` away from the first taken one, which
stands after `skip` others. -/
def everyNth (step : Nat) : Nat → List α → List α
  | _, [] => []
  | 0, x :: rest => x :: everyNth step (step - 1) rest
  | skip + 1, _ :: rest => everyNth step skip rest

def partition (items : List α) (count : Int) : List (List α) :=
  let parts := max 1 count.toNat
  ((List.range parts).map fun first => everyNth parts first items).filter (!·.isEmpty)

end PageLoom.Site
