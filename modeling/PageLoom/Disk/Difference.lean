import PageLoom.Disk.Basic

/-!
# Differences between disks

What became of every location from one disk to another. A location with the same entry on both is
not mentioned; what is on the later disk comes first, in its order there.
-/

namespace PageLoom

/-- What became of a location. -/
inductive Difference where
  | gone
  | new (entry : Entry)
  | altered (entry : Entry)
deriving Repr, DecidableEq

namespace Disk

def difference? (before : Disk) (location : Location) (entry : Entry) : Option Difference :=
  match before.entry? location with
  | none => some (.new entry)
  | some old => if old = entry then none else some (.altered entry)

def differences (before after : Disk) : List (Location × Difference) :=
  (after.entries.filterMap fun (location, entry) =>
    (before.difference? location entry).map fun difference => (location, difference)) ++
  (before.entries.filter fun entry => !after.exists? entry.1).map fun entry => (entry.1, .gone)

end Disk

end PageLoom
