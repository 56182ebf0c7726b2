import PageLoom.Proofs.Disk.Footprint

/-!
# What disk actions leave alone

A file changes only if a step puts something at its place or removes it. Directories are made where
nothing is, so making them changes no file at all, wherever it is and whatever else is in the way.
-/

namespace PageLoom

namespace Disk

variable {disk : Disk} {location place : Location}

/-- The bytes of a file, if there is one. -/
def bytesAt? (place : Location) (disk : Disk) : Option Bytes :=
  match disk.entry? place with
  | some (.file bytes) => some bytes
  | _ => none

theorem bytesAt?_set_of_ne (hplace : location ≠ place) (entry : Entry) :
    bytesAt? place (disk.set location entry) = bytesAt? place disk := by
  by_cases hroot : place = []
  · rw [hroot]
    rfl
  · rw [bytesAt?, bytesAt?, entry?_of_ne hroot, entry?_of_ne hroot, set, Table.lookup_put,
      if_neg hplace.symm]

theorem bytesAt?_addDirectory (hfree : disk.exists? location = false) :
    bytesAt? place (disk.set location .directory) = bytesAt? place disk := by
  by_cases hsame : location = place
  · subst hsame
    have hlocation : location ≠ [] := by
      rintro rfl
      cases hfree
    have habsent : disk.entry? location = none := by
      rw [exists?] at hfree
      exact Option.not_isSome_iff_eq_none.mp (by rw [hfree]; exact Bool.false_ne_true)
    rw [bytesAt?, bytesAt?, entry?_set disk hlocation, if_pos rfl, habsent]
  · exact bytesAt?_set_of_ne hsame _

theorem bytesAt?_erase_of_ne (hplace : location ≠ place) (hlocation : location ≠ []) :
    bytesAt? place (disk.erase location) = bytesAt? place disk := by
  rw [bytesAt?, bytesAt?, entry?_erase disk hlocation, if_neg hplace.symm]

/-- Everything but what puts or removes a file at a place. -/
def Footprint.sparing (place : Location) : Footprint where
  makes _ := True
  puts location := location ≠ place
  removes location := location ≠ place

/-- What happens in a directory leaves alone a place that is not in it. -/
theorem Footprint.admits_sparing (hplace : isWithin location place = false) :
    (sparing place).Admits location := by
  refine ⟨fun _ _ => trivial, fun below hbelow => ?_⟩
  rintro rfl
  rw [isWithin_iff.mpr hbelow] at hplace
  cases hplace

/-- A file that is neither put nor removed stays what it is. -/
theorem spares_bytesAt? (place : Location) (bytes : Option Bytes) :
    Spares (Footprint.sparing place) fun disk => bytesAt? place disk = bytes := by
  constructor
  rintro before after hstep rfl
  cases hstep with
  | makes hmakes hfree => exact bytesAt?_addDirectory hfree
  | puts hputs hroom => exact bytesAt?_set_of_ne hputs _
  | removes hremoves hfile => exact bytesAt?_erase_of_ne hremoves (ne_nil_of_isFile hfile)

theorem bytesAt?_addDirectories (disk : Disk) (location place : Location) :
    bytesAt? place (disk.addDirectories location) = bytesAt? place disk :=
  (spares_bytesAt? place _).addDirectories (fun _ _ => trivial) rfl

end Disk

end PageLoom
