import Mathlib.Data.List.TakeWhile
import PageLoom.Proofs.Action
import PageLoom.Proofs.Disk.Entries

/-!
# Runs of disk actions

What each action does to a well-formed disk on which nothing is in its way. All of them come down to
setting entries in directories that are there, after the directories above were added.
-/

namespace PageLoom

/-- Neither the path to a location nor a name on it is too long. -/
structure Fits (location : Location) : Prop where
  path : pathSize location ≤ pathLimit
  names : ∀ name ∈ location, isOverlong name = false

theorem pathSize_concat (location : Location) (name : Text) :
    pathSize (location ++ [name]) = pathSize location + (Utf8.encode name).length + 1 := by
  simp [pathSize]

theorem Fits.of_concat {location : Location} {name : Text} (hfits : Fits (location ++ [name])) :
    Fits location where
  path := by
    have hpath := hfits.path
    rw [pathSize_concat] at hpath
    omega
  names other hmem := hfits.names other (List.mem_append_left _ hmem)

namespace Disk

variable {disk : Disk} {location place root : Location}

/-! ## Lineages -/

theorem lineage_concat (location : Location) (name : Text) :
    lineage (location ++ [name]) = lineage location ++ [location ++ [name]] := by
  induction location with
  | nil => rfl
  | cons first rest ih =>
      rw [List.cons_append, lineage, ih, lineage]
      simp

theorem mem_lineage : place ∈ lineage location ↔ place ≠ [] ∧ place <+: location := by
  induction location using List.reverseRecOn with
  | nil => simp +contextual [lineage]
  | append_singleton location name ih =>
      rw [lineage_concat, List.mem_append, ih, List.mem_singleton, List.prefix_concat_iff]
      constructor
      · rintro (⟨hplace, hprefixed⟩ | rfl)
        · exact ⟨hplace, .inr hprefixed⟩
        · exact ⟨by simp, .inl rfl⟩
      · rintro ⟨hplace, rfl | hprefixed⟩
        · exact .inr rfl
        · exact .inl ⟨hplace, hprefixed⟩

/-- No file stands at a location or above it. -/
def Clear (disk : Disk) (location : Location) : Prop :=
  ∀ place, place <+: location → disk.isFile place = false

theorem Clear.of_prefix (hclear : disk.Clear location) (hprefixed : place <+: location) :
    disk.Clear place := fun other hother => hclear other (hother.trans hprefixed)

theorem WellFormed.clear (hdisk : disk.WellFormed) (hdirectory : disk.isDirectory location = true) :
    disk.Clear location := by
  intro place hprefixed
  have hplace : disk.isDirectory place = true := by
    by_cases hsame : place = location
    · rwa [hsame]
    · exact hdisk.isDirectory_of_prefix (isDirectory_iff.mp hdirectory) hprefixed hsame
  rw [isFile, isDirectory_iff.mp hplace]

theorem not_blocked (hclear : disk.Clear location) : disk.blocked location = false := by
  rw [blocked, List.any_eq_false]
  intro place hmem
  rw [hclear place ((mem_lineage.mp hmem).2.trans (List.dropLast_prefix location))]
  exact Bool.false_ne_true

/-- If nothing blocks the way to a place where no file is, no file is above it. -/
theorem clear_of_not_blocked (hblocked : disk.blocked location = false)
    (hfree : disk.isFile location = false) : disk.Clear location := by
  intro above habove
  by_cases hroot : above = []
  · rw [hroot]
    rfl
  by_cases hsame : above = location
  · rwa [hsame]
  rw [blocked, List.any_eq_false] at hblocked
  obtain ⟨rest, rfl⟩ := habove
  have hrest : rest ≠ [] := by
    rintro rfl
    exact hsame (List.append_nil above).symm
  refine Bool.eq_false_iff.mpr (hblocked above (mem_lineage.mpr ⟨hroot, ?_⟩))
  rw [List.dropLast_append_of_ne_nil hrest]
  exact List.prefix_append ..

theorem addDirectories_concat (disk : Disk) (location : Location) (name : Text) :
    disk.addDirectories (location ++ [name]) =
      if (disk.addDirectories location).exists? (location ++ [name]) then
        disk.addDirectories location
      else (disk.addDirectories location).set (location ++ [name]) .directory := by
  rw [addDirectories, lineage_concat, List.foldl_append]
  rfl

/-- Adding directories makes a directory of every place above a location, and of itself. -/
theorem addDirectories_spec (hdisk : disk.WellFormed) (hclear : disk.Clear location) :
    (disk.addDirectories location).WellFormed ∧ ∀ place,
      Disk.entry? (disk.addDirectories location) place =
        if place <+: location then some .directory else disk.entry? place := by
  induction location using List.reverseRecOn with
  | nil =>
      refine ⟨hdisk, fun place => ?_⟩
      by_cases hplace : place = []
      · simp [hplace]
      · rw [if_neg (by simpa using hplace)]
        rfl
  | append_singleton location name ih =>
      obtain ⟨hwellFormed, hentry⟩ := ih (hclear.of_prefix (List.prefix_append ..))
      have hlast : Disk.entry? (disk.addDirectories location) (location ++ [name]) =
          disk.entry? (location ++ [name]) := by
        rw [hentry, if_neg]
        intro hprefixed
        have hlength := hprefixed.length_le
        rw [List.length_append] at hlength
        exact Nat.not_succ_le_self _ hlength
      have hparent : (disk.addDirectories location).isDirectory location = true := by
        rw [isDirectory_iff, hentry, if_pos (List.prefix_refl _)]
      rw [addDirectories_concat]
      cases hfound : disk.entry? (location ++ [name]) with
      | some entry =>
          have hdirectory : entry = .directory := by
            cases entry with
            | directory => rfl
            | file bytes =>
                have hfile := hclear (location ++ [name]) (List.prefix_refl _)
                rw [isFile, hfound] at hfile
                cases hfile
          rw [if_pos (by rw [exists?, hlast, hfound, Option.isSome_some])]
          refine ⟨hwellFormed, fun place => ?_⟩
          rw [hentry]
          by_cases hplace : place = location ++ [name]
          · rw [hplace, if_pos (List.prefix_refl _), hfound, hdirectory]
            simp
          · simp [List.prefix_concat_iff, hplace]
      | none =>
          rw [if_neg (by rw [exists?, hlast, hfound]; simp)]
          refine ⟨hwellFormed.set (by simp) (by rwa [List.dropLast_concat]) fun _ => rfl, ?_⟩
          intro place
          rw [entry?_set _ (by simp), hentry]
          by_cases hplace : place = location ++ [name]
          · simp [hplace]
          · simp [List.prefix_concat_iff, hplace]

theorem under_addDirectories (houtside : isWithin root location = false) :
    (disk.addDirectories location).under root = disk.under root := by
  induction location using List.reverseRecOn with
  | nil => rfl
  | append_singleton location name ih =>
      have hparent : isWithin root location = false :=
        not_isWithin_of_above houtside (List.prefix_append ..)
      rw [addDirectories_concat]
      split
      · exact ih hparent
      · rw [under_set houtside, ih hparent]

/-- Where all directories are there, none is added. -/
theorem addDirectories_of_isDirectory (hdisk : disk.WellFormed)
    (hdirectory : disk.isDirectory location = true) : disk.addDirectories location = disk := by
  have hfold : ∀ places : List Location, (∀ place ∈ places, disk.exists? place = true) →
      places.foldl (fun disk directory =>
        if disk.exists? directory then disk else disk.set directory .directory) disk = disk := by
    intro places hplaces
    induction places with
    | nil => rfl
    | cons place rest ih =>
        rw [List.foldl_cons, if_pos (hplaces place (List.mem_cons_self ..))]
        exact ih fun other hmem => hplaces other (List.mem_cons_of_mem _ hmem)
  apply hfold
  intro place hmem
  by_cases hsame : place = location
  · rw [hsame]
    exact exists?_of_isDirectory hdirectory
  · exact exists?_of_isDirectory (hdisk.isDirectory_of_prefix (isDirectory_iff.mp hdirectory)
      (mem_lineage.mp hmem).2 hsame)

/-! ## Putting a file -/

theorem obstacle?_of_isDirectory (hfits : Fits location) (hprefixed : place <+: location)
    (hdirectory : disk.isDirectory place = true) : disk.obstacle? place = none := by
  have hname : isOverlong (place.getLast?.getD []) = false := by
    cases hlast : place.getLast? with
    | none => rfl
    | some name =>
        exact hfits.names name (hprefixed.subset (List.mem_of_getLast? hlast))
  rw [obstacle?, hname, isDirectory_iff.mp hdirectory]
  rfl

/-- What is missing in a directory that is there is only not found. -/
theorem absence_eq_notFound (hdisk : disk.WellFormed) (hfits : Fits location)
    (hlocation : location ≠ []) (hparent : disk.isDirectory location.dropLast = true)
    (habsent : disk.entry? location = none) : disk.absence location = .notFound := by
  obtain ⟨parent, name, rfl⟩ : ∃ parent name, location = parent ++ [name] :=
    ⟨location.dropLast, location.getLast hlocation, (List.dropLast_append_getLast hlocation).symm⟩
  rw [List.dropLast_concat] at hparent
  have habove : (lineage parent).findSome? disk.obstacle? = none := by
    rw [List.findSome?_eq_none_iff]
    intro place hmem
    obtain ⟨-, hprefixed⟩ := mem_lineage.mp hmem
    refine obstacle?_of_isDirectory hfits (hprefixed.trans (List.prefix_append ..)) ?_
    by_cases hsame : place = parent
    · rwa [hsame]
    · exact hdisk.isDirectory_of_prefix (isDirectory_iff.mp hparent) hprefixed hsame
  have hlast : disk.obstacle? (parent ++ [name]) = some .notFound := by
    have hname := hfits.names name (by simp)
    simp [obstacle?, hname, habsent]
  rw [absence, if_neg (Nat.not_lt.mpr hfits.path), lineage_concat, List.findSome?_append, habove]
  simp [hlast]

theorem place_eq_set (hdisk : disk.WellFormed) (hfits : Fits location) (hlocation : location ≠ [])
    (hparent : disk.isDirectory location.dropLast = true)
    (hfree : disk.isDirectory location = false) (bytes : Bytes) :
    disk.place location bytes = .ok (disk.set location (.file bytes)) := by
  unfold place
  cases hfound : disk.entry? location with
  | none => simp only [absence_eq_notFound hdisk hfits hlocation hparent hfound]
  | some entry =>
      cases entry with
      | file old => rfl
      | directory =>
          rw [isDirectory_iff.mpr hfound] at hfree
          cases hfree

/-- Something is put only where a file or nothing is. -/
theorem eq_set_of_place {after : Disk} {bytes : Bytes}
    (hplace : disk.place location bytes = .ok after) :
    after = disk.set location (.file bytes) ∧ disk.isDirectory location = false := by
  unfold Disk.place at hplace
  split at hplace
  · cases hplace
  · rename_i old hold
    exact ⟨(Except.ok.inj hplace).symm, by rw [isDirectory, hold]; rfl⟩
  · rename_i hnone
    split at hplace
    · exact ⟨(Except.ok.inj hplace).symm, by rw [isDirectory, hnone]; rfl⟩
    · cases hplace

end Disk

namespace DiskAction

open Disk

variable {disk : Disk} {location source target : Location}

/-! ## Actions -/

theorem runFrom_makeDirectory (hdisk : disk.WellFormed) (hfits : Fits location)
    (hclear : disk.Clear location) :
    runFrom (makeDirectory location) disk = (.ok (), disk.addDirectories location) := by
  rw [makeDirectory, runFrom_bind, runFrom_get, andThen_ok]
  cases hfound : disk.entry? location with
  | some entry =>
      cases entry with
      | file bytes =>
          have hfile := hclear location (List.prefix_refl _)
          rw [isFile, hfound] at hfile
          cases hfile
      | directory =>
          rw [addDirectories_of_isDirectory hdisk (isDirectory_iff.mpr hfound)]
          rfl
  | none =>
      have husable : location.takeWhile (!isOverlong ·) = location := by
        rw [List.takeWhile_eq_self_iff]
        intro name hmem
        rw [hfits.names name hmem]
        rfl
      have hsize := Nat.not_lt.mpr hfits.path
      simp only [hsize, not_blocked hclear, husable, Nat.lt_irrefl, if_false, Bool.false_eq_true]
      rfl

theorem runFrom_makeParent (hparent : disk.isDirectory location.dropLast = true) :
    runFrom (makeParent location) disk = (.ok (), disk) := by
  rw [makeParent, runFrom_bind, runFrom_get, andThen_ok, exists?_of_isDirectory hparent]
  rfl

theorem runFrom_change {step : Disk → Except DiskError Disk} {after : Disk}
    (hstep : step disk = .ok after) : runFrom (change step) disk = (.ok (), after) := by
  rw [change, runFrom_bind, runFrom_get, andThen_ok, runFrom_bind, hstep, runFrom_lift, andThen_ok]
  rfl

theorem runFrom_change_eq_ok {step : Disk → Except DiskError Disk} {after : Disk} :
    runFrom (change step) disk = (.ok (), after) ↔ step disk = .ok after := by
  rw [change, runFrom_bind, runFrom_get, andThen_ok, runFrom_bind, runFrom_lift]
  cases step disk with
  | ok value =>
      rw [andThen_ok, runFrom_set]
      simp
  | error error => simp

theorem length_lockOf (hlocation : location ≠ []) :
    (lockOf location).length = location.length := by
  have hpositive := List.length_pos_of_ne_nil hlocation
  rw [lockOf, List.length_append, List.length_dropLast, List.length_singleton]
  omega

theorem lockOf_ne (hlocation : location ≠ []) (below : List Text) :
    location ++ below ≠ lockOf location := by
  intro hsame
  have hlength := congrArg List.length hsame
  rw [length_lockOf hlocation, List.length_append] at hlength
  have hbelow : below = [] := List.length_eq_zero_iff.mp (by omega)
  rw [hbelow, List.append_nil] at hsame
  nth_rewrite 1 [← List.dropLast_append_getLast hlocation] at hsame
  rw [lockOf, List.append_cancel_left_eq, List.getLast?_eq_getLast_of_ne_nil hlocation] at hsame
  simp at hsame

theorem not_lockOf_above (location : Location) : ¬lockOf location <+: location.dropLast := by
  intro hprefixed
  have hlength := hprefixed.length_le
  rw [lockOf, List.length_append] at hlength
  exact Nat.not_succ_le_self _ hlength

/-- Whoever has taken a lock finds it there. -/
theorem isFile_lockOf {after : Disk} (hrun : runFrom (takeLock location) disk = (.ok (), after)) :
    after.isFile (lockOf location) = true := by
  rw [takeLock] at hrun
  split at hrun
  · cases hrun
  · rw [runFrom_bind, andThen_eq_ok] at hrun
    obtain ⟨_, made, -, hput⟩ := hrun
    rw [(eq_set_of_place (runFrom_change_eq_ok.mp hput)).1, isFile,
      entry?_set _ (by simp [lockOf]), if_pos rfl]

/-- A lock is put next to a directory, once what it lies in is there. -/
theorem runFrom_takeLock (hdisk : disk.WellFormed) (hlocation : location ≠ [])
    (hfits : Fits (lockOf location)) (hclear : disk.Clear location.dropLast)
    (hfree : disk.isDirectory (lockOf location) = false) :
    runFrom (takeLock location) disk =
      (.ok (), (disk.addDirectories location.dropLast).set (lockOf location) (.file [])) := by
  have hdrop : (lockOf location).dropLast = location.dropLast := List.dropLast_concat
  have hparentFits : Fits location.dropLast := hfits.of_concat
  obtain ⟨hwellFormed, hentry⟩ := addDirectories_spec hdisk hclear
  have hfree' : (disk.addDirectories location.dropLast).isDirectory (lockOf location) = false := by
    rw [isDirectory, hentry, if_neg (not_lockOf_above location)]
    exact hfree
  rw [takeLock, if_neg (by simpa using hlocation), runFrom_bind, hdrop,
    runFrom_makeDirectory hdisk hparentFits hclear, andThen_ok]
  apply runFrom_change
  apply place_eq_set hwellFormed hfits (by simp [lockOf]) ?_ hfree'
  rw [hdrop, isDirectory_iff, hentry, if_pos (List.prefix_refl _)]

theorem runFrom_copyFile (hdisk : disk.WellFormed) (hfits : Fits target) (htarget : target ≠ [])
    (hparent : disk.isDirectory target.dropLast = true)
    (hfree : disk.isDirectory target = false) (hother : target ≠ source) {bytes : Bytes}
    (hsource : disk.entry? source = some (.file bytes)) :
    runFrom (copyFile source target) disk = (.ok (), disk.set target (.file bytes)) := by
  have hplace : copyTarget disk source target = target := by
    rw [copyTarget, hfree]
    rfl
  have hread : disk.read source = .ok bytes := read_eq_ok.mpr hsource
  rw [copyFile, runFrom_bind, runFrom_makeParent hparent, andThen_ok, runFrom_bind, runFrom_get,
    andThen_ok]
  simp only [hplace, hother, decide_false, Bool.false_and, hread, Bool.false_eq_true, if_false]
  rw [runFrom_bind, runFrom_lift]
  exact runFrom_change (place_eq_set hdisk hfits htarget hparent hfree bytes)

end DiskAction

end PageLoom
