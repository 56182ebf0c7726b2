import PageLoom.Proofs.Disk.Actions
import PageLoom.Proofs.Disk.Frame

/-!
# Putting one file

A file can be put at a place if no directory stands there and no file above it. The directories
above it are added first, so that nothing but the place itself and those directories is different
afterwards. If the place is too long for the disk, some of the directories are added all the same.
-/

namespace PageLoom

namespace Disk

variable {disk : Disk} {root target place : Location} {bytes : Bytes}

theorem bytesAt?_eq_some :
    bytesAt? place disk = some bytes ↔ disk.entry? place = some (.file bytes) := by
  rw [bytesAt?]
  cases disk.entry? place with
  | none => simp
  | some entry => cases entry <;> simp

theorem isSome_bytesAt? (place : Location) (disk : Disk) :
    (bytesAt? place disk).isSome = disk.isFile place := by
  rw [bytesAt?, isFile]
  cases disk.entry? place with
  | none => rfl
  | some entry => cases entry <;> rfl

/-- Nothing stands in the way of a file at a place. -/
structure Receives (disk : Disk) (target : Location) : Prop where
  named : target ≠ []
  clear : disk.Clear target.dropLast
  free : disk.isDirectory target = false

/-- The disk with a file at a place and with all directories above it. -/
def withFile (disk : Disk) (target : Location) (bytes : Bytes) : Disk :=
  (disk.addDirectories target.dropLast).set target (.file bytes)

theorem not_prefix_dropLast (htarget : target ≠ []) : ¬target <+: target.dropLast := by
  intro hprefixed
  have hlength := hprefixed.length_le
  have hpositive := List.length_pos_of_ne_nil htarget
  rw [List.length_dropLast] at hlength
  omega

/-- What is above a place below a root lies in that root. -/
theorem WellFormed.isDirectory_above (hdisk : disk.WellFormed) {entry : Entry}
    {above below : List Text} (hfound : disk.entry? (root ++ below) = some entry)
    (hbelow : below ≠ []) (habove : above <+: below.dropLast) :
    disk.isDirectory (root ++ above) = true := by
  apply hdisk.isDirectory_of_prefix hfound
  · exact (List.prefix_append_right_inj _).mpr (habove.trans (List.dropLast_prefix below))
  · intro hsame
    rw [List.append_cancel_left hsame] at habove
    exact not_prefix_dropLast hbelow habove

/-- A place below a root can receive a file if neither the root nor what is between is in the
way. -/
theorem receives_append {below : List Text} (hbelow : below ≠ []) (hclear : disk.Clear root)
    (hbetween : ∀ above, above <+: below.dropLast → disk.isFile (root ++ above) = false)
    (hfree : disk.isDirectory (root ++ below) = false) : disk.Receives (root ++ below) := by
  refine ⟨by simp [hbelow], ?_, hfree⟩
  intro place hplace
  rw [List.dropLast_append_of_ne_nil hbelow] at hplace
  rcases List.prefix_or_prefix_of_prefix hplace (List.prefix_append root _) with
    hroot | ⟨above, rfl⟩
  · exact hclear place hroot
  · exact hbetween above ((List.prefix_append_right_inj _).mp hplace)

theorem entry?_withFile (hdisk : disk.WellFormed) (hreceives : disk.Receives target)
    (bytes : Bytes) (place : Location) :
    Disk.entry? (disk.withFile target bytes) place =
      if place = target then some (.file bytes)
      else if place <+: target.dropLast then some .directory else disk.entry? place := by
  obtain ⟨-, hentry⟩ := addDirectories_spec hdisk hreceives.clear
  rw [withFile, entry?_set _ hreceives.named, hentry]

theorem bytesAt?_withFile (hreceives : disk.Receives target) (bytes : Bytes) :
    bytesAt? place (disk.withFile target bytes) =
      if place = target then some bytes else bytesAt? place disk := by
  by_cases hplace : place = target
  · rw [if_pos hplace, bytesAt?, hplace, withFile, entry?_set _ hreceives.named, if_pos rfl]
  · rw [if_neg hplace, withFile, bytesAt?_set_of_ne (Ne.symm hplace), bytesAt?_addDirectories]

/-- With the directories above a place, nothing is in the way there still. -/
theorem addDirectories_receives (hdisk : disk.WellFormed) (hreceives : disk.Receives target) :
    (disk.addDirectories target.dropLast).WellFormed ∧
      (disk.addDirectories target.dropLast).isDirectory target.dropLast = true ∧
      (disk.addDirectories target.dropLast).isDirectory target = false := by
  obtain ⟨hwellFormed, hentry⟩ := addDirectories_spec hdisk hreceives.clear
  refine ⟨hwellFormed, ?_, ?_⟩
  · rw [isDirectory_iff, hentry, if_pos (List.prefix_refl _)]
  · rw [isDirectory, hentry, if_neg (not_prefix_dropLast hreceives.named), ← isDirectory,
      hreceives.free]

theorem wellFormed_withFile (hdisk : disk.WellFormed) (hreceives : disk.Receives target)
    (bytes : Bytes) : (disk.withFile target bytes).WellFormed := by
  obtain ⟨hadded, hparent, hfree⟩ := addDirectories_receives hdisk hreceives
  apply hadded.set hreceives.named hparent
  rw [hfree]
  exact fun hdirectory => absurd hdirectory Bool.false_ne_true

/-- One disk is another but for the file at a place and for directories above it. -/
structure Replaces (before after : Disk) (target : Location) (found? : Option Bytes) : Prop where
  wellFormed : after.WellFormed
  bytes : ∀ place, bytesAt? place after = if place = target then found? else bytesAt? place before
  directories : ∀ place, before.isDirectory place = true → after.isDirectory place = true
  added : ∀ place, after.isDirectory place = true →
    before.isDirectory place = true ∨ place <+: target.dropLast

theorem replaces_withFile (hdisk : disk.WellFormed) (hreceives : disk.Receives target)
    (bytes : Bytes) : disk.Replaces (disk.withFile target bytes) target (some bytes) := by
  refine ⟨wellFormed_withFile hdisk hreceives bytes,
    fun place => bytesAt?_withFile hreceives bytes, ?_, ?_⟩
  · intro place hdirectory
    have hother : place ≠ target := by
      rintro rfl
      rw [hreceives.free] at hdirectory
      cases hdirectory
    rw [isDirectory_iff, entry?_withFile hdisk hreceives, if_neg hother,
      isDirectory_iff.mp hdirectory, ite_self]
  · intro place hdirectory
    have hother : place ≠ target := by
      rintro rfl
      rw [isDirectory_iff, entry?_withFile hdisk hreceives, if_pos rfl] at hdirectory
      cases hdirectory
    rw [isDirectory_iff, entry?_withFile hdisk hreceives, if_neg hother] at hdirectory
    by_cases habove : place <+: target.dropLast
    · exact .inr habove
    · rw [if_neg habove] at hdirectory
      exact .inl (isDirectory_iff.mpr hdirectory)

theorem replaces_addDirectories (hdisk : disk.WellFormed) (hclear : disk.Clear target.dropLast)
    {above : Location} (habove : above <+: target.dropLast) :
    disk.Replaces (disk.addDirectories above) target (bytesAt? target disk) := by
  obtain ⟨hwellFormed, hentry⟩ := addDirectories_spec hdisk (hclear.of_prefix habove)
  refine ⟨hwellFormed, fun place => ?_, ?_, ?_⟩
  · rw [bytesAt?_addDirectories]
    by_cases hplace : place = target
    · rw [if_pos hplace, hplace]
    · rw [if_neg hplace]
  · intro place hdirectory
    rw [isDirectory_iff, hentry, isDirectory_iff.mp hdirectory, ite_self]
  · intro place hdirectory
    by_cases hplace : place <+: above
    · exact .inr (hplace.trans habove)
    · rw [isDirectory_iff, hentry, if_neg hplace] at hdirectory
      exact .inl (isDirectory_iff.mpr hdirectory)

theorem replaces_erase (hdisk : disk.WellFormed) (hfile : disk.isFile target = true) :
    disk.Replaces (disk.erase target) target none := by
  have hentry := disk.entry?_erase (ne_nil_of_isFile hfile)
  refine ⟨hdisk.erase hfile, fun place => ?_, ?_, ?_⟩
  · rw [bytesAt?, hentry]
    by_cases hplace : place = target
    · rw [if_pos hplace, if_pos hplace]
    · rw [if_neg hplace, if_neg hplace]
      rfl
  · intro place hdirectory
    have hother : place ≠ target := by
      rintro rfl
      rw [isFile, isDirectory_iff.mp hdirectory] at hfile
      cases hfile
    rw [isDirectory_iff, hentry, if_neg hother, isDirectory_iff.mp hdirectory]
  · intro place hdirectory
    rw [isDirectory_iff, hentry] at hdirectory
    split_ifs at hdirectory with hplace
    exact .inl (isDirectory_iff.mpr hdirectory)

/-- On the way to a directory that is there, only a name that is too long is an obstacle. -/
theorem findSome?_obstacle? (hdisk : disk.WellFormed) (hdirectory : disk.isDirectory place = true) :
    (lineage place).findSome? disk.obstacle? =
      if place.any isOverlong then some .nameTooLong else none := by
  induction place using List.reverseRecOn with
  | nil => rfl
  | append_singleton parent name ih =>
      have hentry := isDirectory_iff.mp hdirectory
      have hparent := hdisk.isDirectory_dropLast hentry
      rw [List.dropLast_concat] at hparent
      rw [lineage_concat, List.findSome?_append, ih hparent, List.any_append]
      cases hoverlong : isOverlong name <;> cases parent.any isOverlong <;>
        simp [obstacle?, hoverlong, hentry]

/-- A place that is too long is not merely absent from a directory that is there. -/
theorem absence_eq_nameTooLong (hdisk : disk.WellFormed) (hoverlong : ¬Fits target)
    (htarget : target ≠ []) (hparent : disk.isDirectory target.dropLast = true)
    (habsent : disk.entry? target = none) : disk.absence target = .nameTooLong := by
  obtain ⟨parent, name, rfl⟩ : ∃ parent name, target = parent ++ [name] :=
    ⟨target.dropLast, target.getLast htarget, (List.dropLast_append_getLast htarget).symm⟩
  rw [List.dropLast_concat] at hparent
  by_cases hsize : pathLimit < pathSize (parent ++ [name])
  · rw [absence, if_pos hsize]
  have hname : (parent ++ [name]).any isOverlong = true := by
    by_contra hshort
    refine hoverlong ⟨Nat.not_lt.mp hsize, fun other hmem => ?_⟩
    exact Bool.eq_false_iff.mpr fun hlong => hshort (List.any_eq_true.mpr ⟨other, hmem, hlong⟩)
  rw [List.any_append, Bool.or_eq_true] at hname
  rw [absence, if_neg hsize, lineage_concat, List.findSome?_append,
    findSome?_obstacle? hdisk hparent]
  cases hlong : parent.any isOverlong with
  | true => rfl
  | false =>
      have hlast : isOverlong name = true := by simpa [hlong] using hname
      simp [obstacle?, hlast]

/-- What goes to a place can be staged: the name of its staging file is not too long, or that file
is there already. -/
def Stages (disk : Disk) (target : Location) : Prop :=
  Fits (DiskAction.stagingOf target) ∨ disk.exists? (DiskAction.stagingOf target) = true

theorem not_stages : ¬disk.Stages target ↔
    disk.entry? (DiskAction.stagingOf target) = none ∧ ¬Fits (DiskAction.stagingOf target) := by
  rw [Stages, not_or, exists?, Bool.not_eq_true, Option.isSome_eq_false_iff,
    Option.isNone_iff_eq_none, and_comm]

/-- A file that takes the place of a file leaves all places as much there as they were. -/
theorem exists?_set_of_isFile (hfile : disk.isFile target = true) (place : Location) :
    (disk.set target (.file bytes)).exists? place = disk.exists? place := by
  rw [exists?, exists?, entry?_set _ (ne_nil_of_isFile hfile)]
  split_ifs with hplace
  · obtain ⟨old, hold⟩ := isFile_iff.mp hfile
    rw [hplace, hold]
    rfl
  · rfl

/-- A staging file that can be made is looked for without an error. -/
theorem Stages.find (hdisk : disk.WellFormed) (hstages : disk.Stages target)
    (hparent : disk.isDirectory target.dropLast = true) :
    ∃ found?, disk.find (DiskAction.stagingOf target) = .ok found? := by
  have hdrop : (DiskAction.stagingOf target).dropLast = target.dropLast := List.dropLast_concat
  rw [Disk.find]
  cases hentry : disk.entry? (DiskAction.stagingOf target) with
  | some entry => exact ⟨some entry, rfl⟩
  | none =>
      have hfits : Fits (DiskAction.stagingOf target) := by
        rcases hstages with hfits | hexists
        · exact hfits
        · rw [exists?, hentry] at hexists
          cases hexists
      have habsence := absence_eq_notFound hdisk hfits (by simp [DiskAction.stagingOf])
        (by rwa [hdrop]) hentry
      exact ⟨none, by rw [habsence, if_neg (by decide)]⟩

/-- A file is not above a place that can receive one. -/
theorem Receives.not_prefix (hreceives : disk.Receives target)
    (hfile : disk.entry? place = some (.file bytes)) : ¬place <+: target.dropLast := by
  intro hprefixed
  have hclear := hreceives.clear place hprefixed
  rw [isFile, hfile] at hclear
  cases hclear

end Disk

theorem Fits.dropLast {location : Location} (hfits : Fits location) (hlocation : location ≠ []) :
    Fits location.dropLast := by
  rw [← List.dropLast_append_getLast hlocation] at hfits
  exact hfits.of_concat

namespace DiskAction

open Disk

variable {disk : Disk} {source target : Location} {bytes : Bytes}

theorem runFrom_makeParent_of_exists (hdisk : disk.WellFormed) (hreceives : disk.Receives target)
    (hexists : disk.exists? target.dropLast = true) :
    runFrom (makeParent target) disk = (.ok (), disk.addDirectories target.dropLast) := by
  obtain ⟨entry, hentry⟩ := Option.isSome_iff_exists.mp hexists
  have hdirectory : disk.isDirectory target.dropLast = true := by
    cases entry with
    | directory => exact isDirectory_iff.mpr hentry
    | file bytes => exact absurd (List.prefix_refl _) (hreceives.not_prefix hentry)
  rw [runFrom_makeParent hdirectory, addDirectories_of_isDirectory hdisk hdirectory]

/-- The directory that a place lies in is there already, or is made with all above it. -/
theorem runFrom_makeParent_receives (hdisk : disk.WellFormed) (hreceives : disk.Receives target)
    (hfits : Fits target) :
    runFrom (makeParent target) disk = (.ok (), disk.addDirectories target.dropLast) := by
  cases hexists : disk.exists? target.dropLast with
  | true => exact runFrom_makeParent_of_exists hdisk hreceives hexists
  | false =>
      rw [makeParent, runFrom_bind, runFrom_get, andThen_ok, hexists]
      exact runFrom_makeDirectory hdisk (hfits.dropLast hreceives.named) hreceives.clear

/-- However long the place is, some of the directories above it are made. -/
theorem runFrom_makeParent_or (hdisk : disk.WellFormed) (hreceives : disk.Receives target) :
    runFrom (makeParent target) disk = (.ok (), disk.addDirectories target.dropLast) ∨
      ∃ above, above <+: target.dropLast ∧
        runFrom (makeParent target) disk = (.error .nameTooLong, disk.addDirectories above) := by
  cases hexists : disk.exists? target.dropLast with
  | true => exact .inl (runFrom_makeParent_of_exists hdisk hreceives hexists)
  | false =>
      have habsent : disk.entry? target.dropLast = none := by
        rwa [exists?, Option.isSome_eq_false_iff, Option.isNone_iff_eq_none] at hexists
      have husable := List.takeWhile_prefix (l := target.dropLast) (!isOverlong ·)
      rw [makeParent, runFrom_bind, runFrom_get, andThen_ok, hexists]
      simp only [Bool.not_false, if_true]
      rw [makeDirectory, runFrom_bind, runFrom_get, andThen_ok, habsent]
      by_cases hsize : pathLimit < pathSize target.dropLast
      · simp only [hsize, if_true]
        exact .inr ⟨[], List.nil_prefix, rfl⟩
      simp only [hsize, not_blocked hreceives.clear, if_false, Bool.false_eq_true]
      by_cases hshort : (target.dropLast.takeWhile (!isOverlong ·)).length < target.dropLast.length
      · simp only [hshort, if_true]
        exact .inr ⟨_, husable, rfl⟩
      · have hlength := husable.length_le
        rw [husable.eq_of_length (by omega)]
        simp only [Nat.lt_irrefl, if_false]
        exact .inl rfl

/-- A copy of a file is put at a place, with the directories above it. -/
theorem runFrom_copyFile_receives (hdisk : disk.WellFormed) (hreceives : disk.Receives target)
    (hfits : Fits target) (hother : target ≠ source)
    (hsource : disk.entry? source = some (.file bytes)) :
    runFrom (copyFile source target) disk = (.ok (), disk.withFile target bytes) := by
  obtain ⟨hadded, hparent, hfree⟩ := addDirectories_receives hdisk hreceives
  obtain ⟨-, hentry⟩ := addDirectories_spec hdisk hreceives.clear
  have hkept : Disk.entry? (disk.addDirectories target.dropLast) source = some (.file bytes) := by
    rw [hentry, if_neg (hreceives.not_prefix hsource), hsource]
  have hcopy := runFrom_copyFile hadded hfits hreceives.named hparent hfree hother hkept
  rw [copyFile, runFrom_bind, runFrom_makeParent hparent, andThen_ok] at hcopy
  rw [copyFile, runFrom_bind, runFrom_makeParent_receives hdisk hreceives hfits, andThen_ok, hcopy]
  rfl

/-- A copy to a place that is too long leaves directories at most. -/
theorem runFrom_copyFile_overlong (hdisk : disk.WellFormed) (hreceives : disk.Receives target)
    (hoverlong : ¬Fits target) (habsent : disk.entry? target = none)
    (hsource : disk.entry? source = some (.file bytes)) :
    ∃ above, above <+: target.dropLast ∧ runFrom (copyFile source target) disk =
      (.error .nameTooLong, disk.addDirectories above) := by
  rcases runFrom_makeParent_or hdisk hreceives with hparent | ⟨above, habove, hparent⟩
  · obtain ⟨hadded, hdirectory, hfree⟩ := addDirectories_receives hdisk hreceives
    obtain ⟨-, hentry⟩ := addDirectories_spec hdisk hreceives.clear
    have hnone : Disk.entry? (disk.addDirectories target.dropLast) target = none := by
      rw [hentry, if_neg (not_prefix_dropLast hreceives.named), habsent]
    have hother : target ≠ source := by
      rintro rfl
      cases habsent.symm.trans hsource
    have hread : Disk.read (disk.addDirectories target.dropLast) source = .ok bytes := by
      rw [read_eq_ok, hentry, if_neg (hreceives.not_prefix hsource), hsource]
    have hplace : copyTarget (disk.addDirectories target.dropLast) source target = target := by
      rw [copyTarget, hfree]
      rfl
    have hput : Disk.place (disk.addDirectories target.dropLast) target bytes =
        .error .nameTooLong := by
      rw [place, hnone]
      dsimp only
      rw [absence_eq_nameTooLong hadded hoverlong hreceives.named hdirectory hnone]
    refine ⟨target.dropLast, List.prefix_refl _, ?_⟩
    rw [copyFile, runFrom_bind, hparent, andThen_ok, runFrom_bind, runFrom_get, andThen_ok]
    simp only [hplace, hother, decide_false, Bool.false_and, hread, Bool.false_eq_true, if_false]
    rw [runFrom_bind, runFrom_lift, andThen_ok, change, runFrom_bind, runFrom_get, andThen_ok,
      runFrom_bind, hput]
    rfl
  · refine ⟨above, habove, ?_⟩
    rw [copyFile, runFrom_bind, hparent, andThen_error]

/-- A text that can be staged takes the place of a file. -/
theorem runFrom_writeText (hdisk : disk.WellFormed) (hfile : disk.isFile target = true)
    (hstages : disk.Stages target) (text : Text) :
    runFrom (writeText target text) disk =
      (.ok (), disk.set target (.file (Utf8.encode text))) := by
  obtain ⟨old, hentry⟩ := isFile_iff.mp hfile
  have hput : disk.place target (Utf8.encode text) =
      .ok (disk.set target (.file (Utf8.encode text))) := by
    rw [place, hentry]
  obtain ⟨found?, hfound⟩ := hstages.find hdisk (hdisk.isDirectory_dropLast hentry)
  rw [writeText, runFrom_bind, runFrom_makeParent (hdisk.isDirectory_dropLast hentry), andThen_ok,
    runFrom_bind, look, runFrom_bind, runFrom_get, andThen_ok, runFrom_lift, hfound, andThen_ok]
  exact runFrom_change hput

/-- A text that cannot be staged leaves all as it is. -/
theorem runFrom_writeText_unstaged (hdisk : disk.WellFormed) (hfile : disk.isFile target = true)
    (hstages : ¬disk.Stages target) (text : Text) :
    runFrom (writeText target text) disk = (.error .nameTooLong, disk) := by
  obtain ⟨old, hentry⟩ := isFile_iff.mp hfile
  have hparent := hdisk.isDirectory_dropLast hentry
  have hdrop : (stagingOf target).dropLast = target.dropLast := List.dropLast_concat
  obtain ⟨habsent, hoverlong⟩ := not_stages.mp hstages
  have hfind : Disk.find disk (stagingOf target) = .error .nameTooLong := by
    rw [Disk.find, habsent]
    dsimp only
    rw [absence_eq_nameTooLong hdisk hoverlong (by simp [stagingOf]) (by rwa [hdrop]) habsent]
    rfl
  rw [writeText, runFrom_bind, runFrom_makeParent hparent, andThen_ok, runFrom_bind, look,
    runFrom_bind, runFrom_get, andThen_ok, runFrom_lift, hfind, andThen_error]

/-- A text is put at a place, with the directories above it, if there is room for its staging
file. -/
theorem runFrom_writeText_receives (hdisk : disk.WellFormed) (hreceives : disk.Receives target)
    (hfits : Fits target) (hstaging : Fits (stagingOf target)) (text : Text) :
    runFrom (writeText target text) disk =
      (.ok (), disk.withFile target (Utf8.encode text)) := by
  obtain ⟨hadded, hparent, hfree⟩ := addDirectories_receives hdisk hreceives
  obtain ⟨found?, hfound⟩ := Stages.find hadded (.inl hstaging) hparent
  rw [writeText, runFrom_bind, runFrom_makeParent_receives hdisk hreceives hfits, andThen_ok,
    runFrom_bind, look, runFrom_bind, runFrom_get, andThen_ok, runFrom_lift, hfound, andThen_ok]
  exact runFrom_change (place_eq_set hadded hfits hreceives.named hparent hfree _)

end DiskAction

end PageLoom
