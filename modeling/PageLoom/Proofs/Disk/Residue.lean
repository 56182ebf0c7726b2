import PageLoom.Proofs.Disk.Put

/-!
# What a failed put leaves

A file is put in two steps: the directories above its place are made, and then it is put there. If
the second step fails, the directories stay. Nothing else of a put that fails can be seen.
-/

namespace PageLoom

namespace Disk

/-- A directory is missing above a place and can be made: no name down to it is too long, nor is the
whole path, and no file stands in the way. -/
structure Paves (disk : Disk) (target place : Location) : Prop where
  absent : disk.entry? place = none
  above : place <+: target.dropLast.takeWhile (!isOverlong ·)
  short : pathSize target.dropLast ≤ pathLimit
  unblocked : disk.blocked target.dropLast = false

/-- Above a directory that is there, none is missing. -/
theorem not_paves_of_exists {disk : Disk} {target place : Location} {entry : Entry}
    (hdisk : disk.WellFormed) (hentry : disk.entry? target.dropLast = some entry) :
    ¬Paves disk target place := by
  intro hpaves
  have habove := hpaves.above.trans (List.takeWhile_prefix _)
  by_cases hsame : place = target.dropLast
  · rw [hsame] at hpaves
    cases hpaves.absent.symm.trans hentry
  · cases hpaves.absent.symm.trans
      (isDirectory_iff.mp (hdisk.isDirectory_of_prefix hentry habove hsame))

end Disk

namespace DiskAction

open Disk

variable {disk : Disk} {location source target : Location}

/-- A directory that is missing is made as far as no name is too long. -/
theorem disk_makeDirectory (habsent : disk.entry? location = none)
    (hshort : pathSize location ≤ pathLimit) (hblocked : disk.blocked location = false) :
    (runFrom (makeDirectory location) disk).2 =
      disk.addDirectories (location.takeWhile (!isOverlong ·)) := by
  rw [makeDirectory, runFrom_bind, runFrom_get, andThen_ok, habsent]
  simp only [Nat.not_lt.mpr hshort, hblocked, if_false, Bool.false_eq_true]
  rw [runFrom_bind, runFrom_set, andThen_ok]
  split
  · rfl
  · rfl

/-- A directory whose path is too long, or that a file stands in the way of, is not made. -/
theorem disk_makeDirectory_of_not (habsent : disk.entry? location = none)
    (hnot : ¬(pathSize location ≤ pathLimit ∧ disk.blocked location = false)) :
    (runFrom (makeDirectory location) disk).2 = disk := by
  rw [makeDirectory, runFrom_bind, runFrom_get, andThen_ok, habsent]
  by_cases hsize : pathLimit < pathSize location
  · simp only [hsize, if_true]
    rfl
  · have hblocked : disk.blocked location = true :=
      Bool.not_eq_false _ ▸ fun hfalse => hnot ⟨Nat.not_lt.mp hsize, hfalse⟩
    simp only [hsize, hblocked, if_true, if_false]
    rfl

/-- Adding a directory changes only places above it where nothing is. -/
theorem entry?_addDirectories_eq {place : Location} (hdisk : disk.WellFormed)
    (hclear : disk.Clear location)
    (hthere : place <+: location → disk.entry? place ≠ none) :
    Disk.entry? (disk.addDirectories location) place = disk.entry? place := by
  rw [(addDirectories_spec hdisk hclear).2]
  split
  · rename_i habove
    obtain ⟨entry, hentry⟩ := Option.ne_none_iff_exists'.mp (hthere habove)
    cases entry with
    | directory => exact hentry.symm
    | file bytes =>
        have hnoFile := hclear place habove
        rw [isFile, hentry] at hnoFile
        cases hnoFile
  · rfl

theorem disk_makeParent (target : Location) (disk : Disk) :
    (runFrom (makeParent target) disk).2 =
      if disk.entry? target.dropLast = none then (runFrom (makeDirectory target.dropLast) disk).2
      else disk := by
  rw [makeParent, runFrom_bind, runFrom_get, andThen_ok, exists?]
  cases disk.entry? target.dropLast with
  | none => rfl
  | some entry => rfl

/-- Before a file is put, the directories above it are made that can be. -/
theorem entry?_makeParent (hdisk : disk.WellFormed) (target place : Location) :
    (Paves disk target place →
      Disk.entry? (runFrom (makeParent target) disk).2 place = some .directory) ∧
    (¬Paves disk target place →
      Disk.entry? (runFrom (makeParent target) disk).2 place = disk.entry? place) := by
  rw [disk_makeParent]
  cases hentry : disk.entry? target.dropLast with
  | some entry =>
      rw [if_neg (Option.some_ne_none entry)]
      exact ⟨fun hpaves => absurd hpaves (not_paves_of_exists hdisk hentry), fun _ => rfl⟩
  | none =>
      rw [if_pos rfl]
      by_cases hfree : pathSize target.dropLast ≤ pathLimit ∧
          disk.blocked target.dropLast = false
      · have hfolders := clear_of_not_blocked hfree.2 (by rw [isFile, hentry])
        have hclear := hfolders.of_prefix (List.takeWhile_prefix (!isOverlong ·))
        rw [disk_makeDirectory hentry hfree.1 hfree.2]
        constructor
        · intro hpaves
          rw [(addDirectories_spec hdisk hclear).2, if_pos hpaves.above]
        · exact fun hnot => entry?_addDirectories_eq hdisk hclear fun habove habsent =>
            hnot ⟨habsent, habove, hfree.1, hfree.2⟩
      · rw [disk_makeDirectory_of_not hentry hfree]
        exact ⟨fun hpaves => absurd ⟨hpaves.short, hpaves.unblocked⟩ hfree, fun _ => rfl⟩

theorem atomic_change (step : Disk → Except DiskError Disk) : Atomic (change step) := by
  intro state error after hrun
  rw [change, runFrom_bind, runFrom_get, andThen_ok, runFrom_bind, runFrom_lift] at hrun
  cases hstep : step state with
  | ok value =>
      rw [hstep] at hrun
      cases hrun
  | error failure =>
      rw [hstep] at hrun
      exact (Prod.mk.inj hrun).2.symm

theorem keeps_look (location : Location) : Keeps id (look location) := by
  intro state
  rw [look, runFrom_bind, runFrom_get, andThen_ok, runFrom_lift]

/-- A text that cannot be written leaves nothing but directories above its place. -/
theorem eq_of_writeText_error {after : Disk} {error : DiskError} {text : Text}
    (hrun : runFrom (writeText target text) disk = (.error error, after)) :
    after = (runFrom (makeParent target) disk).2 :=
  eq_of_bind_error (fun _ => Atomic.bind_of_keeps (keeps_look _) fun _ => atomic_change _) hrun

/-- A copy that fails leaves nothing but directories above its place. -/
theorem eq_of_copyFile_error {after : Disk} {error : DiskError}
    (hrun : runFrom (copyFile source target) disk = (.error error, after)) :
    after = (runFrom (makeParent target) disk).2 := by
  refine eq_of_bind_error (fun _ => ?_) hrun
  refine Atomic.bind_of_keeps (fun _ => rfl) fun disk => ?_
  have hput : Atomic (do
      let bytes ← disk.read source
      change (·.place (copyTarget disk source target) bytes) : DiskAction Unit) :=
    Atomic.bind_of_keeps (fun state => by rw [runFrom_lift]) fun _ => atomic_change _
  cases hsame : decide (copyTarget disk source target = source) && disk.exists? source with
  | true =>
      simp only [hsame, if_true]
      exact atomic_throw _
  | false =>
      simp only [hsame, Bool.false_eq_true, if_false]
      exact hput

end DiskAction

end PageLoom
