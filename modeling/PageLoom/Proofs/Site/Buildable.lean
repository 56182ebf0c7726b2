import PageLoom.Proofs.Component.Index
import PageLoom.Proofs.Site.Copy
import PageLoom.Site.Build

/-!
# Sites that can be built

What a site needs for its build to reach the end: both directories there, source and output apart,
and nothing in the way of the output, of its lock or of a copy. Taking the lock and copying the
source then succeed, and the output holds every file of the source.
-/

namespace PageLoom.Site.Plan

open Component Disk DiskAction

/-- A site with nothing in the way of its build: its directories are there, source and output are
apart, and nothing stands where the output, its lock or a copy goes. -/
structure Unobstructed (plan : Plan) (before : Disk) : Prop where
  wellFormed : before.WellFormed
  source : before.isDirectory plan.source = true
  components : before.isDirectory plan.components = true
  outside : isWithin plan.source plan.output = false
  inside : isWithin plan.output plan.source = false
  clear : before.Clear plan.output
  lockFree : before.isDirectory (lockOf plan.output) = false
  folders : ∀ below, before.entry? (plan.source ++ below) = some .directory →
    before.isFile (plan.output ++ below) = false
  files : ∀ below bytes, before.entry? (plan.source ++ below) = some (.file bytes) →
    before.isDirectory (plan.output ++ below) = false

/-- A site that can be built: moreover no place that the build writes to is too long. -/
structure Buildable (plan : Plan) (before : Disk) : Prop extends plan.Unobstructed before where
  lockFits : Fits (lockOf plan.output)
  copiesFit : ∀ below entry, before.entry? (plan.source ++ below) = some entry →
    Fits (plan.output ++ below)

/-- The disk when the lock of the output is taken. -/
def locked (plan : Plan) (before : Disk) : Disk :=
  (before.addDirectories plan.output.dropLast).set (lockOf plan.output) (.file [])

variable {plan : Plan} {before : Disk}

theorem Buildable.output_ne_nil (hbuildable : plan.Buildable before) : plan.output ≠ [] := by
  intro houtput
  have hinside := hbuildable.inside
  rw [houtput] at hinside
  cases hinside

theorem Buildable.parent_outside (hbuildable : plan.Buildable before) :
    isWithin plan.source plan.output.dropLast = false :=
  not_isWithin_of_above hbuildable.outside (List.dropLast_prefix plan.output)

theorem Buildable.lock_outside (hbuildable : plan.Buildable before) :
    isWithin plan.source (lockOf plan.output) = false := by
  rw [Bool.eq_false_iff]
  intro hwithin
  rcases List.prefix_concat_iff.mp (isWithin_iff.mp hwithin) with hsame | hprefixed
  · have hsource := hbuildable.source
    have hlockFree := hbuildable.lockFree
    rw [lockOf, ← hsame, hsource] at hlockFree
    cases hlockFree
  · have hparent := hbuildable.parent_outside
    rw [isWithin_iff.mpr hprefixed] at hparent
    cases hparent

/-- What the disk has anywhere once the lock of the output is taken. -/
theorem Buildable.entry?_locked (hbuildable : plan.Buildable before) (place : Location) :
    Disk.entry? (plan.locked before) place =
      if place = lockOf plan.output then some (.file [])
      else if place <+: plan.output.dropLast then some .directory
      else before.entry? place := by
  have hclearParent := hbuildable.clear.of_prefix (List.dropLast_prefix plan.output)
  obtain ⟨-, hentry⟩ := addDirectories_spec hbuildable.wellFormed hclearParent
  rw [locked, entry?_set _ (by simp [lockOf]), hentry]

theorem Buildable.wellFormed_locked (hbuildable : plan.Buildable before) :
    (plan.locked before).WellFormed := by
  have hclearParent := hbuildable.clear.of_prefix (List.dropLast_prefix plan.output)
  have hdrop : (lockOf plan.output).dropLast = plan.output.dropLast := List.dropLast_concat
  obtain ⟨hadded, hentry⟩ := addDirectories_spec hbuildable.wellFormed hclearParent
  apply hadded.set (by simp [lockOf])
  · rw [hdrop, isDirectory_iff, hentry, if_pos (List.prefix_refl _)]
  · intro hdirectory
    have hlockFree := hbuildable.lockFree
    rw [isDirectory, hentry, if_neg (not_lockOf_above _), ← isDirectory, hlockFree] at hdirectory
    cases hdirectory

/-- Taking the lock changes nothing under the source or the output. -/
theorem Buildable.under_locked (hbuildable : plan.Buildable before) :
    (plan.locked before).under plan.source = before.under plan.source := by
  rw [locked, under_set hbuildable.lock_outside, under_addDirectories hbuildable.parent_outside]

theorem Buildable.output_locked (hbuildable : plan.Buildable before) (below : List Text) :
    Disk.entry? (plan.locked before) (plan.output ++ below) =
      before.entry? (plan.output ++ below) := by
  have habove : ¬plan.output ++ below <+: plan.output.dropLast := by
    intro hprefixed
    have hlength := hprefixed.length_le
    have hpositive := List.length_pos_of_ne_nil hbuildable.output_ne_nil
    rw [List.length_append, List.length_dropLast] at hlength
    omega
  rw [hbuildable.entry?_locked, if_neg (lockOf_ne hbuildable.output_ne_nil below), if_neg habove]

theorem Buildable.clear_locked (hbuildable : plan.Buildable before) :
    (plan.locked before).Clear plan.output := by
  intro place hprefixed
  have hother : place ≠ lockOf plan.output := by
    rintro rfl
    have hsame := hprefixed.eq_of_length (length_lockOf hbuildable.output_ne_nil)
    exact lockOf_ne hbuildable.output_ne_nil [] (by rw [List.append_nil, hsame])
  rw [isFile, hbuildable.entry?_locked, if_neg hother]
  by_cases habove : place <+: plan.output.dropLast
  · rw [if_pos habove]
  · rw [if_neg habove]
    exact hbuildable.clear place hprefixed

/-- A walk copies as many files as there are for it to come to. -/
theorem length_copiedFiles {origin disk : Disk} (horigin : origin.WellFormed)
    (hdisk : disk.WellFormed) {root : Location} (hdirectory : origin.isDirectory root = true)
    (hfiles : ∀ below, origin.isFile (root ++ below) = disk.isFile (root ++ below))
    (exclude : List Location) :
    (copiedFiles origin exclude root (origin.height + 1) []).length =
      ((Store.filesBelow disk root).filter fun file => entered exclude root file.1).length := by
  have hmem : ∀ names, names ∈ copiedFiles origin exclude root (origin.height + 1) [] ↔
      names ∈ ((Store.filesBelow disk root).map Prod.fst).filter (entered exclude root) := by
    intro names
    rw [mem_copiedFiles horigin (.inl rfl) (by rw [List.append_nil]; exact tall_height horigin _)
      (by rwa [List.append_nil]), List.mem_filter, Store.mem_filesBelow hdisk, ← hfiles]
    constructor
    · rintro ⟨hchosen, hfile⟩
      obtain ⟨bytes, hfound⟩ := isFile_iff.mp hfile
      obtain ⟨hnames, hentered⟩ := (chosen_file_iff hfound).mp hchosen
      exact ⟨⟨hnames, hfile⟩, hentered⟩
    · rintro ⟨⟨hnames, hfile⟩, hentered⟩
      obtain ⟨bytes, hfound⟩ := isFile_iff.mp hfile
      exact ⟨(chosen_file_iff hfound).mpr ⟨hnames, hentered⟩, hfile⟩
  have hperm := (List.perm_ext_iff_of_nodup (nodup_copiedFiles horigin exclude root _ [])
    ((Store.nodup_filesBelow hdisk root).filter _)).mpr hmem
  rw [hperm.length_eq, List.filter_map, List.length_map]
  rfl

/-- A disk after a whole source was copied into the output. -/
structure Filled (plan : Plan) (before after : Disk) : Prop where
  wellFormed : after.WellFormed
  source : after.under plan.source = before.under plan.source
  output : after.isDirectory plan.output = true
  copied : ∀ name rest entry, before.entry? (plan.source ++ name :: rest) = some entry →
    after.entry? (plan.output ++ name :: rest) = some entry
  kept : ∀ name rest, before.entry? (plan.source ++ name :: rest) = none →
    after.entry? (plan.output ++ name :: rest) = before.entry? (plan.output ++ name :: rest)

/-- What the disk has anywhere once the output is there and its lock is taken. -/
theorem Buildable.entry?_prepared (hbuildable : plan.Buildable before) (place : Location) :
    Disk.entry? ((plan.locked before).addDirectories plan.output) place =
      if place <+: plan.output then some .directory
      else Disk.entry? (plan.locked before) place :=
  (addDirectories_spec hbuildable.wellFormed_locked hbuildable.clear_locked).2 place

theorem Buildable.under_prepared (hbuildable : plan.Buildable before) :
    ((plan.locked before).addDirectories plan.output).under plan.source =
      before.under plan.source := by
  rw [under_addDirectories hbuildable.outside, hbuildable.under_locked]

theorem Buildable.source_prepared (hbuildable : plan.Buildable before) (names : List Text) :
    Disk.entry? ((plan.locked before).addDirectories plan.output) (plan.source ++ names) =
      before.entry? (plan.source ++ names) :=
  entry?_of_under hbuildable.under_prepared (isWithin_iff.mpr (List.prefix_append ..))

/-- Below the output, all is still as it was. -/
theorem Buildable.output_prepared (hbuildable : plan.Buildable before) {below : List Text}
    (hbelow : below ≠ []) :
    Disk.entry? ((plan.locked before).addDirectories plan.output) (plan.output ++ below) =
      before.entry? (plan.output ++ below) := by
  rw [hbuildable.entry?_prepared, if_neg (not_prefix_append_self hbelow), hbuildable.output_locked]

/-- There is room in the output for every file and directory of the source. -/
theorem Buildable.roomy (hbuildable : plan.Buildable before) (exclude : List Location) :
    Roomy ((plan.locked before).addDirectories plan.output) exclude plan.source plan.output
      ((plan.locked before).addDirectories plan.output) := by
  have hnamed : ∀ below, Chosen ((plan.locked before).addDirectories plan.output) exclude
      plan.source [] below → below ≠ [] := by
    rintro below ⟨first, rest, entry, rfl, -⟩
    simp
  constructor
  case fits =>
    rintro below ⟨first, rest, entry, rfl, hfound, -⟩
    rw [hbuildable.source_prepared] at hfound
    exact hbuildable.copiesFit _ entry hfound
  case folders =>
    intro below hchosen hfolder
    rw [isDirectory_iff, hbuildable.source_prepared] at hfolder
    rw [isFile, hbuildable.output_prepared (hnamed below hchosen)]
    exact hbuildable.folders below hfolder
  case files =>
    intro below hchosen hfile
    obtain ⟨bytes, hfound⟩ := isFile_iff.mp hfile
    rw [hbuildable.source_prepared] at hfound
    rw [isDirectory, hbuildable.output_prepared (hnamed below hchosen)]
    exact hbuildable.files below bytes hfound

/-- Copying the source into the output, with its lock taken, counts the files of the source. -/
theorem Buildable.filled (hbuildable : plan.Buildable before) :
    ∃ after, runFrom (copyTree plan.traversalExclusions plan.source plan.output)
        (plan.locked before) = (.ok (Store.filesBelow before plan.source).length, after) ∧
      plan.Filled before after := by
  have hsource := hbuildable.under_prepared
  have hdirectory : ((plan.locked before).addDirectories plan.output).isDirectory plan.source =
      true := by
    rw [isDirectory_of_under hsource (isWithin_iff.mpr (List.prefix_refl _)), hbuildable.source]
  have hexclude : plan.traversalExclusions = [] := by
    rw [traversalExclusions, hbuildable.outside]
    rfl
  have hprepared := (addDirectories_spec hbuildable.wellFormed_locked hbuildable.clear_locked).1
  have hfits : Fits plan.output := by
    have hroot := hbuildable.copiesFit [] .directory (by
      rw [List.append_nil, isDirectory_iff.mp hbuildable.source])
    rwa [List.append_nil] at hroot
  obtain ⟨after, hrun, hcopied⟩ := copied_copyTree hbuildable.wellFormed_locked
    hbuildable.clear_locked hfits hdirectory (hbuildable.roomy [])
    (watched_of_apart hbuildable.outside hbuildable.inside)
  have hall : ((Store.filesBelow before plan.source).filter fun file =>
      entered [] plan.source file.1) = Store.filesBelow before plan.source := by
    simp [entered, isExcluded]
  refine ⟨after, ?_, hcopied.wellFormed, hcopied.source.trans hsource, ?_, ?_, ?_⟩
  · rw [hexclude, hrun, length_copiedFiles hprepared hbuildable.wellFormed hdirectory (fun below =>
      by rw [isFile, isFile, hbuildable.source_prepared]), hall]
  · have hroot : ((plan.locked before).addDirectories plan.output).isDirectory
        (plan.source ++ []) = true := by
      rwa [List.append_nil]
    have hthere : ((plan.locked before).addDirectories plan.output).isDirectory
        (plan.output ++ []) = true := by
      rw [List.append_nil, isDirectory_iff, hbuildable.entry?_prepared,
        if_pos (List.prefix_refl _)]
    have htarget := hcopied.isDirectory hroot hthere
    rwa [List.append_nil] at htarget
  · intro name rest entry hfound
    have hchosen : Chosen ((plan.locked before).addDirectories plan.output) [] plan.source []
        (name :: rest) := by
      refine ⟨name, rest, entry, rfl, by rw [hbuildable.source_prepared, hfound], ?_⟩
      cases entry with
      | directory => rfl
      | file bytes => exact .inr rfl
    rw [hcopied.copied _ hchosen, hbuildable.source_prepared, hfound]
  · intro name rest habsent
    rw [hcopied.kept (plan.output ++ name :: rest), hbuildable.output_prepared (by simp)]
    rintro below ⟨first, others, entry, -, hfound, -⟩ hnames
    rw [List.append_cancel_left_eq] at hnames
    rw [← hnames, hbuildable.source_prepared, habsent] at hfound
    cases hfound

end PageLoom.Site.Plan
