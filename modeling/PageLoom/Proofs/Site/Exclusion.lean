import Mathlib
import PageLoom.Proofs.Disk.Put
import PageLoom.Proofs.Site.Frame
import PageLoom.Proofs.Site.Rebuild

/-!
# Excluded files

A copy goes past excluded directories, but it takes every file of a directory that it comes to,
whether the file is excluded or not, and it comes to its root in any case. So it takes what is not
excluded exactly if no excluded file lies in a directory that it comes to. A build into its own
source excludes the lock of its output, which stands next to the output: it takes nothing of the
output, but always the lock.
-/

namespace PageLoom.Site

open Component Disk DiskAction BuildAction Plan

/-- Whether neither a file nor a directory above it is excluded. -/
def spared (exclude : List Location) (root : Location) (below : List Text) : Bool :=
  !isExcluded exclude (root ++ below)

/-- The walk from a root looks at the root, at what lies in it, and at what lies in a directory
below it that is not excluded. -/
def looksAt (exclude : List Location) (root place : Location) : Bool :=
  isWithin root place &&
    (decide (place.length ≤ root.length + 1) || !isExcluded exclude place.dropLast)

/-- Nothing is in the way of a copy once its output is there, and the walk does not look at the
places that it copies to. -/
structure Copyable (exclude : List Location) (root output : Location) (disk : Disk) : Prop where
  wellFormed : disk.WellFormed
  source : disk.isDirectory root = true
  clear : disk.Clear output
  fits : Fits output
  roomy : Roomy (disk.addDirectories output) exclude root output (disk.addDirectories output)
  apart : ∀ below, Chosen (disk.addDirectories output) exclude root [] below →
    looksAt exclude root (output ++ below) = false

/-- What is below a root was copied as far as a test holds for it: these files have the same bytes
below the output, every other file is as it was, and they are counted. -/
structure CopiesFiles (takes : List Text → Bool) (root output : Location) (before : Disk)
    (count : Nat) (after : Disk) : Prop where
  copied : ∀ below bytes, takes below = true → bytesAt? (root ++ below) before = some bytes →
    bytesAt? (output ++ below) after = some bytes
  kept : ∀ place, (∀ below, takes below = true → before.isFile (root ++ below) = true →
    place ≠ output ++ below) → bytesAt? place after = bytesAt? place before
  counted : count = ((Store.filesBelow before root).filter fun file => takes file.1).length

variable {exclude : List Location} {root output : Location} {disk before after : Disk}
variable {below : List Text} {count : Nat}

/-! ## Where a walk does not look -/

theorem looksAt_of_apart (hroot : isWithin root output = false)
    (houtput : isWithin output root = false) (below : List Text) :
    looksAt exclude root (output ++ below) = false := by
  rw [looksAt, not_isWithin_append hroot houtput, Bool.false_and]

theorem looksAt_of_excluded (hinner : isWithin root output = true) (hother : output ≠ root)
    (hexcluded : isExcluded exclude output = true) (hbelow : below ≠ []) :
    looksAt exclude root (output ++ below) = false := by
  have hlonger : root.length < output.length := by
    have hprefixed := isWithin_iff.mp hinner
    exact Nat.lt_of_le_of_ne hprefixed.length_le fun hlength =>
      hother (hprefixed.eq_of_length hlength).symm
  have hpositive := List.length_pos_of_ne_nil hbelow
  have hdeep : ¬(output ++ below).length ≤ root.length + 1 := by
    rw [List.length_append]
    omega
  have habove : isExcluded exclude (output ++ below).dropLast = true := by
    rw [List.dropLast_append_of_ne_nil hbelow]
    exact isExcluded_of_above (List.prefix_append ..) hexcluded
  rw [looksAt, habove, decide_eq_false hdeep]
  simp

theorem Copyable.watched (hcopyable : Copyable exclude root output disk) :
    Watched (looksAt exclude root) (disk.addDirectories output) exclude root output where
  base := by
    rw [looksAt, isWithin_iff.mpr (List.prefix_refl _), decide_eq_true (by omega)]
    rfl
  inside below hreached name := by
    have hwithin : isWithin root (root ++ below ++ [name]) = true := by
      rw [List.append_assoc]
      exact isWithin_iff.mpr (List.prefix_append ..)
    rw [looksAt, hwithin, List.dropLast_concat, Bool.true_and]
    rcases hreached with rfl | hreached
    · rw [decide_eq_true (by simp), Bool.true_or]
    · rw [hreached, Bool.not_false, Bool.or_true]
  apart := hcopyable.apart

/-- Nothing is in the way of a copy to an output with nothing in it, if root and output are apart or
the output is excluded below the root. -/
theorem copyable_of_empty (hdisk : disk.WellFormed) (hsource : disk.isDirectory root = true)
    (hclear : disk.Clear output)
    (hempty : ∀ below, below ≠ [] → disk.entry? (output ++ below) = none) (hfits : Fits output)
    (hcopiesFit : ∀ below entry,
      Disk.entry? (disk.addDirectories output) (root ++ below) = some entry →
        Fits (output ++ below))
    (hapart : isWithin root output = false ∧ isWithin output root = false ∨
      isWithin root output = true ∧ output ≠ root ∧ isExcluded exclude output = true) :
    Copyable exclude root output disk := by
  obtain ⟨-, hentry⟩ := addDirectories_spec hdisk hclear
  have hnamed : ∀ below, Chosen (disk.addDirectories output) exclude root [] below →
      below ≠ [] := by
    rintro below ⟨first, rest, entry, rfl, -⟩
    simp
  have hfree : ∀ below, Chosen (disk.addDirectories output) exclude root [] below →
      Disk.entry? (disk.addDirectories output) (output ++ below) = none := by
    intro below hchosen
    rw [hentry, if_neg (not_prefix_append_self (hnamed below hchosen)),
      hempty below (hnamed below hchosen)]
  refine ⟨hdisk, hsource, hclear, hfits, ⟨?_, ?_, ?_⟩, ?_⟩
  · rintro below ⟨first, rest, entry, rfl, hfound, -⟩
    exact hcopiesFit _ entry hfound
  · intro below hchosen _
    rw [isFile, hfree below hchosen]
  · intro below hchosen _
    rw [isDirectory, hfree below hchosen]
    rfl
  · intro below hchosen
    rcases hapart with ⟨hroot, houtput⟩ | ⟨hinner, hother, hexcluded⟩
    · exact looksAt_of_apart hroot houtput below
    · exact looksAt_of_excluded hinner hother hexcluded (hnamed below hchosen)

/-! ## What a copy takes -/

/-- The walk comes to every file that is not excluded. -/
theorem entered_of_spared (hspared : spared exclude root below = true) :
    entered exclude root below = true := by
  rw [spared, Bool.not_eq_true'] at hspared
  have habove : isExcluded exclude (root ++ below.dropLast) = false :=
    isExcluded_eq_false_of_above
      ((List.prefix_append_right_inj root).mpr (List.dropLast_prefix below)) hspared
  rw [entered, habove, Bool.not_false, Bool.or_true]

namespace CopiesFiles

variable {takes other : List Text → Bool}

theorem congr (hcopies : CopiesFiles takes root output before count after)
    (hbefore : before.WellFormed)
    (hsame : ∀ below, before.isFile (root ++ below) = true → takes below = other below) :
    CopiesFiles other root output before count after where
  copied below bytes htakes hfound := by
    rw [← hsame below (isFile_iff.mpr ⟨bytes, bytesAt?_eq_some.mp hfound⟩)] at htakes
    exact hcopies.copied below bytes htakes hfound
  kept place hplace := hcopies.kept place fun below htakes hfile =>
    hplace below (by rw [← hsame below hfile, htakes]) hfile
  counted := by
    rw [hcopies.counted]
    congr 1
    refine List.filter_congr fun file hmem => hsame file.1 ?_
    exact ((Store.mem_filesBelow hbefore).mp (List.mem_map_of_mem hmem)).2

/-- Of two copies that count the same number of files, one cannot take more than the other. -/
theorem takes_of_counted (hcopies : CopiesFiles takes root output before count after)
    (hother : CopiesFiles other root output before count after) (hbefore : before.WellFormed)
    (hwithin : ∀ below, other below = true → takes below = true) (hbelow : below ≠ [])
    (hfile : before.isFile (root ++ below) = true) (htakes : takes below = true) :
    other below = true := by
  have hlength := hcopies.counted.symm.trans hother.counted
  have hfilter : ((Store.filesBelow before root).filter fun file => other file.1) =
      ((Store.filesBelow before root).filter fun file => takes file.1).filter
        fun file => other file.1 := by
    rw [List.filter_filter]
    refine List.filter_congr fun file _ => ?_
    cases hhere : other file.1 with
    | true => rw [hwithin _ hhere, Bool.and_self]
    | false => rw [Bool.false_and]
  rw [hfilter, eq_comm, List.length_filter_eq_length_iff] at hlength
  obtain ⟨file, hmem, rfl⟩ := List.mem_map.mp ((Store.mem_filesBelow hbefore).mpr ⟨hbelow, hfile⟩)
  exact hlength file (List.mem_filter.mpr ⟨hmem, htakes⟩)

end CopiesFiles

/-- A copy takes the files that its walk comes to. -/
theorem Copyable.copyTree (hcopyable : Copyable exclude root output disk) :
    ∃ count after, runFrom (copyTree exclude root output) disk = (.ok count, after) ∧
      CopiesFiles (entered exclude root) root output disk count after := by
  obtain ⟨hadded, hentry⟩ := addDirectories_spec hcopyable.wellFormed hcopyable.clear
  have hdirectory : (disk.addDirectories output).isDirectory root = true := by
    rw [isDirectory_iff, hentry, isDirectory_iff.mp hcopyable.source, ite_self]
  have hfound : ∀ place bytes, bytesAt? place disk = some bytes ↔
      Disk.entry? (disk.addDirectories output) place = some (.file bytes) := by
    intro place bytes
    rw [← bytesAt?_addDirectories disk output, bytesAt?_eq_some]
  have hfiles : ∀ place, (disk.addDirectories output).isFile place = disk.isFile place := by
    intro place
    rw [← isSome_bytesAt?, bytesAt?_addDirectories, isSome_bytesAt?]
  have hnamed : ∀ below, disk.isFile (root ++ below) = true → below ≠ [] :=
    fun _ => ne_nil_of_isFile_append hcopyable.source
  obtain ⟨after, hrun, hcopied⟩ := copied_copyTree hcopyable.wellFormed hcopyable.clear
    hcopyable.fits hdirectory hcopyable.roomy hcopyable.watched
  refine ⟨_, after, hrun, ?_, ?_, ?_⟩
  · intro below bytes hentered hbytes
    have horigin := (hfound _ _).mp hbytes
    have hbelow := hnamed below (isFile_iff.mpr ⟨bytes, bytesAt?_eq_some.mp hbytes⟩)
    rw [bytesAt?_eq_some, hcopied.copied below ((chosen_file_iff horigin).mpr ⟨hbelow, hentered⟩),
      horigin]
  · intro place hplace
    by_cases hchosen : ∃ below, Chosen (disk.addDirectories output) exclude root [] below ∧
        place = output ++ below
    · -- What is copied there is a directory, and no file stood in its way.
      obtain ⟨below, hchosen, rfl⟩ := hchosen
      have hcopy := hcopied.copied below hchosen
      obtain ⟨first, rest, entry, -, hthere, -⟩ := id hchosen
      cases entry with
      | file bytes =>
          obtain ⟨-, hentered⟩ := (chosen_file_iff hthere).mp hchosen
          refine absurd rfl (hplace below hentered ?_)
          rw [← hfiles]
          exact isFile_iff.mpr ⟨bytes, hthere⟩
      | directory =>
          have hfree := hcopyable.roomy.folders below hchosen (isDirectory_iff.mpr hthere)
          rw [hfiles, ← isSome_bytesAt?, Option.isSome_eq_false_iff,
            Option.isNone_iff_eq_none] at hfree
          rw [hfree, bytesAt?, hcopy, hthere]
    · rw [bytesAt?, hcopied.kept place fun below hbelow hsame => hchosen ⟨below, hbelow, hsame⟩,
        ← bytesAt?_addDirectories disk output]
      rfl
  · exact length_copiedFiles hadded hcopyable.wellFormed hdirectory (fun below => hfiles _) exclude

/-- A copy with nothing in its way takes the files that its walk comes to. These are the files that
are not excluded if, and only if, no file is excluded that the walk comes to. -/
theorem copyTree_copiesFiles_iff (hcopyable : Copyable exclude root output disk) :
    ∃ count after, runFrom (copyTree exclude root output) disk = (.ok count, after) ∧
      CopiesFiles (entered exclude root) root output disk count after ∧
      (CopiesFiles (spared exclude root) root output disk count after ↔
        ∀ below, disk.isFile (root ++ below) = true → entered exclude root below = true →
          spared exclude root below = true) := by
  obtain ⟨count, after, hrun, hcopies⟩ := hcopyable.copyTree
  refine ⟨count, after, hrun, hcopies, fun hspared below hfile hentered => ?_, fun hall => ?_⟩
  · exact hcopies.takes_of_counted hspared hcopyable.wellFormed (fun _ => entered_of_spared)
      (ne_nil_of_isFile_append hcopyable.source hfile) hfile hentered
  · refine hcopies.congr hcopyable.wellFormed fun below hfile => ?_
    rw [Bool.eq_iff_iff]
    exact ⟨hall below hfile, entered_of_spared⟩

/-! ## Builds into their own source -/

namespace Plan

variable {plan : Plan} {state done : BuildState} {taken : Disk} {report : BuildReport}

theorem length_source_lt (hinner : isWithin plan.source plan.output = true) :
    plan.source.length < plan.output.length := by
  have hprefixed := isWithin_iff.mp hinner
  exact Nat.lt_of_le_of_ne hprefixed.length_le fun hlength =>
    plan.output_ne_source (hprefixed.eq_of_length hlength).symm

theorem output_ne_nil (hinner : isWithin plan.source plan.output = true) : plan.output ≠ [] := by
  intro houtput
  have hlength := length_source_lt hinner
  rw [houtput] at hlength
  exact Nat.not_lt_zero _ hlength

theorem isExcluded_traversalExclusions (hinner : isWithin plan.source plan.output = true)
    (place : Location) :
    isExcluded plan.traversalExclusions place = true ↔
      plan.output <+: place ∨ lockOf plan.output <+: place := by
  rw [traversalExclusions, if_pos hinner]
  simp [isExcluded, isWithin_iff]

/-- What is at or below a place that is longer than the source is excluded with it, and what the
walk comes to of it is the place itself. -/
theorem append_eq_of_entered {place : Location} (hlonger : plan.source.length < place.length)
    (habove : ∀ other, place <+: other → isExcluded plan.traversalExclusions other = true)
    (hentered : entered plan.traversalExclusions plan.source below = true)
    (hbelow : place <+: plan.source ++ below) : plan.source ++ below = place := by
  by_contra hother
  obtain ⟨rest, hrest⟩ := hbelow
  have hproper : rest ≠ [] := by
    rintro rfl
    rw [List.append_nil] at hrest
    exact hother hrest.symm
  have hnamed : below ≠ [] := by
    rintro rfl
    have hlength := congrArg List.length hrest
    simp only [List.length_append, List.length_nil] at hlength
    omega
  have hdirectory : place <+: plan.source ++ below.dropLast := by
    rw [← List.dropLast_append_of_ne_nil hnamed, ← hrest,
      List.dropLast_append_of_ne_nil hproper]
    exact List.prefix_append ..
  rw [entered, habove _ hdirectory, Bool.not_true, Bool.or_false, decide_eq_true_eq] at hentered
  have hlength := hdirectory.length_le
  rw [List.length_append, List.length_dropLast, hentered] at hlength
  omega

/-- The walk of a build into its own source comes to two places that are excluded: the output and
its lock. -/
theorem entered_not_spared_iff (hinner : isWithin plan.source plan.output = true) :
    entered plan.traversalExclusions plan.source below = true ∧
        spared plan.traversalExclusions plan.source below = false ↔
      plan.source ++ below = plan.output ∨ plan.source ++ below = lockOf plan.output := by
  have hlonger := length_source_lt hinner
  have hlock := length_lockOf (output_ne_nil hinner)
  have hexcluded := isExcluded_traversalExclusions hinner
  rw [spared, Bool.not_eq_false', hexcluded]
  constructor
  · rintro ⟨hentered, hwithin | hwithin⟩
    · exact .inl (append_eq_of_entered hlonger
        (fun other habove => (hexcluded other).mpr (.inl habove)) hentered hwithin)
    · exact .inr (append_eq_of_entered (hlock ▸ hlonger)
        (fun other habove => (hexcluded other).mpr (.inr habove)) hentered hwithin)
  · intro hplace
    have hlength : plan.source.length + below.length = plan.output.length := by
      rw [← List.length_append]
      rcases hplace with hplace | hplace
      · rw [hplace]
      · rw [hplace, hlock]
    -- The directory that both are in is shorter than either of them.
    have hdirectory : isExcluded plan.traversalExclusions (plan.source ++ below.dropLast) =
        false := by
      rw [Bool.eq_false_iff, ne_eq, hexcluded]
      rintro (hwithin | hwithin)
      · have hle := hwithin.length_le
        rw [List.length_append, List.length_dropLast] at hle
        omega
      · have hle := hwithin.length_le
        rw [List.length_append, List.length_dropLast, hlock] at hle
        omega
    refine ⟨?_, ?_⟩
    · rw [entered, hdirectory, Bool.not_false, Bool.or_true]
    · rcases hplace with hplace | hplace
      · exact .inl (hplace ▸ List.prefix_refl _)
      · exact .inr (hplace ▸ List.prefix_refl _)

/-- The lock of an output in the source stands in the source. -/
theorem exists_lockOf_eq (hinner : isWithin plan.source plan.output = true) :
    ∃ lock, lockOf plan.output = plan.source ++ lock := by
  have hlonger := length_source_lt hinner
  have habove : plan.source <+: plan.output.dropLast :=
    List.prefix_of_prefix_length_le (isWithin_iff.mp hinner) (List.dropLast_prefix _)
      (by rw [List.length_dropLast]; omega)
  obtain ⟨rest, hrest⟩ := habove.trans (List.prefix_append plan.output.dropLast _)
  exact ⟨rest, hrest.symm⟩

/-- The lock is the one file that the walk comes to though it is excluded. -/
theorem perm_entered_of_inner (hinner : isWithin plan.source plan.output = true)
    (hcopyable : Copyable plan.traversalExclusions plan.source plan.output taken)
    {lock : List Text} (hplace : lockOf plan.output = plan.source ++ lock)
    (hfile : taken.isFile (lockOf plan.output) = true) :
    (((Store.filesBelow taken plan.source).map Prod.fst).filter
      (entered plan.traversalExclusions plan.source)).Perm
        (lock :: ((Store.filesBelow taken plan.source).map Prod.fst).filter
          (spared plan.traversalExclusions plan.source)) := by
  rw [hplace] at hfile
  obtain ⟨hentered, hexcluded⟩ := (entered_not_spared_iff hinner).mpr (.inr hplace.symm)
  have hnodup := Store.nodup_filesBelow hcopyable.wellFormed plan.source
  rw [List.perm_ext_iff_of_nodup (hnodup.filter _)
    (List.nodup_cons.mpr ⟨by simp [hexcluded], hnodup.filter _⟩)]
  intro names
  rw [List.mem_cons, List.mem_filter, List.mem_filter, Store.mem_filesBelow hcopyable.wellFormed]
  constructor
  · rintro ⟨⟨hnames, hthere⟩, hcomes⟩
    cases hspared : spared plan.traversalExclusions plan.source names with
    | true => exact .inr ⟨⟨hnames, hthere⟩, rfl⟩
    | false =>
        left
        rcases (entered_not_spared_iff hinner).mp ⟨hcomes, hspared⟩ with houtput | hsame
        · rw [houtput, hcopyable.clear _ (List.prefix_refl _)] at hthere
          cases hthere
        · exact List.append_cancel_left (hsame.trans hplace)
  · rintro (rfl | ⟨hthere, hspared⟩)
    · exact ⟨⟨ne_nil_of_isFile_append hcopyable.source hfile, hfile⟩, hentered⟩
    · exact ⟨hthere, entered_of_spared hspared⟩

/-- A build into its own source counts the files that are not excluded, and the lock besides. -/
theorem copied_of_inner {processors : Nat} (hinner : isWithin plan.source plan.output = true)
    (hlock : runFrom (takeLock plan.output) state.disk = (.ok (), taken))
    (hcopyable : Copyable plan.traversalExclusions plan.source plan.output taken)
    (hrun : runFrom (plan.build processors) state = (.ok report, done)) :
    report.copied = ((Store.filesBelow taken plan.source).filter fun file =>
      spared plan.traversalExclusions plan.source file.1).length + 1 := by
  obtain ⟨size, loaded, locked, filled, outcomes, -, hlocked, hcopy, -⟩ := stages_of_build hrun
  cases hlock.symm.trans hlocked
  obtain ⟨count, after, hcopied, hcopies⟩ := hcopyable.copyTree
  cases hcopy.symm.trans hcopied
  obtain ⟨lock, hplace⟩ := exists_lockOf_eq hinner
  have hlength : ∀ takes : List Text → Bool,
      ((Store.filesBelow taken plan.source).filter fun file => takes file.1).length =
        (((Store.filesBelow taken plan.source).map Prod.fst).filter takes).length := by
    intro takes
    rw [List.filter_map, List.length_map]
    rfl
  have hperm := perm_entered_of_inner hinner hcopyable hplace (isFile_lockOf hlock)
  rw [hcopies.counted, hlength, hlength, hperm.length_eq, List.length_cons]

/-! ### The small site, built into itself -/

/-- The small site with the lock of an output in it. -/
def lockedSite : Disk := innerPlan.locked smallSite

theorem copyable_lockedSite :
    Copyable innerPlan.traversalExclusions innerPlan.source innerPlan.output lockedSite := by
  have hdisk : lockedSite.WellFormed := by decide +kernel
  have hclear : lockedSite.Clear innerPlan.output := by
    intro place hprefixed
    have hall : ∀ place ∈ innerPlan.output.inits, lockedSite.isFile place = false := by
      decide +kernel
    exact hall place ((List.mem_inits _ _).mpr hprefixed)
  apply copyable_of_empty hdisk (by decide +kernel) hclear
  case hempty =>
    intro below hbelow
    rw [Option.eq_none_iff_forall_ne_some]
    intro entry hfound
    have hmem := hdisk.mem_iff.mpr ⟨by simp [hbelow], hfound⟩
    have hall : ∀ entry ∈ lockedSite.entries, isWithin innerPlan.output entry.1 = false := by
      decide +kernel
    have hoccurs := hall _ hmem
    rw [isWithin_iff.mpr (List.prefix_append ..)] at hoccurs
    cases hoccurs
  case hfits => exact ⟨by decide +kernel, by decide +kernel⟩
  case hcopiesFit =>
    intro below entry hfound
    have hmem := (addDirectories_spec hdisk hclear).1.mem_iff.mpr
      ⟨by simp [innerPlan], hfound⟩
    have hall : ∀ entry ∈ (lockedSite.addDirectories innerPlan.output).entries,
        pathSize (innerPlan.output ++ entry.1.tail) ≤ pathLimit ∧
          ∀ name ∈ innerPlan.output ++ entry.1.tail, isOverlong name = false := by
      decide +kernel
    exact ⟨(hall _ hmem).1, (hall _ hmem).2⟩
  case hapart => exact .inr ⟨by decide, by decide, by decide +kernel⟩

/-- Of the three files of that site, the copy takes one that is excluded. -/
theorem copyTree_copiesFiles_iff_lockedSite :
    ∃ count after, runFrom (copyTree innerPlan.traversalExclusions innerPlan.source
        innerPlan.output) lockedSite = (.ok count, after) ∧
      CopiesFiles (entered innerPlan.traversalExclusions innerPlan.source) innerPlan.source
        innerPlan.output lockedSite count after := by
  obtain ⟨count, after, hrun, hcopies, -⟩ := copyTree_copiesFiles_iff copyable_lockedSite
  exact ⟨count, after, hrun, hcopies⟩

/-- The copy of that site counts three files, two of which are not excluded. -/
theorem copyTree_counts_lock :
    (runFrom (copyTree innerPlan.traversalExclusions innerPlan.source innerPlan.output)
        lockedSite).1 = .ok 3 ∧
      ¬CopiesFiles (spared innerPlan.traversalExclusions innerPlan.source) innerPlan.source
        innerPlan.output lockedSite 3 (runFrom (copyTree innerPlan.traversalExclusions
          innerPlan.source innerPlan.output) lockedSite).2 := by
  refine ⟨by cbv, fun hcopies => ?_⟩
  have htwo : ((Store.filesBelow lockedSite innerPlan.source).filter fun file =>
      spared innerPlan.traversalExclusions innerPlan.source file.1).length = 2 := by
    cbv
  exact absurd (hcopies.counted.trans htwo) (by decide)

end Plan

end PageLoom.Site
