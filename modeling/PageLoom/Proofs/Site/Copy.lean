import PageLoom.Proofs.Disk.Actions
import PageLoom.Proofs.Site.Walk

/-!
# Copies of a tree

Copying a tree sets, for every file and directory that the walk reaches, the same entry under the
output, and nothing else. The disk changes while the walk goes on, but not where the walk looks, so
that it reads at every moment what was there in the beginning. That is so if source and output are
apart, but also if the output lies in a directory of the source that the walk leaves out.
-/

namespace PageLoom.Site

open Disk DiskAction

/-- Whether the walk from a root copies what lies below it by some names: a directory if it is not
excluded, a file if its directory is not or is the root. -/
def Copies (exclude : List Location) (root : Location) (below : List Text) : Entry → Prop
  | .directory => isExcluded exclude (root ++ below) = false
  | .file _ => below.length = 1 ∨ isExcluded exclude (root ++ below.dropLast) = false

/-- Whether the walk comes to the directory of a file. -/
def entered (exclude : List Location) (root : Location) (below : List Text) : Bool :=
  decide (below.length = 1) || !isExcluded exclude (root ++ below.dropLast)

/-- Some names lead to something strictly below a directory that is copied. -/
def Chosen (origin : Disk) (exclude : List Location) (root : Location) (below names : List Text) :
    Prop :=
  ∃ first rest entry, names = below ++ first :: rest ∧
    origin.entry? (root ++ names) = some entry ∧ Copies exclude root names entry

/-- Nothing stands in the way of a copy, and no place of it is too long. -/
structure Roomy (origin : Disk) (exclude : List Location) (root output : Location) (disk : Disk) :
    Prop where
  fits : ∀ below, Chosen origin exclude root [] below → Fits (output ++ below)
  folders : ∀ below, Chosen origin exclude root [] below →
    origin.isDirectory (root ++ below) = true → disk.isFile (output ++ below) = false
  files : ∀ below, Chosen origin exclude root [] below →
    origin.isFile (root ++ below) = true → disk.isDirectory (output ++ below) = false

/-- The walk from a root looks at the root and at all that lies in a directory that it visits.
Nothing is copied to where it looks. -/
structure Watched (seen : Location → Bool) (origin : Disk) (exclude : List Location)
    (root output : Location) : Prop where
  base : seen root = true
  inside : ∀ below, below = [] ∨ isExcluded exclude (root ++ below) = false →
    ∀ name, seen (root ++ below ++ [name]) = true
  apart : ∀ below, Chosen origin exclude root [] below → seen (output ++ below) = false

/-- What some names lead to was copied, and nothing else has changed. -/
structure Copied (seen : Location → Bool) (origin : Disk) (root output : Location)
    (chosen : List Text → Prop) (before after : Disk) : Prop where
  wellFormed : after.WellFormed
  source : after.among seen = before.among seen
  copied : ∀ below, chosen below → after.entry? (output ++ below) = origin.entry? (root ++ below)
  kept : ∀ place, (∀ below, chosen below → place ≠ output ++ below) →
    after.entry? place = before.entry? place

section Copying

variable {origin disk between after : Disk} {root output : Location} {exclude : List Location}
variable {seen : Location → Bool} {chosen other : List Text → Prop} {below : List Text}
variable {name : Text}

theorem isExcluded_of_above {place location : Location} (hprefixed : place <+: location)
    (hexcluded : isExcluded exclude place = true) : isExcluded exclude location = true := by
  rw [isExcluded, List.any_eq_true] at hexcluded ⊢
  obtain ⟨directory, hmem, hwithin⟩ := hexcluded
  exact ⟨directory, hmem, isWithin_iff.mpr ((isWithin_iff.mp hwithin).trans hprefixed)⟩

theorem isExcluded_eq_false_of_above {place location : Location} (hprefixed : place <+: location)
    (hexcluded : isExcluded exclude location = false) : isExcluded exclude place = false := by
  rw [Bool.eq_false_iff] at hexcluded ⊢
  exact fun hplace => hexcluded (isExcluded_of_above hprefixed hplace)

namespace Copied

theorem refl (hdisk : disk.WellFormed) (hchosen : ∀ below, ¬chosen below) :
    Copied seen origin root output chosen disk disk :=
  ⟨hdisk, rfl, fun below hbelow => absurd hbelow (hchosen below), fun _ _ => rfl⟩

theorem trans (hfirst : Copied seen origin root output chosen disk between)
    (hthen : Copied seen origin root output other between after) :
    Copied seen origin root output (fun below => chosen below ∨ other below) disk after where
  wellFormed := hthen.wellFormed
  source := hthen.source.trans hfirst.source
  copied below hbelow := by
    by_cases hother : other below
    · exact hthen.copied below hother
    · rw [hthen.kept]
      · exact hfirst.copied below (hbelow.resolve_right hother)
      · intro names hnames hsame
        rw [List.append_cancel_left_eq] at hsame
        exact hother (hsame ▸ hnames)
  kept place hplace := by
    rw [hthen.kept place fun below hbelow => hplace below (.inr hbelow),
      hfirst.kept place fun below hbelow => hplace below (.inl hbelow)]

theorem congr (hcopied : Copied seen origin root output chosen disk after)
    (hsame : ∀ below, chosen below ↔ other below) :
    Copied seen origin root output other disk after where
  wellFormed := hcopied.wellFormed
  source := hcopied.source
  copied below hbelow := hcopied.copied below ((hsame below).mpr hbelow)
  kept place hplace := hcopied.kept place fun below hbelow => hplace below ((hsame below).mp hbelow)

/-- Where something was copied, there is now what is in the source; elsewhere what was there. -/
theorem entry?_below (hcopied : Copied seen origin root output chosen disk after)
    (below : List Text) :
    after.entry? (output ++ below) = origin.entry? (root ++ below) ∨
      after.entry? (output ++ below) = disk.entry? (output ++ below) := by
  by_cases hbelow : chosen below
  · exact .inl (hcopied.copied below hbelow)
  · right
    apply hcopied.kept
    intro names hnames hsame
    rw [List.append_cancel_left_eq] at hsame
    exact hbelow (hsame ▸ hnames)

theorem isDirectory (hcopied : Copied seen origin root output chosen disk after)
    (horigin : origin.isDirectory (root ++ below) = true)
    (hdisk : disk.isDirectory (output ++ below) = true) :
    after.isDirectory (output ++ below) = true := by
  rcases hcopied.entry?_below below with hentry | hentry
  · rwa [Disk.isDirectory, hentry]
  · rwa [Disk.isDirectory, hentry]

theorem roomy (hcopied : Copied seen origin root output chosen disk after)
    (hroomy : Roomy origin exclude root output disk) : Roomy origin exclude root output after where
  fits := hroomy.fits
  folders below hbelow hfolder := by
    rcases hcopied.entry?_below below with hentry | hentry
    · rw [isFile, hentry, isDirectory_iff.mp hfolder]
    · rw [isFile, hentry]
      exact hroomy.folders below hbelow hfolder
  files below hbelow hfile := by
    rcases hcopied.entry?_below below with hentry | hentry
    · obtain ⟨bytes, hfound⟩ := isFile_iff.mp hfile
      rw [Disk.isDirectory, hentry, hfound]
      rfl
    · rw [Disk.isDirectory, hentry]
      exact hroomy.files below hbelow hfile

end Copied

/-- The state of a copy whose walk is in a directory: where it looks all is as in the beginning, and
the directory is there in the output. -/
structure Walking (seen : Location → Bool) (origin : Disk) (exclude : List Location)
    (root output : Location) (below : List Text) (disk : Disk) : Prop where
  wellFormed : disk.WellFormed
  source : disk.among seen = origin.among seen
  roomy : Roomy origin exclude root output disk
  target : disk.isDirectory (output ++ below) = true

theorem Walking.of_copied (hwalking : Walking seen origin exclude root output below disk)
    (horigin : origin.isDirectory (root ++ below) = true)
    (hcopied : Copied seen origin root output chosen disk after) :
    Walking seen origin exclude root output below after :=
  ⟨hcopied.wellFormed, hcopied.source.trans hwalking.source, hcopied.roomy hwalking.roomy,
    hcopied.isDirectory horigin hwalking.target⟩

/-- What is chosen below a directory is chosen below the root. -/
theorem Chosen.of_root {names : List Text} (hchosen : Chosen origin exclude root below names) :
    Chosen origin exclude root [] names := by
  obtain ⟨first, rest, entry, rfl, hfound, hcopies⟩ := hchosen
  obtain ⟨head, tail, hsame⟩ :=
    List.exists_cons_of_ne_nil (l := below ++ first :: rest) (by simp)
  exact ⟨head, tail, entry, hsame, hfound, hcopies⟩

variable (hwatched : Watched seen origin exclude root output)

include hwatched in
theorem copied_makeDirectory (hwalking : Walking seen origin exclude root output below disk)
    (hname : origin.entry? (root ++ (below ++ [name])) = some .directory)
    (hchosen : Chosen origin exclude root [] (below ++ [name])) :
    ∃ after, runFrom (makeDirectory (output ++ below ++ [name])) disk = (.ok (), after) ∧
      Copied seen origin root output (· = below ++ [name]) disk after := by
  have hclear : disk.Clear (output ++ below ++ [name]) := by
    intro place hprefixed
    rcases List.prefix_concat_iff.mp hprefixed with rfl | hprefixed
    · rw [List.append_assoc]
      exact hwalking.roomy.folders _ hchosen (isDirectory_iff.mpr hname)
    · exact hwalking.wellFormed.clear hwalking.target place hprefixed
  have hfits : Fits (output ++ below ++ [name]) := by
    rw [List.append_assoc]
    exact hwalking.roomy.fits _ hchosen
  have hunseen : seen (output ++ below ++ [name]) = false := by
    rw [List.append_assoc]
    exact hwatched.apart _ hchosen
  obtain ⟨hwellFormed, hentry⟩ := addDirectories_spec hwalking.wellFormed hclear
  refine ⟨_, runFrom_makeDirectory hwalking.wellFormed hfits hclear, hwellFormed, ?_, ?_, ?_⟩
  · rw [addDirectories_concat,
      addDirectories_of_isDirectory hwalking.wellFormed hwalking.target]
    split
    · rfl
    · exact among_set hunseen _
  · rintro _ rfl
    rw [hentry, hname, List.append_assoc, if_pos (List.prefix_refl _)]
  · intro place hplace
    have hother : place ≠ output ++ below ++ [name] := by
      rw [List.append_assoc]
      exact hplace _ rfl
    rw [hentry]
    split
    · rename_i hprefixed
      -- Everything above the new directory was there before.
      have habove : place <+: output ++ below :=
        (List.prefix_concat_iff.mp hprefixed).resolve_left hother
      by_cases hsame : place = output ++ below
      · rw [hsame, isDirectory_iff.mp hwalking.target]
      · exact (isDirectory_iff.mp (hwalking.wellFormed.isDirectory_of_prefix
          (isDirectory_iff.mp hwalking.target) habove hsame)).symm
    · rfl

include hwatched in
theorem copied_copyFile (hwalking : Walking seen origin exclude root output below disk)
    {bytes : Bytes} (hreached : below = [] ∨ isExcluded exclude (root ++ below) = false)
    (hname : origin.entry? (root ++ (below ++ [name])) = some (.file bytes))
    (hchosen : Chosen origin exclude root [] (below ++ [name])) :
    ∃ after, runFrom (copyFile (root ++ below ++ [name]) (output ++ below ++ [name])) disk =
        (.ok (), after) ∧
      Copied seen origin root output (· = below ++ [name]) disk after := by
  have htarget : output ++ below ++ [name] ≠ [] := by simp
  have hparent : disk.isDirectory (output ++ below ++ [name]).dropLast = true := by
    rw [List.dropLast_concat]
    exact hwalking.target
  have hfree : disk.isDirectory (output ++ below ++ [name]) = false := by
    rw [List.append_assoc]
    exact hwalking.roomy.files _ hchosen (isFile_iff.mpr ⟨bytes, hname⟩)
  have hunseen : seen (output ++ below ++ [name]) = false := by
    rw [List.append_assoc]
    exact hwatched.apart _ hchosen
  have hlooked : seen (root ++ below ++ [name]) = true := hwatched.inside below hreached name
  have hsource : disk.entry? (root ++ below ++ [name]) = some (.file bytes) := by
    rw [entry?_of_among hwalking.source hlooked, List.append_assoc, hname]
  have hother : output ++ below ++ [name] ≠ root ++ below ++ [name] := by
    intro hsame
    rw [hsame, hlooked] at hunseen
    cases hunseen
  have hfits : Fits (output ++ below ++ [name]) := by
    rw [List.append_assoc]
    exact hwalking.roomy.fits _ hchosen
  refine ⟨_, runFrom_copyFile hwalking.wellFormed hfits htarget hparent hfree hother hsource,
    ?_, among_set hunseen _, ?_, ?_⟩
  · apply hwalking.wellFormed.set htarget hparent
    intro hdirectory
    rw [hfree] at hdirectory
    cases hdirectory
  · rintro _ rfl
    rw [entry?_set _ htarget, if_pos (by rw [List.append_assoc]), hname]
  · intro place hplace
    rw [entry?_set _ htarget, if_neg]
    rw [List.append_assoc]
    exact hplace _ rfl

include hwatched in
/-- The walk looks at every directory that it visits. -/
theorem Watched.seen_directory
    (hreached : below = [] ∨ isExcluded exclude (root ++ below) = false) :
    seen (root ++ below) = true := by
  cases below using List.reverseRecOn with
  | nil =>
      rw [List.append_nil]
      exact hwatched.base
  | append_singleton parent name =>
      have hparent : isExcluded exclude (root ++ parent) = false := by
        refine isExcluded_eq_false_of_above ?_ (hreached.resolve_left (by simp))
        exact ⟨[name], by simp⟩
      rw [← List.append_assoc]
      exact hwatched.inside parent (.inr hparent) name

/-! ## The walk -/

theorem copied_forM {names : List Text} {action : Text → DiskAction Unit}
    (horigin : origin.isDirectory (root ++ below) = true)
    (haction : ∀ name ∈ names, ∀ disk, Walking seen origin exclude root output below disk →
      ∃ after, runFrom (action name) disk = (.ok (), after) ∧
        Copied seen origin root output (· = below ++ [name]) disk after)
    (hwalking : Walking seen origin exclude root output below disk) :
    ∃ after, runFrom (names.forM action) disk = (.ok (), after) ∧
      Copied seen origin root output (fun other => ∃ name ∈ names, other = below ++ [name]) disk
        after := by
  induction names generalizing disk with
  | nil => exact ⟨disk, rfl, .refl hwalking.wellFormed (by simp)⟩
  | cons name rest ih =>
      obtain ⟨between, hrun, hfirst⟩ := haction name (List.mem_cons_self ..) disk hwalking
      obtain ⟨after, hrest, hthen⟩ :=
        ih (fun other hmem => haction other (List.mem_cons_of_mem _ hmem))
          (hwalking.of_copied horigin hfirst)
      refine ⟨after, ?_, (hfirst.trans hthen).congr (by simp)⟩
      change runFrom (action name >>= fun _ => rest.forM action) disk = _
      rw [runFrom_bind, hrun, andThen_ok, hrest]

theorem copied_mapM {β : Type} {names : List Text} {action : Text → DiskAction β}
    {value : Text → β} {chosen : Text → List Text → Prop} {I : Disk → Prop}
    (hkeep : ∀ disk after chosen, I disk →
      Copied seen origin root output chosen disk after → I after)
    (hwellFormed : ∀ disk, I disk → disk.WellFormed)
    (haction : ∀ name ∈ names, ∀ disk, I disk →
      ∃ after, runFrom (action name) disk = (.ok (value name), after) ∧
        Copied seen origin root output (chosen name) disk after)
    (hdisk : I disk) :
    ∃ after, runFrom (names.mapM action) disk = (.ok (names.map value), after) ∧
      Copied seen origin root output (fun other => ∃ name ∈ names, chosen name other) disk
        after := by
  induction names generalizing disk with
  | nil => exact ⟨disk, rfl, .refl (hwellFormed disk hdisk) (by simp)⟩
  | cons name rest ih =>
      obtain ⟨between, hrun, hfirst⟩ := haction name (List.mem_cons_self ..) disk hdisk
      obtain ⟨after, hrest, hthen⟩ :=
        ih (fun other hmem => haction other (List.mem_cons_of_mem _ hmem))
          (hkeep disk between _ hdisk hfirst)
      refine ⟨after, ?_, (hfirst.trans hthen).congr (by simp)⟩
      rw [List.mapM_cons, runFrom_bind, hrun, andThen_ok, runFrom_bind, hrest, andThen_ok]
      rfl

/-- The files that are chosen are those that the walk comes to. -/
theorem chosen_file_iff {bytes : Bytes}
    (hfile : origin.entry? (root ++ below) = some (.file bytes)) :
    Chosen origin exclude root [] below ↔ below ≠ [] ∧ entered exclude root below = true := by
  have hcopies : ∀ other, Copies exclude root below (.file other) ↔
      entered exclude root below = true := by
    intro other
    rw [Copies, entered, Bool.or_eq_true, decide_eq_true_eq, Bool.not_eq_true']
  constructor
  · rintro ⟨first, rest, entry, rfl, hfound, hchosen⟩
    rw [List.nil_append] at hfound hchosen
    cases hfile.symm.trans hfound
    exact ⟨by simp, (hcopies bytes).mp hchosen⟩
  · rintro ⟨hbelow, hentered⟩
    obtain ⟨first, rest, rfl⟩ := List.exists_cons_of_ne_nil hbelow
    exact ⟨first, rest, .file bytes, rfl, hfile, (hcopies bytes).mpr hentered⟩

/-- What is chosen below a directory that the walk reaches is in it, or below a directory in it that
the walk visits. -/
theorem chosen_iff (horigin : origin.WellFormed)
    (hreached : below = [] ∨ isExcluded exclude (root ++ below) = false) (names : List Text) :
    Chosen origin exclude root below names ↔
      ((∃ name ∈ foldersToVisit origin exclude (root ++ below), names = below ++ [name]) ∨
        ∃ name ∈ origin.filesIn (root ++ below), names = below ++ [name]) ∨
      ∃ name ∈ foldersToVisit origin exclude (root ++ below),
        Chosen origin exclude root (below ++ [name]) names := by
  constructor
  · rintro ⟨first, rest, entry, rfl, hfound, hcopies⟩
    cases rest with
    | nil =>
        left
        rw [← List.append_assoc] at hfound
        cases entry with
        | directory =>
            refine .inl ⟨first, (mem_foldersToVisit horigin).mpr ⟨hfound, ?_⟩, rfl⟩
            rw [List.append_assoc]
            exact hcopies
        | file bytes => exact .inr ⟨first, horigin.mem_filesIn.mpr ⟨bytes, hfound⟩, rfl⟩
    | cons second rest =>
        right
        have hdirectory : origin.isDirectory (root ++ below ++ [first]) = true := by
          apply horigin.isDirectory_of_prefix hfound
          · exact ⟨second :: rest, by simp⟩
          · intro hsame
            simp at hsame
        have hvisited : isExcluded exclude (root ++ below ++ [first]) = false := by
          cases entry with
          | directory => exact isExcluded_eq_false_of_above ⟨second :: rest, by simp⟩ hcopies
          | file bytes =>
              rcases hcopies with hlength | hcopies
              · simp at hlength
                omega
              · refine isExcluded_eq_false_of_above ⟨(second :: rest).dropLast, ?_⟩ hcopies
                rw [List.dropLast_append_of_ne_nil (by simp)]
                simp
        exact ⟨first, (mem_foldersToVisit horigin).mpr ⟨isDirectory_iff.mp hdirectory, hvisited⟩,
          second, rest, entry, by simp, hfound, hcopies⟩
  · rintro ((⟨name, hmem, rfl⟩ | ⟨name, hmem, rfl⟩) | ⟨name, -, first, rest, entry, rfl, hchosen⟩)
    · obtain ⟨hfound, hvisited⟩ := (mem_foldersToVisit horigin).mp hmem
      rw [List.append_assoc] at hfound hvisited
      exact ⟨name, [], .directory, rfl, hfound, hvisited⟩
    · obtain ⟨bytes, hfound⟩ := horigin.mem_filesIn.mp hmem
      rw [List.append_assoc] at hfound
      refine ⟨name, [], .file bytes, rfl, hfound, ?_⟩
      rcases hreached with rfl | hreached
      · exact .inl rfl
      · right
        rwa [List.dropLast_concat]
    · exact ⟨name, first :: rest, entry, by simp, hchosen⟩

/-- The files that the walk copies from a directory, as names below the root. -/
def copiedFiles (origin : Disk) (exclude : List Location) (root : Location) :
    Nat → List Text → List (List Text)
  | 0, _ => []
  | height + 1, below =>
    (origin.filesIn (root ++ below)).map (fun name => below ++ [name]) ++
      (foldersToVisit origin exclude (root ++ below)).flatMap fun name =>
        copiedFiles origin exclude root height (below ++ [name])

variable {height : Nat}

theorem mem_copiedFiles (horigin : origin.WellFormed)
    (hreached : below = [] ∨ isExcluded exclude (root ++ below) = false)
    (htall : Tall origin (root ++ below) height)
    (hdirectory : origin.isDirectory (root ++ below) = true) (names : List Text) :
    names ∈ copiedFiles origin exclude root height below ↔
      Chosen origin exclude root below names ∧ origin.isFile (root ++ names) = true := by
  induction height generalizing below with
  | zero =>
      obtain ⟨lower, hlower⟩ := htall.pos hdirectory
      omega
  | succ height ih =>
      have hfolder : ∀ name ∈ foldersToVisit origin exclude (root ++ below),
          (names ∈ copiedFiles origin exclude root height (below ++ [name]) ↔
            Chosen origin exclude root (below ++ [name]) names ∧
              origin.isFile (root ++ names) = true) := by
        intro name hmem
        obtain ⟨hfound, hvisited⟩ := (mem_foldersToVisit horigin).mp hmem
        rw [List.append_assoc] at hfound hvisited
        apply ih (.inr hvisited)
        · rw [← List.append_assoc]
          exact htall.child name
        · exact isDirectory_iff.mpr hfound
      rw [copiedFiles, List.mem_append, List.mem_map, List.mem_flatMap,
        chosen_iff horigin hreached names]
      constructor
      · rintro (⟨name, hmem, rfl⟩ | ⟨name, hmem, hnames⟩)
        · have hfile := horigin.mem_filesIn.mp hmem
          rw [List.append_assoc] at hfile
          exact ⟨.inl (.inr ⟨name, hmem, rfl⟩), isFile_iff.mpr hfile⟩
        · obtain ⟨hchosen, hfile⟩ := (hfolder name hmem).mp hnames
          exact ⟨.inr ⟨name, hmem, hchosen⟩, hfile⟩
      · rintro ⟨(⟨name, hmem, rfl⟩ | ⟨name, hmem, rfl⟩) | ⟨name, hmem, hchosen⟩, hfile⟩
        · obtain ⟨hfound, -⟩ := (mem_foldersToVisit horigin).mp hmem
          rw [List.append_assoc] at hfound
          rw [isFile, hfound] at hfile
          cases hfile
        · exact .inl ⟨name, hmem, rfl⟩
        · exact .inr ⟨name, hmem, (hfolder name hmem).mpr ⟨hchosen, hfile⟩⟩

theorem below_of_mem_copiedFiles {names : List Text}
    (hmem : names ∈ copiedFiles origin exclude root height below) :
    ∃ first rest, names = below ++ first :: rest := by
  induction height generalizing below with
  | zero => cases hmem
  | succ height ih =>
      rw [copiedFiles, List.mem_append] at hmem
      rcases hmem with hmem | hmem
      · obtain ⟨name, -, rfl⟩ := List.mem_map.mp hmem
        exact ⟨name, [], rfl⟩
      · obtain ⟨name, -, hmem⟩ := List.mem_flatMap.mp hmem
        obtain ⟨first, rest, rfl⟩ := ih hmem
        exact ⟨name, first :: rest, by simp⟩

theorem nodup_copiedFiles (horigin : origin.WellFormed) (exclude : List Location)
    (root : Location) (height : Nat) (below : List Text) :
    (copiedFiles origin exclude root height below).Nodup := by
  induction height generalizing below with
  | zero => exact List.nodup_nil
  | succ height ih =>
      rw [copiedFiles]
      refine nodup_append_flatMap below ?_ ?_ ((horigin.nodup_namesIn _ _).filter _)
        (fun name => ih _) ?_
      · exact (horigin.nodup_namesIn _ _).map fun left right hsame => by simpa using hsame
      · intro place hmem
        obtain ⟨name, -, rfl⟩ := List.mem_map.mp hmem
        exact ⟨name, rfl⟩
      · intro name place hmem
        obtain ⟨first, rest, rfl⟩ := below_of_mem_copiedFiles hmem
        exact ⟨first, rest, by simp⟩

theorem foldl_length {α β : Type} (lists : α → List β) (names : List α) (start : Nat) :
    (names.map fun name => (lists name).length).foldl (· + ·) start =
      start + (names.flatMap lists).length := by
  induction names generalizing start with
  | nil => rfl
  | cons name rest ih =>
      rw [List.map_cons, List.foldl_cons, ih, List.flatMap_cons, List.length_append, Nat.add_assoc]

include hwatched in
/-- The walk from a directory that it reaches copies all that is chosen below it. -/
theorem copied_copyBelow (horigin : origin.WellFormed)
    (hreached : below = [] ∨ isExcluded exclude (root ++ below) = false)
    (htall : Tall origin (root ++ below) height)
    (hdirectory : origin.isDirectory (root ++ below) = true)
    (hwalking : Walking seen origin exclude root output below disk) :
    ∃ after, runFrom (copyBelow exclude root output height below) disk =
        (.ok (copiedFiles origin exclude root height below).length, after) ∧
      Copied seen origin root output (Chosen origin exclude root below) disk after := by
  induction height generalizing below disk with
  | zero =>
      obtain ⟨lower, hlower⟩ := htall.pos hdirectory
      omega
  | succ height ih =>
      have hchildren := hwatched.inside below hreached
      have hfolders := foldersToVisit_of_among exclude hwalking.source hchildren
      have hfiles : disk.filesIn (root ++ below) = origin.filesIn (root ++ below) :=
        namesIn_of_among hwalking.source hchildren _
      have hthere : disk.isDirectory (root ++ below) = true := by
        rw [isDirectory_of_among hwalking.source (hwatched.seen_directory hreached), hdirectory]
      have hfolder : ∀ name ∈ foldersToVisit origin exclude (root ++ below),
          origin.entry? (root ++ (below ++ [name])) = some .directory ∧
            isExcluded exclude (root ++ (below ++ [name])) = false := by
        intro name hmem
        rw [← List.append_assoc]
        exact (mem_foldersToVisit horigin).mp hmem
      have hchosen : ∀ names, _ → Chosen origin exclude root [] names := fun names hnames =>
        ((chosen_iff horigin hreached names).mpr (.inl hnames)).of_root
      -- First the directories are made, then the files are copied, then the walk goes on.
      obtain ⟨made, hmake, hmade⟩ := copied_forM hdirectory (fun name hmem disk hwalking =>
        copied_makeDirectory hwatched hwalking (hfolder name hmem).1
          (hchosen _ (.inl ⟨name, hmem, rfl⟩))) hwalking
      have hwalkingMade := hwalking.of_copied hdirectory hmade
      obtain ⟨filled, hfill, hfilled⟩ := copied_forM hdirectory (fun name hmem disk hwalking => by
        obtain ⟨bytes, hfound⟩ := horigin.mem_filesIn.mp hmem
        rw [List.append_assoc] at hfound
        exact copied_copyFile hwatched hwalking hreached hfound
          (hchosen _ (.inr ⟨name, hmem, rfl⟩))) hwalkingMade
      have hthereFilled : ∀ name ∈ foldersToVisit origin exclude (root ++ below),
          filled.isDirectory (output ++ (below ++ [name])) = true := by
        intro name hmem
        have hfound := (hfolder name hmem).1
        apply hfilled.isDirectory (isDirectory_iff.mpr hfound)
        rw [isDirectory_iff, hmade.copied _ ⟨name, hmem, rfl⟩, hfound]
      obtain ⟨after, hgo, hgone⟩ := copied_mapM
        (I := fun disk => Walking seen origin exclude root output below disk ∧
          ∀ name ∈ foldersToVisit origin exclude (root ++ below),
            disk.isDirectory (output ++ (below ++ [name])) = true)
        (fun disk after chosen hdisk hcopied => ⟨hdisk.1.of_copied hdirectory hcopied,
          fun name hmem => hcopied.isDirectory (isDirectory_iff.mpr (hfolder name hmem).1)
            (hdisk.2 name hmem)⟩)
        (fun disk hdisk => hdisk.1.wellFormed)
        (fun name hmem disk hdisk => by
          obtain ⟨hfound, hvisited⟩ := hfolder name hmem
          have htallName := htall.child name
          rw [List.append_assoc] at htallName
          exact ih (.inr hvisited) htallName (isDirectory_iff.mpr hfound)
            ⟨hdisk.1.wellFormed, hdisk.1.source, hdisk.1.roomy, hdisk.2 name hmem⟩)
        ⟨hwalkingMade.of_copied hdirectory hfilled, hthereFilled⟩
      refine ⟨after, ?_, ((hmade.trans hfilled).trans hgone).congr
        fun names => (chosen_iff horigin hreached names).symm⟩
      rw [copyBelow, runFrom_bind, runFrom_get, andThen_ok]
      simp only [hthere, if_true, hfolders, hfiles]
      rw [runFrom_bind, hmake, andThen_ok, runFrom_bind, hfill, andThen_ok, runFrom_bind, hgo,
        andThen_ok, runFrom_pure, copiedFiles, List.length_append, List.length_map,
        foldl_length]

/-- A copy of a whole tree, if nothing is in its way once the output is there: everything chosen is
copied, and the files among it are counted. -/
theorem copied_copyTree (hdisk : disk.WellFormed) (hclear : disk.Clear output)
    (hfits : Fits output) (hdirectory : (disk.addDirectories output).isDirectory root = true)
    (hroomy : Roomy (disk.addDirectories output) exclude root output (disk.addDirectories output))
    (hwatched : Watched seen (disk.addDirectories output) exclude root output) :
    ∃ after, runFrom (copyTree exclude root output) disk =
        (.ok (copiedFiles (disk.addDirectories output) exclude root
          ((disk.addDirectories output).height + 1) []).length, after) ∧
      Copied seen (disk.addDirectories output) root output
        (Chosen (disk.addDirectories output) exclude root []) (disk.addDirectories output)
        after := by
  obtain ⟨hadded, hentry⟩ := addDirectories_spec hdisk hclear
  have htall : Tall (disk.addDirectories output) (root ++ [])
      ((disk.addDirectories output).height + 1) := tall_height hadded _
  have hwalking : Walking seen (disk.addDirectories output) exclude root output []
      (disk.addDirectories output) := by
    refine ⟨hadded, rfl, hroomy, ?_⟩
    rw [List.append_nil, isDirectory_iff, hentry, if_pos (List.prefix_refl _)]
  obtain ⟨after, hrun, hcopied⟩ := copied_copyBelow hwatched hadded (.inl rfl) htall
    (by rwa [List.append_nil]) hwalking
  refine ⟨after, ?_, hcopied⟩
  rw [copyTree, runFrom_bind, runFrom_makeDirectory hdisk hfits hclear, andThen_ok, runFrom_bind,
    runFrom_get, andThen_ok, hrun]

/-- If root and output are apart, a walk that looks at all that is under the root is not
disturbed. -/
theorem watched_of_apart (hroot : isWithin root output = false)
    (houtput : isWithin output root = false) :
    Watched (isWithin root) origin exclude root output where
  base := isWithin_iff.mpr (List.prefix_refl _)
  inside below _ name := isWithin_iff.mpr (by
    rw [List.append_assoc]
    exact List.prefix_append ..)
  apart below _ := not_isWithin_append hroot houtput below

theorem not_prefix_append_self {names : List Text} (hnames : names ≠ []) :
    ¬output ++ names <+: output := by
  intro hprefixed
  have hlength := hprefixed.length_le
  have hpositive := List.length_pos_of_ne_nil hnames
  rw [List.length_append] at hlength
  omega

end Copying

end PageLoom.Site
