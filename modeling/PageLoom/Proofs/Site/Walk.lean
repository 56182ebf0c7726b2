import PageLoom.Proofs.Disk.Entries
import PageLoom.Site.Document

/-!
# Walks over a tree

The search for documents looks at nothing but the tree under its root, and finds every document
once. A walk has enough height if all that lies below a directory is less high than that; more
height finds nothing more.
-/

namespace PageLoom.Site

variable {disk other : Disk} {root directory : Location} {exclude : List Location}
variable {below : List Text} {height : Nat}

/-- Everything below a directory, and the directory itself, is less high. -/
def Tall (disk : Disk) (directory : Location) (height : Nat) : Prop :=
  ∀ rest entry, disk.entry? (directory ++ rest) = some entry → rest.length < height

theorem tall_height (hdisk : disk.WellFormed) (directory : Location) :
    Tall disk directory (disk.height + 1) := by
  intro rest entry hfound
  by_cases hroot : directory ++ rest = []
  · rw [List.append_eq_nil_iff] at hroot
    simp [hroot.2]
  · have hheight := Disk.length_le_height (hdisk.mem_iff.mpr ⟨hroot, hfound⟩)
    rw [List.length_append] at hheight
    omega

theorem Tall.child (htall : Tall disk directory (height + 1)) (name : Text) :
    Tall disk (directory ++ [name]) height := by
  intro rest entry hfound
  rw [List.append_assoc] at hfound
  have hlength := htall ([name] ++ rest) entry hfound
  simp at hlength
  omega

/-- A directory has some height. -/
theorem Tall.pos (htall : Tall disk directory height)
    (hdirectory : disk.isDirectory directory = true) : ∃ lower, height = lower + 1 := by
  rw [Disk.isDirectory_iff, ← List.append_nil directory] at hdirectory
  exact Nat.exists_eq_succ_of_ne_zero (Nat.ne_of_gt (htall [] _ hdirectory))

theorem mem_foldersToVisit (hdisk : disk.WellFormed) {name : Text} :
    name ∈ foldersToVisit disk exclude directory ↔
      disk.entry? (directory ++ [name]) = some .directory ∧
        isExcluded exclude (directory ++ [name]) = false := by
  rw [foldersToVisit, List.mem_filter, hdisk.mem_directoriesIn, Bool.not_eq_true']

theorem foldersToVisit_of_among (exclude : List Location) {seen : Location → Bool}
    (hamong : disk.among seen = other.among seen)
    (hchildren : ∀ name, seen (directory ++ [name]) = true) :
    foldersToVisit disk exclude directory = foldersToVisit other exclude directory := by
  rw [foldersToVisit, foldersToVisit, Disk.directoriesIn, Disk.directoriesIn,
    Disk.namesIn_of_among hamong hchildren]

theorem foldersToVisit_of_under (exclude : List Location)
    (hunder : disk.under root = other.under root)
    (hdirectory : isWithin root directory = true) :
    foldersToVisit disk exclude directory = foldersToVisit other exclude directory :=
  foldersToVisit_of_among exclude hunder fun _ => isWithin_iff.mpr
    ((isWithin_iff.mp hdirectory).trans (List.prefix_append ..))

theorem isDirectory_of_among {seen : Location → Bool}
    (hamong : disk.among seen = other.among seen) (hdirectory : seen directory = true) :
    disk.isDirectory directory = other.isDirectory directory := by
  rw [Disk.isDirectory, Disk.isDirectory, Disk.entry?_of_among hamong hdirectory]

theorem isDirectory_of_under (hunder : disk.under root = other.under root)
    (hdirectory : isWithin root directory = true) :
    disk.isDirectory directory = other.isDirectory directory :=
  isDirectory_of_among hunder hdirectory

/-- The search for documents depends on nothing outside its root, and not on the height of the
disk. -/
theorem documentsBelow_congr (rule : DocumentRule) {otherHeight : Nat}
    (hunder : disk.under root = other.under root)
    (htall : Tall disk (root ++ below) height) (hother : Tall other (root ++ below) otherHeight) :
    documentsBelow disk rule root height below =
      documentsBelow other rule root otherHeight below := by
  induction height generalizing below otherHeight with
  | zero =>
      have hwithin : isWithin root (root ++ below) = true :=
        isWithin_iff.mpr (List.prefix_append ..)
      have habsent : disk.isDirectory (root ++ below) = false := by
        rw [Bool.eq_false_iff]
        intro hdirectory
        obtain ⟨lower, hlower⟩ := htall.pos hdirectory
        omega
      rw [documentsBelow]
      cases otherHeight with
      | zero => rfl
      | succ lower =>
          rw [documentsBelow, ← isDirectory_of_under hunder hwithin, habsent]
          rfl
  | succ height ih =>
      have hwithin : isWithin root (root ++ below) = true :=
        isWithin_iff.mpr (List.prefix_append ..)
      have hsame := isDirectory_of_under hunder hwithin
      cases hdirectory : disk.isDirectory (root ++ below) with
      | false =>
          rw [documentsBelow, hdirectory]
          cases otherHeight with
          | zero => rfl
          | succ lower =>
              rw [documentsBelow, ← hsame, hdirectory]
              rfl
      | true =>
          obtain ⟨lower, rfl⟩ := hother.pos (hsame ▸ hdirectory)
          have hfolders := foldersToVisit_of_under rule.exclude hunder hwithin
          have hfiles : disk.filesIn (root ++ below) = other.filesIn (root ++ below) :=
            Disk.namesIn_of_under hunder hwithin _
          have hbelow : ∀ name, documentsBelow disk rule root height (below ++ [name]) =
              documentsBelow other rule root lower (below ++ [name]) := by
            intro name
            apply ih
            · rw [← List.append_assoc]
              exact htall.child name
            · rw [← List.append_assoc]
              exact hother.child name
          simp only [documentsBelow, ← hsame, hdirectory, hfolders, hfiles, hbelow]

/-- The directories that the search for documents goes on in. -/
def searched (disk : Disk) (rule : DocumentRule) (root : Location) (below : List Text) :
    List Text :=
  if rule.depth.any fun depth => decide (depth ≤ (below.length : Int)) then []
  else foldersToVisit disk rule.exclude (root ++ below)

theorem documentsBelow_succ (rule : DocumentRule)
    (hdirectory : disk.isDirectory (root ++ below) = true) :
    documentsBelow disk rule root (height + 1) below =
      ((disk.filesIn (root ++ below)).map fun name => root ++ below ++ [name]).filter
          (isDocument rule root) ++
        (searched disk rule root below).flatMap fun name =>
          documentsBelow disk rule root height (below ++ [name]) := by
  rw [documentsBelow, if_pos hdirectory]
  rfl

theorem nodup_searched (hdisk : disk.WellFormed) (rule : DocumentRule) (root : Location)
    (below : List Text) : (searched disk rule root below).Nodup := by
  unfold searched
  split
  · exact List.nodup_nil
  · exact (hdisk.nodup_namesIn _ _).filter _

/-- What the search finds are files below the directory where it begins. -/
theorem of_mem_documentsBelow (hdisk : disk.WellFormed) {rule : DocumentRule} {found : Location}
    (hmem : found ∈ documentsBelow disk rule root height below) :
    disk.isFile found = true ∧ ∃ name rest, found = root ++ below ++ name :: rest := by
  induction height generalizing below with
  | zero => cases hmem
  | succ height ih =>
      cases hdirectory : disk.isDirectory (root ++ below) with
      | false =>
          rw [documentsBelow, hdirectory] at hmem
          cases hmem
      | true =>
          rw [documentsBelow_succ rule hdirectory, List.mem_append] at hmem
          rcases hmem with hmem | hmem
          · obtain ⟨name, hname, rfl⟩ := List.mem_map.mp (List.mem_filter.mp hmem).1
            exact ⟨Disk.isFile_iff.mpr (hdisk.mem_filesIn.mp hname), name, [], rfl⟩
          · obtain ⟨folder, -, hmem⟩ := List.mem_flatMap.mp hmem
            obtain ⟨hfile, name, rest, rfl⟩ := ih hmem
            exact ⟨hfile, folder, name :: rest, by simp⟩

theorem isDocument_of_mem_documentsBelow {rule : DocumentRule} {found : Location}
    (hmem : found ∈ documentsBelow disk rule root height below) :
    isDocument rule root found = true := by
  induction height generalizing below with
  | zero => cases hmem
  | succ height ih =>
      cases hdirectory : disk.isDirectory (root ++ below) with
      | false =>
          rw [documentsBelow, hdirectory] at hmem
          cases hmem
      | true =>
          rw [documentsBelow_succ rule hdirectory, List.mem_append] at hmem
          rcases hmem with hmem | hmem
          · exact (List.mem_filter.mp hmem).2
          · obtain ⟨folder, -, hmem⟩ := List.mem_flatMap.mp hmem
            exact ih hmem

/-- What a walk lists is listed once, if the places in each directory are, and those that are found
in a directory are apart from those deeper down. -/
theorem nodup_append_flatMap (base : List Text) {own : List (List Text)} {folders : List Text}
    {deeper : Text → List (List Text)} (hown : own.Nodup)
    (hownName : ∀ place ∈ own, ∃ name, place = base ++ [name]) (hfolders : folders.Nodup)
    (hdeeper : ∀ name, (deeper name).Nodup)
    (hdeeperName : ∀ name, ∀ place ∈ deeper name, ∃ first rest,
      place = base ++ name :: first :: rest) :
    (own ++ folders.flatMap deeper).Nodup := by
  rw [List.nodup_append, List.nodup_flatMap]
  refine ⟨hown, ⟨fun name _ => hdeeper name, hfolders.imp ?_⟩, ?_⟩
  · intro left right hne place hleft hright
    obtain ⟨first, rest, rfl⟩ := hdeeperName left place hleft
    obtain ⟨other, others, hsame⟩ := hdeeperName right _ hright
    rw [List.append_cancel_left_eq, List.cons.injEq] at hsame
    exact hne hsame.1
  · intro place hplace found hfound hsame
    obtain ⟨name, rfl⟩ := hownName place hplace
    obtain ⟨folder, -, hfound⟩ := List.mem_flatMap.mp hfound
    obtain ⟨first, rest, rfl⟩ := hdeeperName folder found hfound
    rw [List.append_cancel_left_eq] at hsame
    cases hsame

/-- No document is found twice. -/
theorem nodup_documentsBelow (hdisk : disk.WellFormed) (rule : DocumentRule) (root : Location)
    (height : Nat) (below : List Text) :
    (documentsBelow disk rule root height below).Nodup := by
  induction height generalizing below with
  | zero => exact List.nodup_nil
  | succ height ih =>
      cases hdirectory : disk.isDirectory (root ++ below) with
      | false =>
          rw [documentsBelow, hdirectory]
          exact List.nodup_nil
      | true =>
          rw [documentsBelow_succ rule hdirectory]
          have hfiles : ((disk.filesIn (root ++ below)).map fun name =>
              root ++ below ++ [name]).Nodup :=
            (hdisk.nodup_namesIn _ _).map fun left right hsame => by simpa using hsame
          refine nodup_append_flatMap (root ++ below) (hfiles.filter _) ?_
            (nodup_searched hdisk rule root below) (fun name => ih _) ?_
          · intro place hmem
            obtain ⟨name, -, rfl⟩ := List.mem_map.mp (List.mem_filter.mp hmem).1
            exact ⟨name, rfl⟩
          · intro name place hmem
            obtain ⟨-, first, rest, rfl⟩ := of_mem_documentsBelow hdisk hmem
            exact ⟨first, rest, by simp⟩

end PageLoom.Site
