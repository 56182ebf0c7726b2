import Mathlib.Data.List.Induction
import Mathlib.Data.List.Nodup
import Mathlib.Tactic.Common
import PageLoom.Disk.Basic
import PageLoom.Proofs.Table

/-!
# What is on a disk

A disk is well-formed if every location stands once, and in a directory. What is at a location, what
lies in a directory and what lies under a root are then told from the entries of the disk, and
setting one entry changes nothing but that entry.
-/

namespace PageLoom

theorem isWithin_iff {directory names : List Text} :
    isWithin directory names = true ↔ directory <+: names := List.isPrefixOf_iff_prefix

theorem below?_eq_some {directory names rest : List Text} :
    below? directory names = some rest ↔ names = directory ++ rest := by
  unfold below?
  by_cases hprefixed : directory.isPrefixOf names = true
  · obtain ⟨others, rfl⟩ := List.isPrefixOf_iff_prefix.mp hprefixed
    rw [if_pos hprefixed, List.drop_left, Option.some.injEq, List.append_cancel_left_eq]
  · rw [if_neg hprefixed]
    constructor
    · intro hsome
      cases hsome
    · rintro rfl
      exact absurd (List.isPrefixOf_iff_prefix.mpr (List.prefix_append ..)) hprefixed

@[simp]
theorem below?_append (directory rest : List Text) :
    below? directory (directory ++ rest) = some rest := below?_eq_some.mpr rfl

/-- What is above a place outside a directory is outside it too. -/
theorem not_isWithin_of_above {directory above names : List Text}
    (hnames : isWithin directory names = false) (habove : above <+: names) :
    isWithin directory above = false := by
  rw [Bool.eq_false_iff] at hnames ⊢
  intro hwithin
  exact hnames (isWithin_iff.mpr ((isWithin_iff.mp hwithin).trans habove))

/-- Nothing lies within both of two directories of which neither lies within the other. -/
theorem not_isWithin_append {left right : Location} (hleft : isWithin left right = false)
    (hright : isWithin right left = false) (rest : List Text) :
    isWithin left (right ++ rest) = false := by
  rw [Bool.eq_false_iff] at hleft hright ⊢
  intro hwithin
  rcases List.prefix_or_prefix_of_prefix (isWithin_iff.mp hwithin) (List.prefix_append right rest)
    with hprefixed | hprefixed
  · exact hleft (isWithin_iff.mpr hprefixed)
  · exact hright (isWithin_iff.mpr hprefixed)

/-- What is found in entries with distinct keys is distinct if it tells the key it was found at. -/
theorem nodup_filterMap_of_keys {α β γ : Type} {entries : List (α × β)}
    {found? : α × β → Option γ} (hnodup : (entries.map Prod.fst).Nodup)
    (hkey : ∀ left ∈ entries, ∀ right ∈ entries, ∀ value, found? left = some value →
      found? right = some value → left.1 = right.1) :
    (entries.filterMap found?).Nodup := by
  rw [List.nodup_iff_pairwise_ne, List.pairwise_map] at hnodup
  rw [List.nodup_iff_pairwise_ne, List.pairwise_filterMap]
  refine hnodup.imp_of_mem ?_
  rintro left right hleft hright hne value hvalue other hother rfl
  exact hne (hkey left hleft right hright value hvalue hother)

namespace Disk

variable {disk other : Disk} {location place : Location} {entry : Entry}

@[simp]
theorem entry?_root (disk : Disk) : disk.entry? [] = some .directory := rfl

theorem entry?_of_ne (hlocation : location ≠ []) :
    disk.entry? location = disk.entries.lookup location := by
  rw [Disk.entry?, if_neg (by simpa using hlocation)]

theorem entry?_set (disk : Disk) (hlocation : location ≠ []) (entry : Entry) (place : Location) :
    Disk.entry? (disk.set location entry) place =
      if place = location then some entry else disk.entry? place := by
  by_cases hplace : place = []
  · subst hplace
    rw [if_neg hlocation.symm]
    rfl
  · rw [entry?_of_ne hplace, entry?_of_ne hplace, set, Table.lookup_put]

theorem isDirectory_iff : disk.isDirectory location = true ↔
    disk.entry? location = some .directory := by
  simp [isDirectory]

theorem isFile_iff : disk.isFile location = true ↔
    ∃ bytes, disk.entry? location = some (.file bytes) := by
  unfold isFile
  cases disk.entry? location with
  | none => simp
  | some entry => cases entry <;> simp

theorem ne_nil_of_isFile (hfile : disk.isFile location = true) : location ≠ [] := by
  rintro rfl
  cases hfile

/-- What is a file below a directory has a name there. -/
theorem ne_nil_of_isFile_append {root below : List Text} (hroot : disk.isDirectory root = true)
    (hfile : disk.isFile (root ++ below) = true) : below ≠ [] := by
  rintro rfl
  rw [List.append_nil, isFile, isDirectory_iff.mp hroot] at hfile
  cases hfile

theorem read_eq_ok {bytes : Bytes} : disk.read location = .ok bytes ↔
    disk.entry? location = some (.file bytes) := by
  rw [read]
  cases disk.entry? location with
  | none => simp
  | some entry => cases entry <;> simp

theorem exists?_of_isDirectory (hdirectory : disk.isDirectory location = true) :
    disk.exists? location = true := by
  rw [exists?, isDirectory_iff.mp hdirectory, Option.isSome_some]

/-! ## Well-formed disks -/

/-- Every location stands once, is not the root, and lies in a directory. -/
structure WellFormed (disk : Disk) : Prop where
  nodup : (disk.entries.map Prod.fst).Nodup
  rooted : ∀ entry ∈ disk.entries, entry.1 ≠ []
  parent : ∀ entry ∈ disk.entries, disk.isDirectory entry.1.dropLast = true

instance (disk : Disk) : Decidable disk.WellFormed :=
  decidable_of_iff ((disk.entries.map Prod.fst).Nodup ∧ (∀ entry ∈ disk.entries, entry.1 ≠ []) ∧
      ∀ entry ∈ disk.entries, disk.isDirectory entry.1.dropLast = true)
    ⟨fun ⟨hnodup, hrooted, hparent⟩ => ⟨hnodup, hrooted, hparent⟩,
      fun hdisk => ⟨hdisk.nodup, hdisk.rooted, hdisk.parent⟩⟩

theorem WellFormed.mem_iff (hdisk : disk.WellFormed) :
    (location, entry) ∈ disk.entries ↔ location ≠ [] ∧ disk.entry? location = some entry := by
  rw [← Table.lookup_eq_some_iff hdisk.nodup]
  constructor
  · intro hfound
    have hlocation := hdisk.rooted _ ((Table.lookup_eq_some_iff hdisk.nodup).mp hfound)
    exact ⟨hlocation, by rw [entry?_of_ne hlocation, hfound]⟩
  · rintro ⟨hlocation, hfound⟩
    rw [← hfound, entry?_of_ne hlocation]

theorem WellFormed.isDirectory_dropLast (hdisk : disk.WellFormed)
    (hfound : disk.entry? location = some entry) :
    disk.isDirectory location.dropLast = true := by
  by_cases hlocation : location = []
  · rw [hlocation]
    rfl
  · exact hdisk.parent _ (hdisk.mem_iff.mpr ⟨hlocation, hfound⟩)

/-- Above whatever is on the disk there are directories. -/
theorem WellFormed.isDirectory_of_prefix (hdisk : disk.WellFormed)
    (hfound : disk.entry? location = some entry) (hprefixed : place <+: location)
    (hplace : place ≠ location) : disk.isDirectory place = true := by
  obtain ⟨rest, rfl⟩ := hprefixed
  induction rest using List.reverseRecOn generalizing entry with
  | nil => simp at hplace
  | append_singleton rest name ih =>
      have hparent := hdisk.isDirectory_dropLast hfound
      rw [← List.append_assoc, List.dropLast_concat] at hparent
      by_cases hrest : rest = []
      · rwa [hrest, List.append_nil] at hparent
      · exact ih (isDirectory_iff.mp hparent) (by simpa using hrest)

/-- A disk stays well-formed when an entry is set in a directory, unless it takes the place of
another directory. -/
theorem WellFormed.set (hdisk : disk.WellFormed) (hlocation : location ≠ [])
    (hparent : disk.isDirectory location.dropLast = true)
    (hkeeps : disk.isDirectory location = true → entry = .directory) :
    (disk.set location entry).WellFormed := by
  have hnodup : ((disk.set location entry).entries.map Prod.fst).Nodup := by
    rw [Disk.set, Table.keys_put]
    split
    · exact hdisk.nodup
    · rename_i hmem
      exact List.Nodup.append hdisk.nodup (List.nodup_singleton _) (by simpa using hmem)
  have hkept : ∀ place, disk.isDirectory place = true →
      (disk.set location entry).isDirectory place = true := by
    intro place hplace
    rw [isDirectory_iff, entry?_set disk hlocation]
    by_cases hsame : place = location
    · subst hsame
      rw [if_pos rfl, hkeeps hplace]
    · rw [if_neg hsame, isDirectory_iff.mp hplace]
  have hmem : ∀ new ∈ (disk.set location entry).entries,
      new = (location, entry) ∨ new ∈ disk.entries := fun new hnew => Table.mem_put hnew
  refine ⟨hnodup, ?_, ?_⟩
  · intro new hnew
    rcases hmem new hnew with rfl | hold
    · exact hlocation
    · exact hdisk.rooted new hold
  · intro new hnew
    rcases hmem new hnew with rfl | hold
    · exact hkept _ hparent
    · exact hkept _ (hdisk.parent new hold)

/-! ## Removal -/

theorem lookup_filter_ne (entries : List (Location × Entry)) (location place : Location) :
    (entries.filter fun entry => entry.1 != location).lookup place =
      if place = location then none else entries.lookup place := by
  induction entries with
  | nil => simp
  | cons head rest ih =>
      obtain ⟨first, old⟩ := head
      rw [List.filter_cons, List.lookup_cons]
      by_cases hfirst : first = location
      · rw [if_neg (by simp [hfirst]), ih]
        by_cases hplace : place = location
        · simp [hplace]
        · simp [hplace, hfirst, beq_eq_false_iff_ne.mpr hplace]
      · rw [if_pos (by simpa using hfirst), List.lookup_cons, ih]
        by_cases hplace : place = first
        · simp [hplace, hfirst]
        · simp [beq_eq_false_iff_ne.mpr hplace]

theorem entry?_erase (disk : Disk) (hlocation : location ≠ []) (place : Location) :
    Disk.entry? (disk.erase location) place =
      if place = location then none else disk.entry? place := by
  by_cases hplace : place = []
  · subst hplace
    rw [if_neg hlocation.symm]
    rfl
  · rw [entry?_of_ne hplace, entry?_of_ne hplace, erase, lookup_filter_ne]

/-- A disk stays well-formed without a file. -/
theorem WellFormed.erase (hdisk : disk.WellFormed) (hfile : disk.isFile location = true) :
    (disk.erase location).WellFormed := by
  obtain ⟨bytes, hbytes⟩ := isFile_iff.mp hfile
  have hmem : ∀ old ∈ (disk.erase location).entries, old ∈ disk.entries :=
    fun old hold => (List.mem_filter.mp hold).1
  refine ⟨hdisk.nodup.sublist (List.filter_sublist.map _),
    fun old hold => hdisk.rooted old (hmem old hold), fun old hold => ?_⟩
  have hparent := isDirectory_iff.mp (hdisk.parent old (hmem old hold))
  have hother : old.1.dropLast ≠ location := by
    intro hsame
    rw [hsame, hbytes] at hparent
    cases hparent
  rw [isDirectory_iff, entry?_erase disk (ne_nil_of_isFile hfile), if_neg hother, hparent]

/-! ## What is looked at -/

/-- The entries at the places that are looked at. -/
def among (seen : Location → Bool) (disk : Disk) : List (Location × Entry) :=
  disk.entries.filter fun entry => seen entry.1

variable {seen : Location → Bool}

theorem among_set (hunseen : seen location = false) (entry : Entry) :
    (disk.set location entry).among seen = disk.among seen := by
  have hentries : ∀ entries : List (Location × Entry),
      (Table.put entries location entry).filter (fun entry => seen entry.1) =
        entries.filter fun entry => seen entry.1 := by
    intro entries
    induction entries with
    | nil => simp [Table.put, hunseen]
    | cons head rest ih =>
        rw [Table.put]
        by_cases hfirst : head.1 = location
        · have hhead : seen head.1 = false := by rw [hfirst, hunseen]
          rw [if_pos hfirst]
          simp [hunseen, hhead]
        · rw [if_neg hfirst, List.filter_cons, List.filter_cons, ih]
  exact hentries disk.entries

theorem lookup_among (disk : Disk) (hplace : seen place = true) :
    (disk.among seen).lookup place = disk.entries.lookup place := by
  unfold among
  induction disk.entries with
  | nil => rfl
  | cons head rest ih =>
      by_cases hhead : seen head.1 = true
      · rw [List.filter_cons, if_pos hhead, List.lookup_cons, List.lookup_cons, ih]
      · have hother : place ≠ head.1 := fun hsame => hhead (hsame ▸ hplace)
        rw [List.filter_cons, if_neg hhead, List.lookup_cons, ih, beq_eq_false_iff_ne.mpr hother]

theorem entry?_of_among (hamong : disk.among seen = other.among seen)
    (hplace : seen place = true) : disk.entry? place = other.entry? place := by
  by_cases hroot : place = []
  · rw [hroot]
    rfl
  · rw [entry?_of_ne hroot, entry?_of_ne hroot, ← lookup_among disk hplace, hamong,
      lookup_among other hplace]

/-- What is found only where it is looked at is found among the entries there. -/
theorem filterMap_among {α : Type} {found? : Location × Entry → Option α}
    (hseen : ∀ entry value, found? entry = some value → seen entry.1 = true)
    (disk : Disk) : (disk.among seen).filterMap found? = disk.entries.filterMap found? := by
  rw [among, List.filterMap_filter]
  refine List.filterMap_congr fun entry _ => ?_
  split
  · rfl
  · rename_i hunseen
    rw [eq_comm, Option.eq_none_iff_forall_ne_some]
    exact fun value hfound => hunseen (hseen entry value hfound)

/-! ## What lies under a root -/

/-- The entries at a root and below it. -/
def under (root : Location) (disk : Disk) : List (Location × Entry) :=
  disk.entries.filter fun entry => isWithin root entry.1

variable {root : Location}

theorem under_set (houtside : isWithin root location = false) (entry : Entry) :
    (disk.set location entry).under root = disk.under root := among_set houtside entry

theorem entry?_of_under (hunder : disk.under root = other.under root)
    (hplace : isWithin root place = true) : disk.entry? place = other.entry? place :=
  entry?_of_among hunder hplace

/-! ## Names in a directory -/

/-- The name of an entry that lies in a directory and is accepted. -/
def nameIn? (directory : Location) (accept : Entry → Bool) (entry : Location × Entry) :
    Option Text :=
  match below? directory entry.1 with
  | some [name] => if accept entry.2 then some name else none
  | _ => none

theorem namesIn_eq (disk : Disk) (directory : Location) (accept : Entry → Bool) :
    disk.namesIn directory accept =
      (disk.entries.filterMap (nameIn? directory accept)).mergeSort Text.atMost := rfl

theorem nameIn?_eq_some {directory : Location} {accept : Entry → Bool} {name : Text} :
    nameIn? directory accept (location, entry) = some name ↔
      location = directory ++ [name] ∧ accept entry = true := by
  unfold nameIn?
  constructor
  · intro hsome
    split at hsome
    · rename_i first hbelow
      split_ifs at hsome with haccept
      cases hsome
      exact ⟨below?_eq_some.mp hbelow, haccept⟩
    · cases hsome
  · rintro ⟨rfl, haccept⟩
    simp [haccept]

variable {directory : Location} {accept : Entry → Bool} {name : Text}

theorem WellFormed.mem_namesIn (hdisk : disk.WellFormed) :
    name ∈ disk.namesIn directory accept ↔
      ∃ entry, disk.entry? (directory ++ [name]) = some entry ∧ accept entry = true := by
  rw [namesIn_eq, List.mem_mergeSort, List.mem_filterMap]
  constructor
  · rintro ⟨⟨location, entry⟩, hmem, hname⟩
    obtain ⟨rfl, haccept⟩ := nameIn?_eq_some.mp hname
    exact ⟨entry, (hdisk.mem_iff.mp hmem).2, haccept⟩
  · rintro ⟨entry, hfound, haccept⟩
    exact ⟨(directory ++ [name], entry), hdisk.mem_iff.mpr ⟨by simp, hfound⟩,
      nameIn?_eq_some.mpr ⟨rfl, haccept⟩⟩

theorem WellFormed.mem_directoriesIn (hdisk : disk.WellFormed) :
    name ∈ disk.directoriesIn directory ↔
      disk.entry? (directory ++ [name]) = some .directory := by
  rw [directoriesIn, hdisk.mem_namesIn]
  constructor
  · rintro ⟨entry, hfound, haccept⟩
    cases entry with
    | file bytes => cases haccept
    | directory => exact hfound
  · exact fun hfound => ⟨.directory, hfound, rfl⟩

theorem WellFormed.mem_filesIn (hdisk : disk.WellFormed) :
    name ∈ disk.filesIn directory ↔
      ∃ bytes, disk.entry? (directory ++ [name]) = some (.file bytes) := by
  rw [filesIn, hdisk.mem_namesIn]
  constructor
  · rintro ⟨entry, hfound, haccept⟩
    cases entry with
    | file bytes => exact ⟨bytes, hfound⟩
    | directory => cases haccept
  · rintro ⟨bytes, hfound⟩
    exact ⟨.file bytes, hfound, rfl⟩

theorem WellFormed.nodup_namesIn (hdisk : disk.WellFormed) (directory : Location)
    (accept : Entry → Bool) : (disk.namesIn directory accept).Nodup := by
  rw [namesIn_eq, (List.mergeSort_perm _ _).nodup_iff]
  apply nodup_filterMap_of_keys hdisk.nodup
  rintro ⟨left, leftEntry⟩ - ⟨right, rightEntry⟩ - name hleft hright
  rw [(nameIn?_eq_some.mp hleft).1, (nameIn?_eq_some.mp hright).1]

theorem namesIn_of_among (hamong : disk.among seen = other.among seen)
    (hchildren : ∀ name, seen (directory ++ [name]) = true) (accept : Entry → Bool) :
    disk.namesIn directory accept = other.namesIn directory accept := by
  have hseen : ∀ entry name, nameIn? directory accept entry = some name →
      seen entry.1 = true := by
    rintro ⟨location, entry⟩ name hname
    rw [(nameIn?_eq_some.mp hname).1]
    exact hchildren name
  rw [namesIn_eq, namesIn_eq, ← filterMap_among hseen disk, ← filterMap_among hseen other, hamong]

theorem namesIn_of_under (hunder : disk.under root = other.under root)
    (hdirectory : isWithin root directory = true) (accept : Entry → Bool) :
    disk.namesIn directory accept = other.namesIn directory accept :=
  namesIn_of_among hunder (fun _ => isWithin_iff.mpr
    ((isWithin_iff.mp hdirectory).trans (List.prefix_append ..))) accept

/-! ## Contents -/

/-- An entry strictly below a directory, by the names from there. -/
def contentIn? (directory : Location) (entry : Location × Entry) : Option (List Text × Entry) :=
  match below? directory entry.1 with
  | some (name :: names) => some (name :: names, entry.2)
  | _ => none

theorem contents_eq (disk : Disk) (directory : Location) :
    disk.contents directory = disk.entries.filterMap (contentIn? directory) := rfl

theorem contentIn?_eq_some {names : List Text} {found : Entry} :
    contentIn? directory (location, entry) = some (names, found) ↔
      names ≠ [] ∧ location = directory ++ names ∧ entry = found := by
  unfold contentIn?
  constructor
  · intro hsome
    split at hsome
    · rename_i name rest hbelow
      cases hsome
      exact ⟨by simp, below?_eq_some.mp hbelow, rfl⟩
    · cases hsome
  · rintro ⟨hnames, rfl, rfl⟩
    obtain ⟨name, rest, rfl⟩ := List.exists_cons_of_ne_nil hnames
    simp

theorem WellFormed.mem_contents (hdisk : disk.WellFormed) {names : List Text} :
    (names, entry) ∈ disk.contents directory ↔
      names ≠ [] ∧ disk.entry? (directory ++ names) = some entry := by
  rw [contents_eq, List.mem_filterMap]
  constructor
  · rintro ⟨⟨location, found⟩, hmem, hcontent⟩
    obtain ⟨hnames, rfl, rfl⟩ := contentIn?_eq_some.mp hcontent
    exact ⟨hnames, (hdisk.mem_iff.mp hmem).2⟩
  · rintro ⟨hnames, hfound⟩
    exact ⟨(directory ++ names, entry), hdisk.mem_iff.mpr ⟨by simp [hnames], hfound⟩,
      contentIn?_eq_some.mpr ⟨hnames, rfl, rfl⟩⟩

theorem WellFormed.nodup_contents (hdisk : disk.WellFormed) (directory : Location) :
    ((disk.contents directory).map Prod.fst).Nodup := by
  rw [contents_eq, List.map_filterMap]
  apply nodup_filterMap_of_keys hdisk.nodup
  rintro ⟨left, leftEntry⟩ - ⟨right, rightEntry⟩ - names hleft hright
  obtain ⟨⟨_, entry⟩, hcontent, rfl⟩ := Option.map_eq_some_iff.mp hleft
  obtain ⟨⟨_, other⟩, hother, rfl⟩ := Option.map_eq_some_iff.mp hright
  rw [(contentIn?_eq_some.mp hcontent).2.1, (contentIn?_eq_some.mp hother).2.1]

/-! ## Height -/

theorem length_le_height (hmem : (location, entry) ∈ disk.entries) :
    location.length ≤ disk.height := by
  have hfold : ∀ (entries : List (Location × Entry)) (start : Nat),
      start ≤ entries.foldl (fun height entry => max height entry.1.length) start ∧
        ∀ entry ∈ entries, entry.1.length ≤
          entries.foldl (fun height entry => max height entry.1.length) start := by
    intro entries
    induction entries with
    | nil => exact fun start => ⟨Nat.le_refl _, fun entry hmem => by cases hmem⟩
    | cons head rest ih =>
        intro start
        obtain ⟨hstart, hrest⟩ := ih (max start head.1.length)
        refine ⟨by rw [List.foldl_cons]; omega, fun entry hmem => ?_⟩
        rw [List.foldl_cons]
        rcases List.mem_cons.mp hmem with rfl | hmem
        · omega
        · exact hrest entry hmem
  exact (hfold disk.entries 0).2 _ hmem

end Disk

end PageLoom
