import PageLoom.Component.Store
import PageLoom.Proofs.Disk.Entries
import PageLoom.Proofs.Disk.Order
import PageLoom.Proofs.Table

/-!
# The store as an index of its tree

A load reads the files of the components directory in path order and keeps what it reads under the
names of the files, so that the last template of a name stays. A file without a listed suffix, or
with bytes that are not UTF-8, is left out before it could take the place of another.
-/

namespace PageLoom.Component.Store

open Disk

/-! ## The files of a tree -/

section Files

variable {disk : Disk} {root : Location}

theorem mem_filesBelow_iff (hdisk : disk.WellFormed) {below : List Text} {bytes : Bytes} :
    (below, bytes) ∈ filesBelow disk root ↔
      below ≠ [] ∧ disk.entry? (root ++ below) = some (.file bytes) := by
  rw [filesBelow, List.mem_mergeSort, List.mem_filterMap, ← hdisk.mem_contents]
  constructor
  · rintro ⟨⟨names, entry⟩, hcontent, hfile⟩
    cases entry with
    | directory => cases hfile
    | file bytes => cases hfile; exact hcontent
  · exact fun hcontent => ⟨_, hcontent, rfl⟩

theorem mem_filesBelow (hdisk : disk.WellFormed) {names : List Text} :
    names ∈ (filesBelow disk root).map Prod.fst ↔
      names ≠ [] ∧ disk.isFile (root ++ names) = true := by
  rw [List.mem_map, isFile_iff]
  constructor
  · rintro ⟨⟨names, bytes⟩, hmem, rfl⟩
    obtain ⟨hnames, hfound⟩ := (mem_filesBelow_iff hdisk).mp hmem
    exact ⟨hnames, bytes, hfound⟩
  · rintro ⟨hnames, bytes, hfound⟩
    exact ⟨(names, bytes), (mem_filesBelow_iff hdisk).mpr ⟨hnames, hfound⟩, rfl⟩

theorem nodup_files (hdisk : disk.WellFormed) (root : Location) :
    (((disk.contents root).filterMap fun
      | (names, .file bytes) => some (names, bytes)
      | (_, .directory) => none).map Prod.fst).Nodup := by
  rw [List.map_filterMap]
  apply nodup_filterMap_of_keys (hdisk.nodup_contents root)
  rintro ⟨left, leftEntry⟩ - ⟨right, rightEntry⟩ - names hleft hright
  cases leftEntry with
  | directory => cases hleft
  | file =>
      cases rightEntry with
      | directory => cases hright
      | file =>
          cases hleft
          cases hright
          rfl

theorem nodup_filesBelow (hdisk : disk.WellFormed) (root : Location) :
    ((filesBelow disk root).map Prod.fst).Nodup :=
  ((List.mergeSort_perm _ _).map Prod.fst).nodup_iff.mpr (nodup_files hdisk root)

theorem ascending_filesBelow (hdisk : disk.WellFormed) (root : Location) :
    (filesBelow disk root).Pairwise fun left right => compareNames left.1 right.1 = .lt :=
  pairwise_lt_mergeSort Prod.fst (nodup_files hdisk root)

end Files

/-! ## The templates of a tree -/

/-- A file of a components tree whose suffix is listed and whose bytes are text holds a template,
under its path without suffix. -/
structure Holds (disk : Disk) (root : Location) (extensions : List Text) (below : List Text)
    (name template : Text) : Prop where
  proper : below ≠ []
  listed : Text.lower (suffixOf below) ∈ extensions
  named : textOfNames (withoutSuffix below) = name
  decoded : ∃ bytes, disk.entry? (root ++ below) = some (.file bytes) ∧
    Utf8.decode? bytes = some template

/-- A store is the index of the tree that it was loaded from. -/
structure Indexes (store : Store) (disk : Disk) : Prop where
  names : ∀ name, name ∈ store.library.names ↔
    ∃ below template, Holds disk store.root store.extensions below name template
  ascending : store.library.names.Pairwise fun left right => Text.compare left right = .lt
  templates : ∀ name template, store.library.template? name = some template ↔
    ∃ below, Holds disk store.root store.extensions below name template ∧
      ∀ other old, Holds disk store.root store.extensions other name old →
        other = below ∨ compareNames other below = .lt
  size : store.size = store.library.names.length

section Templates

variable {disk : Disk} {root : Location} {extensions : List Text}

theorem templateOf?_eq_some_iff {below : List Text} {bytes : Bytes} {name template : Text} :
    templateOf? extensions (below, bytes) = some (name, template) ↔
      below ≠ [] ∧ Text.lower (suffixOf below) ∈ extensions ∧
        textOfNames (withoutSuffix below) = name ∧ Utf8.decode? bytes = some template := by
  by_cases hlisted : Text.lower (suffixOf below) ∈ extensions
  · cases below with
    | nil => simp [templateOf?, componentName?]
    | cons first rest =>
        cases hdecoded : Utf8.decode? bytes with
        | none => simp [templateOf?, componentName?, hdecoded]
        | some text => simp [templateOf?, componentName?, hdecoded, hlisted]
  · simp [templateOf?, hlisted]

theorem holds_iff (hdisk : disk.WellFormed) {below : List Text} {name template : Text} :
    Holds disk root extensions below name template ↔
      ∃ bytes, (below, bytes) ∈ filesBelow disk root ∧
        templateOf? extensions (below, bytes) = some (name, template) := by
  simp only [templateOf?_eq_some_iff, mem_filesBelow_iff hdisk]
  constructor
  · rintro ⟨hproper, hlisted, hnamed, bytes, hfound, hdecoded⟩
    exact ⟨bytes, ⟨hproper, hfound⟩, hproper, hlisted, hnamed, hdecoded⟩
  · rintro ⟨bytes, ⟨-, hfound⟩, hproper, hlisted, hnamed, hdecoded⟩
    exact ⟨hproper, hlisted, hnamed, bytes, hfound, hdecoded⟩

theorem keys_templatesOn (disk : Disk) (root : Location) (extensions : List Text) :
    (templatesOn disk root extensions).map Prod.fst =
      (((filesBelow disk root).filterMap (templateOf? extensions)).map Prod.fst).eraseDups := by
  rw [templatesOn, Table.keys_ofEntries]

theorem mem_keys_templatesOn (hdisk : disk.WellFormed) {name : Text} :
    name ∈ (templatesOn disk root extensions).map Prod.fst ↔
      ∃ below template, Holds disk root extensions below name template := by
  simp only [keys_templatesOn, List.mem_eraseDups, List.mem_map, List.mem_filterMap,
    holds_iff hdisk]
  constructor
  · rintro ⟨⟨name, template⟩, ⟨⟨below, bytes⟩, hfile, htemplate⟩, rfl⟩
    exact ⟨below, template, bytes, hfile, htemplate⟩
  · rintro ⟨below, template, bytes, hfile, htemplate⟩
    exact ⟨(name, template), ⟨(below, bytes), hfile, htemplate⟩, rfl⟩

/-- The last file in path order with a template for a name decides. -/
theorem lookup_templatesOn (hdisk : disk.WellFormed) {name template : Text} :
    (templatesOn disk root extensions).lookup name = some template ↔
      ∃ below, Holds disk root extensions below name template ∧
        ∀ other old, Holds disk root extensions other name old →
          other = below ∨ compareNames other below = .lt := by
  have hasymm : ∀ left right : List Text × Bytes, compareNames left.1 right.1 = .lt →
      ¬compareNames right.1 left.1 = .lt := fun left right hbelow =>
    not_lt_iff_eq_or_lt.mpr (.inr hbelow)
  rw [templatesOn,
    Table.lookup_ofEntries_filterMap hasymm (ascending_filesBelow hdisk root)]
  simp only [← not_lt_iff_eq_or_lt, holds_iff hdisk]
  constructor
  · rintro ⟨⟨below, bytes⟩, hfile, htemplate, hothers⟩
    exact ⟨below, ⟨bytes, hfile, htemplate⟩, fun other old ⟨otherBytes, hother, hold⟩ =>
      hothers (other, otherBytes) hother old hold⟩
  · rintro ⟨below, ⟨bytes, hfile, htemplate⟩, hothers⟩
    exact ⟨(below, bytes), hfile, htemplate, fun other hother old hold =>
      hothers other.1 old ⟨other.2, hother, hold⟩⟩

theorem indexes_templatesOn (hdisk : disk.WellFormed) (generation : Nat) :
    Indexes ⟨root, extensions, ⟨templatesOn disk root extensions, generation⟩⟩ disk where
  names name := by rw [Library.names, List.mem_mergeSort]; exact mem_keys_templatesOn hdisk
  ascending := pairwise_lt_mergeSort id (by
    rw [List.map_id]
    change ((templatesOn disk root extensions).map Prod.fst).Nodup
    rw [keys_templatesOn]
    exact nodup_eraseDups _)
  templates name template := lookup_templatesOn hdisk
  size := by rw [Library.names, List.length_mergeSort, List.length_map]; rfl

end Templates

end PageLoom.Component.Store
