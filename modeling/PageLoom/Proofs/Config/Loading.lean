import PageLoom.Command.Run
import PageLoom.Proofs.Config.Layers
import PageLoom.Proofs.Toml.Document

/-!
# Loading a configuration file

A configuration file is found, read, parsed, its directories are anchored, and what comes of it is
checked. Most failures on the way are reported as ones of the configuration; the others, which
escape, are told exactly. Anchoring changes three fields of the table, each on its own.
-/

namespace PageLoom.Config

open Site Command

variable {standpoint : Standpoint} {disk : Disk} {path : Path} {loaded : Loaded}

/-- The text of what is at the location of a configuration file. -/
def sourceAt (disk : Disk) (location : Location) : Except LoadError Text :=
  match disk.entry? location with
  | none =>
    if disk.absence location = .nameTooLong then .error (.unreachable .nameTooLong)
    else .error (.missing location)
  | some .directory => .error (.unreadable location .isDirectory)
  | some (.file bytes) =>
    match Utf8.decode? bytes with
    | none => .error .undecodable
    | some source => .ok source

/-- The table in the text of a configuration file, with its directories moved under that of the
file. -/
def tableIn (standpoint : Standpoint) (location : Location) (source : Text) :
    Except LoadError Table := do
  let table ← (Toml.parse source).mapError tomlError
  directoryFields.foldlM (anchorDirectory standpoint location.dropLast) table

def tableAt (standpoint : Standpoint) (disk : Disk) (path : Path) : Except LoadError Table := do
  let location ← (path.locate standpoint).mapError .path
  tableIn standpoint location (← sourceAt disk location)

theorem loadConfig_eq (standpoint : Standpoint) (disk : Disk) (path : Path) :
    loadConfig standpoint disk path = tableAt standpoint disk path >>= loadedOf := by
  rw [loadConfig, tableAt, bind_assoc]
  refine congrArg _ (funext fun location => ?_)
  rw [sourceAt, Disk.find, Disk.read]
  cases disk.entry? location with
  | none =>
      by_cases hlong : disk.absence location = .nameTooLong
      · simp only [hlong, if_true]
        rfl
      · simp only [hlong, if_false]
        rfl
  | some entry =>
      cases entry with
      | directory => rfl
      | file bytes =>
          change (match Utf8.decode? bytes with
              | none => .error LoadError.undecodable
              | some source => do
                let table ← (Toml.parse source).mapError tomlError
                loadedOf (← directoryFields.foldlM (anchorDirectory standpoint location.dropLast)
                  table)) =
            ((match Utf8.decode? bytes with
              | none => .error LoadError.undecodable
              | some source => .ok source) >>= tableIn standpoint location) >>= loadedOf
          cases Utf8.decode? bytes with
          | none => rfl
          | some source => exact (bind_assoc ..).symm

/-! ## The directories of a configuration file -/

variable {directory location : Location} {table anchored : Table} {name other value : Text}

/-- The text of a directory, moved under that of the configuration file if it is relative. -/
def anchoredText (standpoint : Standpoint) (directory : Location) (value : Text) : Text :=
  match (Path.ofText value).expandHome standpoint with
  | .error _ => value
  | .ok expanded =>
    if expanded.isAbsolute then value
    else ((Path.ofLocation directory).join (Path.ofText value)).toText

def anchoredDatum (standpoint : Standpoint) (directory : Location) : Datum → Datum
  | .text value => .text (anchoredText standpoint directory value)
  | datum => datum

theorem anchoredDatum_of_ne_text {datum : Datum} (hplain : ∀ value, datum ≠ .text value) :
    anchoredDatum standpoint directory datum = datum := by
  cases datum with
  | text value => exact absurd rfl (hplain value)
  | null | bool | integer | float | moment | array | table => rfl

/-- A directory in a table begins at a home directory that cannot be found. -/
def HomeFault (standpoint : Standpoint) (table : Table) (name : Text) (error : PathError) : Prop :=
  ∃ value, table.get? name = some (.text value) ∧
    (Path.ofText value).expandHome standpoint = .error error

/-- What anchoring some directories makes of a table: each of them changes on its own, and all else
stays. -/
def Anchors (standpoint : Standpoint) (directory : Location) (names : List Text)
    (table anchored : Table) : Prop :=
  ∀ other, anchored.get? other =
    if other ∈ names then (table.get? other).map (anchoredDatum standpoint directory)
    else table.get? other

theorem anchors_of_same (hsame : (table.get? name).map (anchoredDatum standpoint directory) =
    table.get? name) : Anchors standpoint directory [name] table table := by
  intro other
  split
  · next hother =>
    obtain rfl := List.mem_singleton.mp hother
    exact hsame.symm
  · rfl

theorem anchorDirectory_cases (standpoint : Standpoint) (directory : Location) (table : Table)
    (name : Text) :
    (∃ error, HomeFault standpoint table name error ∧
      anchorDirectory standpoint directory table name = .error (.path error)) ∨
    (∀ error, ¬HomeFault standpoint table name error) ∧
      ∃ anchored, anchorDirectory standpoint directory table name = .ok anchored ∧
        Anchors standpoint directory [name] table anchored := by
  unfold anchorDirectory
  split
  · next value hvalue =>
    cases hexpanded : (Path.ofText value).expandHome standpoint with
    | error error => exact .inl ⟨error, ⟨value, hvalue, hexpanded⟩, rfl⟩
    | ok expanded =>
        right
        constructor
        · rintro error ⟨_, hother, herror⟩
          cases hvalue.symm.trans hother
          cases hexpanded.symm.trans herror
        dsimp only
        split
        · next habsolute =>
          refine ⟨table, rfl, anchors_of_same ?_⟩
          rw [hvalue, Option.map_some, anchoredDatum, anchoredText, hexpanded]
          dsimp only
          rw [if_pos habsolute]
        · next hrelative =>
          refine ⟨_, rfl, fun other => ?_⟩
          rw [Table.get?_insert]
          simp only [List.mem_singleton]
          split
          · next hother =>
            rw [hother, hvalue, Option.map_some, anchoredDatum, anchoredText, hexpanded]
            dsimp only
            rw [if_neg hrelative]
          · rfl
  · next hvalue =>
    right
    constructor
    · rintro error ⟨value, htext, -⟩
      exact hvalue value htext
    refine ⟨table, rfl, anchors_of_same ?_⟩
    cases hdatum : table.get? name with
    | none => rfl
    | some datum =>
        refine congrArg some (anchoredDatum_of_ne_text ?_)
        rintro value rfl
        exact hvalue value hdatum

theorem Anchors.cons {names : List Text} {between : Table}
    (hfirst : Anchors standpoint directory [name] table between)
    (hrest : Anchors standpoint directory names between anchored) (hname : name ∉ names) :
    Anchors standpoint directory (name :: names) table anchored := by
  intro other
  rw [hrest other, hfirst other]
  simp only [List.mem_cons]
  by_cases hother : other = name
  · subst hother
    simp [hname]
  · simp [hother]

theorem homeFault_of_anchors {between : Table} {error : PathError}
    (hanchors : Anchors standpoint directory [name] table between) (hother : other ≠ name) :
    HomeFault standpoint between other error ↔ HomeFault standpoint table other error := by
  rw [HomeFault, HomeFault, hanchors other, if_neg (by simpa using hother)]

theorem foldlM_anchorDirectory_cases (standpoint : Standpoint) (directory : Location)
    {names : List Text} (hdistinct : names.Nodup) (table : Table) :
    (∃ name ∈ names, ∃ error, HomeFault standpoint table name error ∧
      names.foldlM (anchorDirectory standpoint directory) table = .error (.path error)) ∨
    (∀ name ∈ names, ∀ error, ¬HomeFault standpoint table name error) ∧
      ∃ anchored, names.foldlM (anchorDirectory standpoint directory) table = .ok anchored ∧
        Anchors standpoint directory names table anchored := by
  induction names generalizing table with
  | nil => exact .inr ⟨nofun, table, rfl, fun other => by simp⟩
  | cons name rest ih =>
      obtain ⟨hname, hrest⟩ := List.nodup_cons.mp hdistinct
      rw [List.foldlM_cons]
      obtain ⟨error, hfault, hstep⟩ | ⟨hnone, between, hstep, hfirst⟩ :=
        anchorDirectory_cases standpoint directory table name
      · left
        refine ⟨name, List.mem_cons_self .., error, hfault, ?_⟩
        rw [hstep]
        rfl
      · -- Anchoring this directory leaves the later ones as they are in the table.
        have hfaults : ∀ later ∈ rest, ∀ error, HomeFault standpoint between later error ↔
            HomeFault standpoint table later error := fun later hlater error =>
          homeFault_of_anchors hfirst fun hsame => hname (hsame ▸ hlater)
        have hbind : anchorDirectory standpoint directory table name >>=
            (fun table => rest.foldlM (anchorDirectory standpoint directory) table) =
              rest.foldlM (anchorDirectory standpoint directory) between := by
          rw [hstep]
          rfl
        rw [hbind]
        obtain ⟨later, hlater, error, hfault, hfold⟩ | ⟨hothers, anchored, hfold, hanchors⟩ :=
          ih hrest between
        · left
          exact ⟨later, List.mem_cons_of_mem _ hlater, error,
            (hfaults later hlater error).mp hfault, hfold⟩
        · right
          refine ⟨List.forall_mem_cons.mpr ⟨hnone, fun later hlater error hfault => ?_⟩,
            anchored, hfold, hfirst.cons hanchors hname⟩
          exact hothers later hlater error ((hfaults later hlater error).mpr hfault)

/-! ## Failures -/

/-- A failure that a command reports as one of its configuration. -/
def Reported (error : LoadError) : Prop := ∃ message, loadStop error = .configuration message

/-- The text of the file at a path. -/
structure IsTextAt (standpoint : Standpoint) (disk : Disk) (path : Path) (location : Location)
    (source : Text) : Prop where
  located : path.locate standpoint = .ok location
  decoded : ∃ bytes, disk.entry? location = some (.file bytes) ∧ Utf8.decode? bytes = some source

/-- What loading a configuration file fails for without reporting it as a failure of the
configuration. -/
inductive Escapes (standpoint : Standpoint) (disk : Disk) (path : Path) : Prop where
  | path {error : PathError} (hpath : path.locate standpoint = .error error)
  | overlong {location : Location} (hlocated : path.locate standpoint = .ok location)
      (hnone : disk.entry? location = none) (hlong : disk.absence location = .nameTooLong)
  | undecodable {location : Location} {bytes : Bytes}
      (hlocated : path.locate standpoint = .ok location)
      (hfile : disk.entry? location = some (.file bytes)) (hbytes : Utf8.decode? bytes = none)
  | digits {location : Location} {source : Text}
      (hsource : IsTextAt standpoint disk path location source)
      (hparse : Toml.parse source = .error .tooManyDigits)
  | nesting {location : Location} {source : Text}
      (hsource : IsTextAt standpoint disk path location source)
      (hparse : Toml.parse source = .error .tooDeep)
  | home {location : Location} {source : Text} {table : Table} {name : Text} {error : PathError}
      (hsource : IsTextAt standpoint disk path location source)
      (hparse : Toml.parse source = .ok table) (hname : name ∈ directoryFields)
      (hfault : HomeFault standpoint table name error)

variable {source : Text} {error : LoadError}

theorem sourceAt_eq_ok_iff : sourceAt disk location = .ok source ↔
    ∃ bytes, disk.entry? location = some (.file bytes) ∧ Utf8.decode? bytes = some source := by
  unfold sourceAt
  split
  · next hnone => split <;> simp [hnone]
  · next hdirectory => simp [hdirectory]
  · next bytes hfile =>
    rw [hfile]
    split
    · next hnone => simp [hnone]
    · next text hsome => simp [hsome]

theorem isTextAt_iff : IsTextAt standpoint disk path location source ↔
    path.locate standpoint = .ok location ∧ sourceAt disk location = .ok source := by
  rw [sourceAt_eq_ok_iff]
  exact ⟨fun htext => ⟨htext.located, htext.decoded⟩, fun htext => ⟨htext.1, htext.2⟩⟩

theorem tableAt_eq_error_iff : tableAt standpoint disk path = .error error ↔
    (∃ fault, path.locate standpoint = .error fault ∧ .path fault = error) ∨
    (∃ location, path.locate standpoint = .ok location ∧ sourceAt disk location = .error error) ∨
    ∃ location source, IsTextAt standpoint disk path location source ∧
      tableIn standpoint location source = .error error := by
  simp only [tableAt, except_bind_eq_error, except_mapError_eq_error, except_mapError_eq_ok,
    isTextAt_iff]
  constructor
  · rintro (hpath | ⟨location, hlocated, hsource | ⟨source, hsource, htable⟩⟩)
    · exact .inl hpath
    · exact .inr (.inl ⟨location, hlocated, hsource⟩)
    · exact .inr (.inr ⟨location, source, ⟨hlocated, hsource⟩, htable⟩)
  · rintro (hpath | ⟨location, hlocated, hsource⟩ | ⟨location, source, ⟨hlocated, hsource⟩, htable⟩)
    · exact .inl hpath
    · exact .inr ⟨location, hlocated, .inl hsource⟩
    · exact .inr ⟨location, hlocated, .inr ⟨source, hsource, htable⟩⟩

theorem nodup_directoryFields : directoryFields.Nodup := by decide

theorem loadedOf_error (hloaded : loadedOf table = .error error) : Reported error := by
  unfold loadedOf at hloaded
  split at hloaded
  · cases hloaded
  · cases hloaded
    exact ⟨_, rfl⟩

theorem escapes_of_sourceAt (hlocated : path.locate standpoint = .ok location)
    (hsource : sourceAt disk location = .error error) (hreported : ¬Reported error) :
    Escapes standpoint disk path := by
  unfold sourceAt at hsource
  split at hsource
  · next hnone =>
    split at hsource
    · next hlong => exact .overlong hlocated hnone hlong
    · cases hsource
      exact absurd ⟨_, rfl⟩ hreported
  · cases hsource
    exact absurd ⟨_, rfl⟩ hreported
  · next bytes hfile =>
    split at hsource
    · next hbytes => exact .undecodable hlocated hfile hbytes
    · cases hsource

theorem escapes_of_tableIn (htext : IsTextAt standpoint disk path location source)
    (htable : tableIn standpoint location source = .error error) (hreported : ¬Reported error) :
    Escapes standpoint disk path := by
  rw [tableIn, except_bind_eq_error] at htable
  simp only [except_mapError_eq_error, except_mapError_eq_ok] at htable
  obtain ⟨fault, hparse, rfl⟩ | ⟨table, hparse, hfold⟩ := htable
  · cases fault with
    | malformed | conflict => exact absurd ⟨_, rfl⟩ hreported
    | tooManyDigits => exact .digits htext hparse
    | tooDeep => exact .nesting htext hparse
  · obtain ⟨name, hname, fault, hfault, -⟩ | ⟨-, anchored, hanchored, -⟩ :=
      foldlM_anchorDirectory_cases standpoint location.dropLast nodup_directoryFields table
    · exact .home htext hparse hname hfault
    · cases hfold.symm.trans hanchored

/-- A failure that escapes is none of the configuration. -/
theorem loadConfig_of_escapes (hescapes : Escapes standpoint disk path) :
    ∃ error, loadConfig standpoint disk path = .error error ∧ ¬Reported error := by
  suffices htable : ∃ error, tableAt standpoint disk path = .error error ∧ ¬Reported error by
    obtain ⟨error, htable, hreported⟩ := htable
    refine ⟨error, ?_, hreported⟩
    rw [loadConfig_eq, htable]
    rfl
  simp only [tableAt_eq_error_iff]
  cases hescapes with
  | path hpath => exact ⟨_, .inl ⟨_, hpath, rfl⟩, nofun⟩
  | overlong hlocated hnone hlong =>
      refine ⟨.unreachable .nameTooLong, .inr (.inl ⟨_, hlocated, ?_⟩), ?_⟩
      · simp [sourceAt, hnone, hlong]
      · rintro ⟨_, ⟨⟩⟩
  | undecodable hlocated hfile hbytes =>
      refine ⟨.undecodable, .inr (.inl ⟨_, hlocated, ?_⟩), ?_⟩
      · simp [sourceAt, hfile, hbytes]
      · rintro ⟨_, ⟨⟩⟩
  | digits htext hparse =>
      refine ⟨.tooManyDigits, .inr (.inr ⟨_, _, htext, ?_⟩), ?_⟩
      · rw [tableIn, hparse]
        rfl
      · rintro ⟨_, ⟨⟩⟩
  | nesting htext hparse =>
      refine ⟨.nestedTooDeep, .inr (.inr ⟨_, _, htext, ?_⟩), ?_⟩
      · rw [tableIn, hparse]
        rfl
      · rintro ⟨_, ⟨⟩⟩
  | @home location source table name fault htext hparse hname hfault =>
      obtain ⟨name, hname, first, hfirst, hfold⟩ | ⟨hnone, -⟩ :=
        foldlM_anchorDirectory_cases standpoint location.dropLast nodup_directoryFields table
      · refine ⟨.path first, .inr (.inr ⟨location, source, htext, ?_⟩), ?_⟩
        · rw [tableIn, hparse]
          exact hfold
        · rintro ⟨_, ⟨⟩⟩
      · exact absurd hfault (hnone name hname fault)

theorem loadConfig_escapes (hloaded : loadConfig standpoint disk path = .error error)
    (hreported : ¬Reported error) : Escapes standpoint disk path := by
  rw [loadConfig_eq, except_bind_eq_error, tableAt_eq_error_iff] at hloaded
  obtain (⟨fault, hpath, -⟩ | ⟨location, hlocated, hsource⟩ | ⟨location, source, htext, htable⟩) |
    ⟨table, -, htable⟩ := hloaded
  · exact .path hpath
  · exact escapes_of_sourceAt hlocated hsource hreported
  · exact escapes_of_tableIn htext htable hreported
  · exact absurd (loadedOf_error htable) hreported

/-! ## Directories of a loaded configuration -/

/-- A directory as a configuration has it: relative ones are taken from the directory of the
configuration file. -/
def anchoredPath (standpoint : Standpoint) (directory : Location) (value : Text) : Path :=
  match (Path.ofText value).expandHome standpoint with
  | .error _ => Path.ofText value
  | .ok expanded =>
    if expanded.isAbsolute then Path.ofText value
    else (Path.ofLocation directory).join (Path.ofText value)

theorem ofText_anchoredText (hdirectory : ∀ name ∈ directory, IsPart name) (value : Text) :
    Path.ofText (anchoredText standpoint directory value) =
      anchoredPath standpoint directory value := by
  unfold anchoredText anchoredPath
  split
  · rfl
  split
  · rfl
  apply Path.ofText_toText
  have hvalue := Path.isWritten_ofText value
  rw [Path.join]
  split
  · exact hvalue
  · exact ⟨.inr (.inl rfl), List.forall_mem_append.mpr ⟨hdirectory, hvalue.names⟩⟩

example : Path.ofText (anchoredText ⟨[], []⟩ ["w".toList, "conf".toList] "../site".toList) =
    Path.ofText "/w/conf/../site".toList := by decide

def textOf? (table : Table) (name : Text) : Option Text :=
  match table.get? name with
  | some (.text value) => some value
  | _ => none

theorem loadConfig_eq_ok (hloaded : loadConfig standpoint disk path = .ok loaded) :
    ∃ location source table anchored, IsTextAt standpoint disk path location source ∧
      Toml.parse source = .ok table ∧
      Anchors standpoint location.dropLast directoryFields table anchored ∧
      Reads anchored loaded.config := by
  rw [loadConfig_eq, except_bind_eq_ok] at hloaded
  obtain ⟨anchored, htable, hread⟩ := hloaded
  simp only [tableAt, tableIn, except_bind_eq_ok, except_mapError_eq_ok] at htable
  obtain ⟨location, hlocated, source, hsource, table, hparse, hfold⟩ := htable
  refine ⟨location, source, table, anchored, isTextAt_iff.mpr ⟨hlocated, hsource⟩, hparse, ?_, ?_⟩
  · obtain ⟨_, _, _, _, hfailed⟩ | ⟨-, other, hother, hanchors⟩ :=
      foldlM_anchorDirectory_cases standpoint location.dropLast nodup_directoryFields table
    · cases hfold.symm.trans hfailed
    · cases hfold.symm.trans hother
      exact hanchors
  · exact (validate_eq_ok_iff.mp (loadedOf_eq_ok_iff.mp hread).1).1

theorem directory_of_field {α : Type} {name : String} {check : Place → Datum → Checked α}
    {default kept : α} (make : Path → α)
    (htext : ∀ place value, check place (.text value) = .ok (make (Path.ofText value)))
    (hother : ∀ place datum, (∀ value, datum ≠ .text value) → check place datum = .ok kept →
      kept = default)
    (hdirectory : ∀ name ∈ directory, IsPart name)
    (hanchored : anchored.get? name.toList =
      (table.get? name.toList).map (anchoredDatum standpoint directory))
    (hfield : field anchored name check default = .ok kept) :
    kept = ((textOf? table name.toList).map fun value =>
      make (anchoredPath standpoint directory value)).getD default := by
  rw [field, hanchored] at hfield
  rw [textOf?]
  split
  · next value hvalue =>
    rw [hvalue] at hfield
    rw [Option.map_some, ← ofText_anchoredText hdirectory]
    exact Except.ok.inj (hfield.symm.trans (htext _ _))
  · next hnotText =>
    cases hdatum : table.get? name.toList with
    | none =>
        rw [hdatum] at hfield
        exact (Except.ok.inj hfield).symm
    | some datum =>
        have hplain : ∀ value, datum ≠ .text value := by
          rintro value rfl
          exact hnotText value hdatum
        rw [hdatum, Option.map_some, anchoredDatum_of_ne_text hplain] at hfield
        exact hother _ datum hplain hfield

/-- Only null is no directory where a directory may be left out. -/
theorem eq_none_of_optional_path {place : Place} {datum : Datum} {value? : Option Path}
    (hplain : ∀ value, datum ≠ .text value)
    (hchecked : optional Config.path place datum = .ok value?) : value? = none := by
  cases datum with
  | text value => exact absurd rfl (hplain value)
  | null => exact (Except.ok.inj hchecked).symm
  | bool | integer | float | moment | array | table => cases hchecked

theorem path_ne_ok {place : Place} {datum : Datum} {required : Path}
    (hplain : ∀ value, datum ≠ .text value) : Config.path place datum ≠ .ok required := by
  cases datum with
  | text value => exact absurd rfl (hplain value)
  | null | bool | integer | float | moment | array | table => exact nofun

/-- Loading a configuration file fails with what is not reported as a failure of the configuration
exactly if it escapes. Where reading the TOML is the reason, the file has too many digits in a row
or too many brackets and braces. A configuration that is loaded has the directories that the file
gives, relative ones taken from the directory of the file. -/
theorem loadConfig_escapes_iff (hstandpoint : standpoint.IsWritten) (hpath : path.IsWritten)
    (disk : Disk) :
    ((∃ error, loadConfig standpoint disk path = .error error ∧ ¬Reported error) ↔
      Escapes standpoint disk path) ∧
    (∀ source error, Toml.parse source = .error error →
      Toml.Blames Toml.nestingRoom source error) ∧
    ∀ loaded, loadConfig standpoint disk path = .ok loaded →
      ∃ location source table, IsTextAt standpoint disk path location source ∧
        Toml.parse source = .ok table ∧
        loaded.config.source =
          (textOf? table "source".toList).map (anchoredPath standpoint location.dropLast) ∧
        loaded.config.output =
          (textOf? table "output".toList).map (anchoredPath standpoint location.dropLast) ∧
        loaded.config.components = ((textOf? table "components".toList).map
          (anchoredPath standpoint location.dropLast)).getD defaultConfig.components := by
  refine ⟨⟨fun ⟨error, hloaded, hreported⟩ => loadConfig_escapes hloaded hreported,
    loadConfig_of_escapes⟩, fun source error => Toml.blames_parse, fun loaded hloaded => ?_⟩
  obtain ⟨location, source, table, anchored, htext, hparse, hanchors, hreads⟩ :=
    loadConfig_eq_ok hloaded
  have hdirectory : ∀ name ∈ location.dropLast, IsPart name := fun name hmem =>
    hpath.locate hstandpoint htext.located name (List.mem_of_mem_dropLast hmem)
  have hanchored : ∀ name ∈ directoryFields, anchored.get? name =
      (table.get? name).map (anchoredDatum standpoint location.dropLast) := fun name hname =>
    (hanchors name).trans (if_pos hname)
  have hoptional : ∀ {name : String} {value? : Option Path}, name.toList ∈ directoryFields →
      field anchored name (optional Config.path) none = .ok value? →
      value? = (textOf? table name.toList).map (anchoredPath standpoint location.dropLast) := by
    intro name value? hname hfield
    rw [directory_of_field some (fun _ _ => rfl) (fun _ _ => eq_none_of_optional_path) hdirectory
      (hanchored _ hname) hfield]
    cases textOf? table name.toList <;> rfl
  refine ⟨location, source, table, htext, hparse, hoptional (by decide) hreads.source,
    hoptional (by decide) hreads.output, ?_⟩
  exact directory_of_field id (fun _ _ => rfl)
    (fun _ _ hplain hchecked => absurd hchecked (path_ne_ok hplain)) hdirectory
    (hanchored _ (by decide)) hreads.components

def plainStandpoint : Standpoint := ⟨["w".toList], []⟩

theorem plainStandpoint_isWritten : plainStandpoint.IsWritten where
  current := List.forall_mem_singleton.mpr ⟨by decide, by decide, by decide⟩
  homes := nofun

/-- A site with a configuration file that is no UTF-8. -/
def garbledSite : Disk := ⟨[
  (["w".toList], .directory),
  (["w".toList, defaultFileName], .file [255])]⟩

theorem loadConfig_escapes_iff_garbledSite :
    Escapes plainStandpoint garbledSite (Path.ofText defaultFileName) :=
  (loadConfig_escapes_iff plainStandpoint_isWritten (Path.isWritten_ofText _) garbledSite).1.mp
    ⟨.undecodable, by decide +kernel, fun ⟨_, hmessage⟩ => nomatch hmessage⟩

/-- A file that is no UTF-8 is not reported as a failure of the configuration. -/
theorem loadConfig_garbledSite :
    loadConfig plainStandpoint garbledSite (Path.ofText defaultFileName) = .error .undecodable ∧
      ∀ message, loadStop .undecodable ≠ .configuration message :=
  ⟨by decide +kernel, nofun⟩

end PageLoom.Config
