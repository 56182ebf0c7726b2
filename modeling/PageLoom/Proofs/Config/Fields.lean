import PageLoom.Config.Load
import PageLoom.Proofs.Action
import PageLoom.Proofs.Disk.PathText
import PageLoom.Proofs.Text.Lower

/-!
# The fields of a configuration

A table is accepted if each field in it is, on its own, and every name in it is that of a field.
What a field is after its check can be written down and checked again without any change, as the
normalised values are normalised already. So an accepted configuration is what its own table is
read as.
-/

namespace PageLoom.Config

open Site

section Combining

variable {α β : Type} {f : Checked (α → β)} {x : Checked α} {value : β}

theorem Checked.and_eq_ok_iff :
    f.and x = .ok value ↔ ∃ g a, f = .ok g ∧ x = .ok a ∧ g a = value := by
  cases f <;> cases x <;> simp [Checked.and]

theorem map_eq_ok_iff {ε : Type} {g : α → β} {result : Except ε α} :
    result.map g = .ok value ↔ ∃ a, result = .ok a ∧ g a = value := by
  cases result <;> simp [Except.map]

end Combining

/-! ## Reading a table -/

/-- Each field of a configuration is what its check makes of the value in a table, or its
default. -/
structure Reads (table : Table) (config : BuildConfig) : Prop where
  source : field table "source" (optional path) defaultConfig.source = .ok config.source
  output : field table "output" (optional path) defaultConfig.output = .ok config.output
  components : field table "components" path defaultConfig.components = .ok config.components
  depth : field table "depth" (optional (natural 0)) defaultConfig.depth = .ok config.depth
  names : field table "names" stems defaultConfig.names = .ok config.names
  extensions : field table "extensions" suffixes defaultConfig.extensions = .ok config.extensions
  componentExtensions : field table "component_extensions" suffixes
    defaultConfig.componentExtensions = .ok config.componentExtensions
  globals : field table "variables" variableTable defaultConfig.globals = .ok config.globals
  traceMarkers : field table "trace_markers" boolean defaultConfig.traceMarkers =
    .ok config.traceMarkers
  workers : field table "workers" (optional (natural 1)) defaultConfig.workers =
    .ok config.workers
  host : field table "host" text defaultConfig.host = .ok config.host
  port : field table "port" portNumber defaultConfig.port = .ok config.port

variable {table : Table} {config : BuildConfig}

theorem validateFields_eq_ok_iff : validateFields table = .ok config ↔ Reads table config := by
  constructor
  · intro hvalid
    simp only [validateFields, Checked.and_eq_ok_iff, map_eq_ok_iff] at hvalid
    obtain ⟨_, _, ⟨_, _, ⟨_, _, ⟨_, _, ⟨_, _, ⟨_, _, ⟨_, _, ⟨_, _, ⟨_, _, ⟨_, _, ⟨_, _,
      ⟨_, hsource, rfl⟩, houtput, rfl⟩, hcomponents, rfl⟩, hdepth, rfl⟩, hnames, rfl⟩,
      hextensions, rfl⟩, hcomponentExtensions, rfl⟩, hglobals, rfl⟩, htraceMarkers, rfl⟩,
      hworkers, rfl⟩, hhost, rfl⟩, hport, rfl⟩ := hvalid
    exact ⟨hsource, houtput, hcomponents, hdepth, hnames, hextensions, hcomponentExtensions,
      hglobals, htraceMarkers, hworkers, hhost, hport⟩
  · intro hreads
    simp only [validateFields, hreads.source, hreads.output, hreads.components, hreads.depth,
      hreads.names, hreads.extensions, hreads.componentExtensions, hreads.globals,
      hreads.traceMarkers, hreads.workers, hreads.host, hreads.port]
    rfl

theorem unknownFields_eq_ok_iff :
    unknownFields table = .ok () ↔ ∀ entry ∈ table, entry.1 ∈ fieldNames := by
  rw [unknownFields]
  split
  · next hnone =>
    simp at hnone
    simpa using hnone
  · next hsome =>
    simp at hsome ⊢
    exact hsome

theorem validate_eq_ok_iff :
    validate table = .ok config ↔
      Reads table config ∧ ∀ entry ∈ table, entry.1 ∈ fieldNames := by
  rw [validate, Checked.and_eq_ok_iff, ← validateFields_eq_ok_iff, ← unknownFields_eq_ok_iff]
  simp only [map_eq_ok_iff]
  constructor
  · rintro ⟨g, ⟨⟩, ⟨a, hfields, rfl⟩, hknown, rfl⟩
    exact ⟨hfields, hknown⟩
  · rintro ⟨hfields, hknown⟩
    exact ⟨_, _, ⟨_, hfields, rfl⟩, hknown, rfl⟩

/-! ## Writing a field down -/

variable {α : Type} {check : Place → Datum → Checked α} {write : α → Datum} {values : List Text}

/-- What a check makes of a value can be written down and is the same after one more check. -/
def Stable (check : Place → Datum → Checked α) (write : α → Datum) : Prop :=
  ∀ place datum value other, check place datum = .ok value → check other (write value) = .ok value

theorem placed_eq_ok_iff {place : Place} {datum : Datum} {result : Except IssueKind α}
    {value : α} : placed place datum result = .ok value ↔ result = .ok value := by
  cases result <;> simp [placed, reject]

theorem optional_of_ne_null {place : Place} {datum : Datum} (hnull : datum ≠ .null) :
    optional check place datum = (check place datum).map some := by
  cases datum with
  | null => exact absurd rfl hnull
  | bool | integer | float | text | moment | array | table => rfl

theorem Stable.optional (hstable : Stable check write) (hnull : ∀ value, write value ≠ .null) :
    Stable (optional check) (ofOption write) := by
  intro place datum value? other hvalue
  by_cases hdatum : datum = .null
  · rw [hdatum] at hvalue
    cases hvalue
    rfl
  · rw [optional_of_ne_null hdatum, map_eq_ok_iff] at hvalue
    obtain ⟨value, hvalue, rfl⟩ := hvalue
    rw [ofOption, optional_of_ne_null (hnull value), hstable place datum value other hvalue]
    rfl

theorem stable_path : Stable path ofPath := by
  intro place datum value other hvalue
  cases datum with
  | text source =>
      cases hvalue
      exact congrArg Except.ok (Path.ofText_toText (Path.isWritten_ofText source))
  | null | bool | integer | float | moment | array | table => cases hvalue

theorem stable_text : Stable text .text := fun _ _ _ _ _ => rfl

theorem stable_boolean : Stable boolean .bool := fun _ _ _ _ _ => rfl

/-! ### Numbers -/

theorem guarded_eq_ok_iff {ε : Type} {refused : Prop} [Decidable refused] {error : ε}
    {result value : α} :
    (if refused then throw error else return result : Except ε α) = .ok value ↔
      ¬refused ∧ result = value := by
  by_cases hrefused : refused
  · simp [hrefused, throw, throwThe, MonadExceptOf.throw]
  · simp [hrefused, pure, Except.pure]

theorem naturalOf_eq_ok_iff {least : Nat} {datum : Datum} {value : Nat} :
    naturalOf least datum = .ok value ↔ integerOf datum = .ok (value : Int) ∧ least ≤ value := by
  rw [naturalOf, except_bind_eq_ok]
  simp only [guarded_eq_ok_iff]
  constructor
  · rintro ⟨whole, hwhole, hleast, rfl⟩
    rw [hwhole, Int.toNat_of_nonneg (by omega)]
    exact ⟨rfl, by omega⟩
  · rintro ⟨hwhole, hleast⟩
    exact ⟨value, hwhole, by omega, rfl⟩

theorem portOf_eq_ok_iff {datum : Datum} {value : Nat} :
    portOf datum = .ok value ↔ integerOf datum = .ok (value : Int) ∧ value ≤ greatestPort := by
  rw [portOf, except_bind_eq_ok]
  simp only [guarded_eq_ok_iff, naturalOf_eq_ok_iff]
  constructor
  · rintro ⟨whole, ⟨hwhole, -⟩, hgreatest, rfl⟩
    exact ⟨hwhole, Nat.le_of_not_lt hgreatest⟩
  · rintro ⟨hwhole, hgreatest⟩
    exact ⟨value, ⟨hwhole, Nat.zero_le _⟩, Nat.not_lt.mpr hgreatest, rfl⟩

theorem natural_ofNatural {least value : Nat} (place : Place) (hvalue : least ≤ value) :
    natural least place (ofNatural value) = .ok value := by
  rw [natural, placed_eq_ok_iff, naturalOf_eq_ok_iff]
  exact ⟨rfl, hvalue⟩

theorem portNumber_ofNatural {value : Nat} (place : Place) (hvalue : value ≤ greatestPort) :
    portNumber place (ofNatural value) = .ok value := by
  rw [portNumber, placed_eq_ok_iff, portOf_eq_ok_iff]
  exact ⟨rfl, hvalue⟩

theorem stable_natural (least : Nat) : Stable (natural least) ofNatural := by
  intro place datum value other hvalue
  rw [natural, placed_eq_ok_iff, naturalOf_eq_ok_iff] at hvalue
  exact natural_ofNatural other hvalue.2

theorem stable_portNumber : Stable portNumber ofNatural := by
  intro place datum value other hvalue
  rw [portNumber, placed_eq_ok_iff, portOf_eq_ok_iff] at hvalue
  exact portNumber_ofNatural other hvalue.2

/-! ### Suffixes and names -/

theorem normalizeSuffix_point {rest : Text} (htrimmed : Text.Trimmed ('.' :: rest))
    (hsmall : ∀ c ∈ '.' :: rest, Text.IsSmall c) :
    normalizeSuffix ('.' :: rest) = some ('.' :: rest) := by
  rw [normalizeSuffix, htrimmed.trim_eq, Text.lower_of_isSmall hsmall]
  rfl

theorem isSmall_point : Text.IsSmall '.' where
  ne_dotted := by decide
  ne_sigma := by decide
  fixed := rfl

/-- A suffix that has been normalised stays as it is. -/
theorem normalizeSuffix_fixed {value suffix : Text}
    (hsuffix : normalizeSuffix value = some suffix) : normalizeSuffix suffix = some suffix := by
  have hsmall : ∀ c ∈ Text.lower (Text.trim value), Text.IsSmall c := fun _ =>
    Text.isSmall_of_mem_lower
  have htrimmed := (Text.trimmed_trim value).lower
  rw [normalizeSuffix] at hsuffix
  split at hsuffix
  · cases hsuffix
  · next rest hrest =>
    cases hsuffix
    rw [hrest] at hsmall htrimmed
    exact normalizeSuffix_point htrimmed hsmall
  · next hnil hpoint =>
    cases hsuffix
    apply normalizeSuffix_point
    · obtain ⟨c, rest, hrest⟩ := List.exists_cons_of_ne_nil hnil
      refine ⟨?_, ?_⟩
      · rintro _ ⟨⟩
        rfl
      · rw [hrest, List.getLast?_cons_cons, ← hrest]
        exact htrimmed.last
    · exact List.forall_mem_cons.mpr ⟨isSmall_point, hsmall⟩

theorem normalizeSuffixes_fixed (values : List Text) :
    normalizeSuffixes (normalizeSuffixes values) = normalizeSuffixes values := by
  have hfixed : ∀ suffix ∈ normalizeSuffixes values, normalizeSuffix suffix = some suffix := by
    intro suffix hmem
    obtain ⟨value, -, hvalue⟩ := List.mem_filterMap.mp hmem
    exact normalizeSuffix_fixed hvalue
  exact (List.filterMap_congr hfixed).trans (List.filterMap_some)

/-- Names that have been normalised stay as they are. -/
theorem normalizeNames_fixed {cleaned : List Text}
    (hcleaned : normalizeNames values = some cleaned) : normalizeNames cleaned = some cleaned := by
  simp only [normalizeNames] at hcleaned
  split at hcleaned
  · cases hcleaned
  · next hsome =>
    cases hcleaned
    have hfixed : ∀ name ∈ (values.map Text.trim).filter (!·.isEmpty), Text.trim name = name := by
      intro name hmem
      obtain ⟨value, -, rfl⟩ := List.mem_map.mp (List.mem_of_mem_filter hmem)
      exact (Text.trimmed_trim value).trim_eq
    have htrims := (List.map_congr_left hfixed).trans (List.map_id' _)
    rw [normalizeNames, htrims, List.filter_filter]
    simp only [Bool.and_self]
    exact if_neg hsome

theorem textsFrom_texts (place : Place) (index : Nat) (values : List Text) :
    textsFrom place index (values.map .text) = .ok values := by
  induction values generalizing index with
  | nil => rfl
  | cons value rest ih =>
      rw [List.map_cons, textsFrom, ih]
      rfl

theorem textList_ofTexts (place : Place) (values : List Text) :
    textList place (ofTexts values) = .ok values := textsFrom_texts place 0 values

theorem stable_suffixes : Stable suffixes ofTexts := by
  intro place datum value other hvalue
  rw [suffixes, except_bind_eq_ok] at hvalue ⊢
  obtain ⟨texts, -, htexts⟩ := hvalue
  refine ⟨value, textList_ofTexts other value, ?_⟩
  dsimp only at htexts ⊢
  split at htexts
  · cases htexts
  · next hsome =>
    cases htexts
    rw [normalizeSuffixes_fixed, if_neg hsome]
    rfl

theorem stems_ofTexts (place : Place) (values : List Text) :
    stems place (ofTexts values) = .ok (normalizeNames values) := by
  rw [stems, ofTexts, optional_of_ne_null (by nofun), ← ofTexts, textList_ofTexts]
  rfl

theorem stable_stems : Stable stems (ofOption ofTexts) := by
  intro place datum value? other hvalue
  rw [stems, except_bind_eq_ok] at hvalue
  obtain ⟨texts?, -, htexts⟩ := hvalue
  cases texts? with
  | none =>
      cases htexts
      rfl
  | some texts =>
      cases htexts
      cases hcleaned : normalizeNames texts with
      | none => rw [Option.bind_some, hcleaned]; rfl
      | some cleaned =>
          rw [Option.bind_some, hcleaned, ofOption, stems_ofTexts, normalizeNames_fixed hcleaned]

/-! ### Variables -/

theorem variableValue_ofVariable (place : Place) (value : PropValue) :
    variableValue place (ofVariable value) = .ok value := by
  cases value with
  | scalar text => rfl
  | list values =>
      have hlist := textList_ofTexts (place ++ ["list[str]".toList]) values
      simp only [ofVariable, ofTexts, variableValue] at hlist ⊢
      rw [hlist]

theorem valuesFrom_ofVariables (place : Place) (globals : Props) :
    valuesFrom place (globals.map fun (name, value) => (name, ofVariable value)) = .ok globals := by
  induction globals with
  | nil => rfl
  | cons entry rest ih =>
      rw [List.map_cons, valuesFrom, variableValue_ofVariable, ih]
      rfl

def ofVariables (globals : Props) : Datum :=
  .table (globals.map fun (name, value) => (name, ofVariable value))

theorem stable_variableTable : Stable variableTable ofVariables :=
  fun _ _ globals other _ => valuesFrom_ofVariables other globals

/-! ## Writing a configuration down -/

variable {name : String} {default value : α}

/-- What is in a field, given or not, is the same after one more check. -/
theorem Stable.of_field (hstable : Stable check write)
    (hdefault : check [name.toList] (write default) = .ok default)
    (hfield : field table name check default = .ok value) :
    check [name.toList] (write value) = .ok value := by
  rw [field] at hfield
  split at hfield
  · exact hstable _ _ value _ hfield
  · cases hfield
    exact hdefault

theorem Reads.dump (hreads : Reads table config) : Reads (dump config) config where
  source := (stable_path.optional nofun).of_field rfl hreads.source
  output := (stable_path.optional nofun).of_field rfl hreads.output
  components := stable_path.of_field rfl hreads.components
  depth := ((stable_natural 0).optional nofun).of_field rfl hreads.depth
  names := stable_stems.of_field rfl hreads.names
  extensions := stable_suffixes.of_field rfl hreads.extensions
  componentExtensions := stable_suffixes.of_field rfl hreads.componentExtensions
  globals := stable_variableTable.of_field rfl hreads.globals
  traceMarkers := stable_boolean.of_field rfl hreads.traceMarkers
  workers := ((stable_natural 1).optional nofun).of_field rfl hreads.workers
  host := stable_text.of_field rfl hreads.host
  port := stable_portNumber.of_field rfl hreads.port

theorem keys_dump (config : BuildConfig) : (dump config).map Prod.fst = fieldNames := rfl

/-- Checking an accepted configuration once more changes nothing. -/
theorem validate_dump (hvalid : validate table = .ok config) :
    validate (dump config) = .ok config := by
  rw [validate_eq_ok_iff] at hvalid ⊢
  refine ⟨hvalid.1.dump, fun entry hmem => ?_⟩
  rw [← keys_dump config]
  exact List.mem_map_of_mem hmem

end PageLoom.Config
