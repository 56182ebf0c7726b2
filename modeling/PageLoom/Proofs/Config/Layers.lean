import PageLoom.Config.Layers
import PageLoom.Proofs.Config.Fields
import PageLoom.Proofs.Table

/-!
# Tables over tables

A layer of a configuration is a table that gives some of its fields. Over another table it counts
first: a field is looked up in the layer, and below it only if the layer does not give it. The same
comes of overrides that are put into the table below, one after the other.
-/

namespace PageLoom.Config

open Site

variable {table lower overrides : Table} {name other : Text} {datum : Datum}

/-! ## Looking up -/

theorem Table.get?_insert (table : Table) (key other : Text) (value : Datum) :
    (table.insert key value).get? other = if other = key then some value else table.get? other := by
  rw [insert, get?, PageLoom.Table.lookup_put]
  rfl

theorem Table.get?_append (table lower : Table) (name : Text) :
    (table ++ lower).get? name = (table.get? name).or (lower.get? name) :=
  List.lookup_append

theorem get?_override (table : Table) (hdistinct : (overrides.map Prod.fst).Nodup) (name : Text) :
    (override table overrides).get? name = (overrides ++ table).get? name := by
  rw [Table.get?_append]
  induction overrides generalizing table with
  | nil => rfl
  | cons entry rest ih =>
      rw [List.map_cons, List.nodup_cons] at hdistinct
      have hrest := ih (table.insert entry.1 entry.2) hdistinct.2
      rw [override, List.foldl_cons, ← override, hrest, Table.get?_insert]
      change _ = (List.lookup name (entry :: rest)).or _
      rw [PageLoom.Table.lookup_cons]
      by_cases hname : name = entry.1
      · have hnone : Table.get? rest entry.1 = none := by
          rw [Table.get?, ← Option.not_isSome_iff_eq_none, PageLoom.Table.lookup_isSome_iff]
          exact hdistinct.1
        rw [if_pos hname, if_pos hname, hname, hnone]
        rfl
      · rw [if_neg hname, if_neg hname]
        rfl

/-- Every name in a table is that of a field. -/
def IsKnown (table : Table) : Prop := ∀ entry ∈ table, entry.1 ∈ fieldNames

theorem IsKnown.insert (htable : IsKnown table) (hname : name ∈ fieldNames) :
    IsKnown (table.insert name datum) := by
  intro entry hmem
  rcases PageLoom.Table.mem_put hmem with rfl | hmem
  · exact hname
  · exact htable entry hmem

theorem IsKnown.fill {given : List Text} {value? : Option Int} (htable : IsKnown table)
    (hname : name ∈ fieldNames) : IsKnown (fill given name value? table) := by
  unfold Config.fill
  split
  · split
    · exact htable
    · exact htable.insert hname
  · exact htable

theorem IsKnown.override (htable : IsKnown table) (hoverrides : IsKnown overrides) :
    IsKnown (override table overrides) := by
  induction overrides generalizing table with
  | nil => exact htable
  | cons entry rest ih =>
      rw [IsKnown, List.forall_mem_cons] at hoverrides
      exact ih (htable.insert hoverrides.1) hoverrides.2

theorem get?_fill_of_ne {given : List Text} {value? : Option Int} (hother : other ≠ name) :
    (fill given name value? table).get? other = table.get? other := by
  unfold fill
  split
  · split
    · rfl
    · rw [Table.get?_insert, if_neg hother]
  · rfl

theorem get?_fill_self {given : List Text} {value? : Option Int} :
    (fill given name value? table).get? name =
      if name ∈ given then table.get? name
      else (value?.map Datum.integer).or (table.get? name) := by
  cases value? with
  | none => simp [fill]
  | some value =>
      simp only [fill, List.contains_iff_mem]
      split
      · rfl
      · rw [Table.get?_insert, if_pos rfl]
        rfl

theorem mem_fieldsGiven_iff (hname : name ∈ fieldNames) :
    name ∈ fieldsGiven table ↔ (table.get? name).isSome :=
  List.mem_filter.trans (and_iff_right hname)

theorem loadedOf_eq_ok_iff {loaded : Loaded} : loadedOf table = .ok loaded ↔
    validate table = .ok loaded.config ∧ loaded.given = fieldsGiven table := by
  unfold loadedOf
  cases validate table with
  | error issues => exact ⟨nofun, fun hloaded => nomatch hloaded.1⟩
  | ok config =>
      constructor
      · intro hloaded
        obtain rfl := Except.ok.inj hloaded
        exact ⟨rfl, rfl⟩
      · rintro ⟨⟨⟩, hgiven⟩
        rw [← hgiven]

theorem loadedOf_nil : loadedOf [] = .ok nothingLoaded := rfl

/-! ## Fields of layers -/

section Fields

variable {α : Type} {check : Place → Datum → Checked α} {default value : α}

/-- A field depends only on what the table has for it. -/
theorem field_congr {left right : Table} {name : String}
    (hsame : left.get? name.toList = right.get? name.toList) :
    field left name check default = field right name check default := by
  rw [field, field, hsame]

theorem field_append_of_some {name : String} {datum : Datum}
    (hgiven : table.get? name.toList = some datum) :
    field (table ++ lower) name check default = check [name.toList] datum := by
  rw [field, Table.get?_append, hgiven]
  rfl

theorem field_append_of_none {name : String} (hfree : table.get? name.toList = none) :
    field (table ++ lower) name check default = field lower name check default := by
  apply field_congr
  rw [Table.get?_append, hfree]
  rfl

end Fields

/-! ## All fields alike -/

/-- The fields of a configuration: the name, the check and the default of each, and what the
configuration has there. -/
inductive IsField : {α : Type} → String → (Place → Datum → Checked α) → α → (BuildConfig → α) →
    Prop where
  | source : IsField "source" (optional path) defaultConfig.source (·.source)
  | output : IsField "output" (optional path) defaultConfig.output (·.output)
  | components : IsField "components" path defaultConfig.components (·.components)
  | depth : IsField "depth" (optional (natural 0)) defaultConfig.depth (·.depth)
  | names : IsField "names" stems defaultConfig.names (·.names)
  | extensions : IsField "extensions" suffixes defaultConfig.extensions (·.extensions)
  | componentExtensions : IsField "component_extensions" suffixes
      defaultConfig.componentExtensions (·.componentExtensions)
  | globals : IsField "variables" variableTable defaultConfig.globals (·.globals)
  | traceMarkers : IsField "trace_markers" boolean defaultConfig.traceMarkers (·.traceMarkers)
  | workers : IsField "workers" (optional (natural 1)) defaultConfig.workers (·.workers)
  | host : IsField "host" text defaultConfig.host (·.host)
  | port : IsField "port" portNumber defaultConfig.port (·.port)

variable {left right : Table} {config : BuildConfig}

theorem Reads.field {α : Type} {name : String} {check : Place → Datum → Checked α} {default : α}
    {kept : BuildConfig → α} (hreads : Reads table config)
    (hfield : IsField name check default kept) :
    field table name check default = .ok (kept config) := by
  cases hfield with
  | source => exact hreads.source
  | output => exact hreads.output
  | components => exact hreads.components
  | depth => exact hreads.depth
  | names => exact hreads.names
  | extensions => exact hreads.extensions
  | componentExtensions => exact hreads.componentExtensions
  | globals => exact hreads.globals
  | traceMarkers => exact hreads.traceMarkers
  | workers => exact hreads.workers
  | host => exact hreads.host
  | port => exact hreads.port

/-- In each field both tables are accepted with the same value, or neither is accepted. -/
def Agree (left right : Table) : Prop :=
  ∀ ⦃α : Type⦄ ⦃name : String⦄ ⦃check : Place → Datum → Checked α⦄ ⦃default : α⦄
    ⦃kept : BuildConfig → α⦄, IsField name check default kept → ∀ value,
      field left name check default = .ok value ↔ field right name check default = .ok value

theorem Agree.symm (hagree : Agree left right) : Agree right left :=
  fun _ _ _ _ _ hfield value => (hagree hfield value).symm

theorem Agree.reads (hagree : Agree left right) (hreads : Reads left config) :
    Reads right config where
  source := (hagree .source _).mp hreads.source
  output := (hagree .output _).mp hreads.output
  components := (hagree .components _).mp hreads.components
  depth := (hagree .depth _).mp hreads.depth
  names := (hagree .names _).mp hreads.names
  extensions := (hagree .extensions _).mp hreads.extensions
  componentExtensions := (hagree .componentExtensions _).mp hreads.componentExtensions
  globals := (hagree .globals _).mp hreads.globals
  traceMarkers := (hagree .traceMarkers _).mp hreads.traceMarkers
  workers := (hagree .workers _).mp hreads.workers
  host := (hagree .host _).mp hreads.host
  port := (hagree .port _).mp hreads.port

theorem Agree.reads_iff (hagree : Agree left right) : Reads left config ↔ Reads right config :=
  ⟨hagree.reads, hagree.symm.reads⟩

/-- Put into a table, overrides count as a layer over it does. -/
theorem Agree.override (hagree : Agree table lower)
    (hdistinct : (overrides.map Prod.fst).Nodup) :
    Agree (override table overrides) (overrides ++ lower) := by
  intro α name check default kept hfield value
  rw [field_congr (get?_override table hdistinct name.toList)]
  cases hgiven : overrides.get? name.toList with
  | none =>
      rw [field_append_of_none hgiven, field_append_of_none hgiven]
      exact hagree hfield value
  | some datum => rw [field_append_of_some hgiven, field_append_of_some hgiven]

/-! ## Layers -/

/-- A table that gives each of its fields once and is accepted. -/
structure IsLayer (layer : Table) : Prop where
  distinct : (layer.map Prod.fst).Nodup
  accepted : ∃ config, validate layer = .ok config

variable {layer : Table} {upper : BuildConfig}

theorem IsLayer.isKnown (hlayer : IsLayer layer) : IsKnown layer := by
  obtain ⟨config, hvalid⟩ := hlayer.accepted
  exact (validate_eq_ok_iff.mp hvalid).2

theorem IsLayer.exists_reads (hlayer : IsLayer layer) : ∃ config, Reads layer config := by
  obtain ⟨config, hvalid⟩ := hlayer.accepted
  exact ⟨config, (validate_eq_ok_iff.mp hvalid).1⟩

theorem exists_field_append {α : Type} {name : String} {check : Place → Datum → Checked α}
    {default : α} {kept : BuildConfig → α} (hlayer : Reads layer upper)
    (hlower : Reads lower config) (hfield : IsField name check default kept) :
    ∃ value, field (layer ++ lower) name check default = .ok value := by
  cases hgiven : layer.get? name.toList with
  | none =>
      rw [field_append_of_none hgiven]
      exact ⟨_, hlower.field hfield⟩
  | some datum =>
      have hvalue := hlayer.field hfield
      rw [field, hgiven] at hvalue
      rw [field_append_of_some hgiven]
      exact ⟨_, hvalue⟩

/-- Over an accepted table, an accepted layer is accepted. -/
theorem exists_reads_append (hlayer : Reads layer upper) (hlower : Reads lower config) :
    ∃ result, Reads (layer ++ lower) result := by
  obtain ⟨source, hsource⟩ := exists_field_append hlayer hlower .source
  obtain ⟨output, houtput⟩ := exists_field_append hlayer hlower .output
  obtain ⟨components, hcomponents⟩ := exists_field_append hlayer hlower .components
  obtain ⟨depth, hdepth⟩ := exists_field_append hlayer hlower .depth
  obtain ⟨names, hnames⟩ := exists_field_append hlayer hlower .names
  obtain ⟨extensions, hextensions⟩ := exists_field_append hlayer hlower .extensions
  obtain ⟨componentExtensions, hcomponentExtensions⟩ :=
    exists_field_append hlayer hlower .componentExtensions
  obtain ⟨globals, hglobals⟩ := exists_field_append hlayer hlower .globals
  obtain ⟨traceMarkers, htraceMarkers⟩ := exists_field_append hlayer hlower .traceMarkers
  obtain ⟨workers, hworkers⟩ := exists_field_append hlayer hlower .workers
  obtain ⟨host, hhost⟩ := exists_field_append hlayer hlower .host
  obtain ⟨port, hport⟩ := exists_field_append hlayer hlower .port
  exact ⟨⟨source, output, components, depth, names, extensions, componentExtensions, globals,
    traceMarkers, workers, host, port⟩, hsource, houtput, hcomponents, hdepth, hnames,
    hextensions, hcomponentExtensions, hglobals, htraceMarkers, hworkers, hhost, hport⟩

theorem reads_nil : Reads [] defaultConfig := validateFields_eq_ok_iff.mp rfl

/-- A table is accepted if each of its entries is, on its own. -/
theorem exists_reads_of_entries (hentries : ∀ entry ∈ layer, ∃ config, Reads [entry] config) :
    ∃ config, Reads layer config := by
  induction layer with
  | nil => exact ⟨defaultConfig, reads_nil⟩
  | cons entry rest ih =>
      obtain ⟨hentry, hrest⟩ := List.forall_mem_cons.mp hentries
      obtain ⟨single, hsingle⟩ := hentry
      obtain ⟨others, hothers⟩ := ih hrest
      exact exists_reads_append hsingle hothers

end PageLoom.Config
