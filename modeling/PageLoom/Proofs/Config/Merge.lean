import PageLoom.Command.Run
import PageLoom.Proofs.Config.Layers
import PageLoom.Proofs.Config.Loading

/-!
# Merging the layers of a configuration

A field of the merged configuration is what the first layer that gives it says: an override, the
configuration file, the environment. In between the configuration file is written down and checked
again, which changes nothing, as its fields are the same after one more check.
-/

namespace PageLoom.Config

open Site Environment Command

variable {layer overrides : Table} {name : Text}

/-! ## What the environment sets -/

/-- A table of one field at most. -/
def textLayer (name : Text) (value? : Option Text) : Table :=
  (value?.map fun value => (name, .text value)).toList

/-- The fields that the environment sets, as the texts they are set to. -/
def settingsLayer (environment : Environment) : Table :=
  textLayer "port".toList (environment.setting? portVariable) ++
    textLayer "workers".toList (environment.setting? workersVariable)

variable {environment : Environment} {settings : Settings}

theorem get?_textLayer (name other : Text) (value? : Option Text) :
    (textLayer name value?).get? other = if other = name then value?.map .text else none := by
  cases value? with
  | none => exact (ite_self none).symm
  | some value => exact PageLoom.Table.lookup_cons (name, Datum.text value) [] other

theorem get?_settingsLayer_port (environment : Environment) :
    (settingsLayer environment).get? "port".toList =
      (environment.setting? portVariable).map .text := by
  rw [settingsLayer, Table.get?_append, get?_textLayer, get?_textLayer, if_pos rfl,
    if_neg (by decide), Option.or_none]

theorem get?_settingsLayer_workers (environment : Environment) :
    (settingsLayer environment).get? "workers".toList =
      (environment.setting? workersVariable).map .text := by
  rw [settingsLayer, Table.get?_append, get?_textLayer, get?_textLayer, if_neg (by decide),
    if_pos rfl, Option.none_or]

theorem get?_settingsLayer_of_ne (hport : name ≠ "port".toList)
    (hworkers : name ≠ "workers".toList) : (settingsLayer environment).get? name = none := by
  rw [settingsLayer, Table.get?_append, get?_textLayer, get?_textLayer, if_neg hport,
    if_neg hworkers, Option.none_or]

/-- A number, and the text that it was read from. -/
inductive Spelled : Option Int → Option Datum → Prop where
  | unset : Spelled none none
  | set {number : Int} {text : Text} (hnumber : integerOfText text = .ok number) :
      Spelled (some number) (some (.text text))

theorem spelled_of_wholeSetting {variableName : Text} {number? : Option Int}
    (hnumber : environment.wholeSetting variableName = .ok number?) :
    Spelled number? ((environment.setting? variableName).map .text) := by
  rw [wholeSetting] at hnumber
  cases hset : environment.setting? variableName with
  | none =>
      rw [hset] at hnumber
      cases hnumber
      exact .unset
  | some text =>
      rw [hset, map_eq_ok_iff] at hnumber
      obtain ⟨number, hplaced, rfl⟩ := hnumber
      exact .set (placed_eq_ok_iff.mp hplaced)

theorem settings_eq_ok_iff : environment.settings = .ok settings ↔
    environment.setting? levelVariable = settings.logLevel ∧
      environment.wholeSetting portVariable = .ok settings.port ∧
        environment.wholeSetting workersVariable = .ok settings.workers := by
  simp only [Environment.settings, Checked.and_eq_ok_iff]
  constructor
  · rintro ⟨_, _, ⟨_, _, ⟨⟩, hport, rfl⟩, hworkers, rfl⟩
    exact ⟨rfl, hport, hworkers⟩
  · rintro ⟨hlevel, hport, hworkers⟩
    exact ⟨_, _, ⟨_, _, rfl, hport, rfl⟩, hworkers, by rw [hlevel]⟩

/-- A check that takes a text that spells a whole number as it takes that number. -/
def TakesSpelled {α : Type} (check : Place → Datum → Checked α) : Prop :=
  ∀ place number text value, integerOfText text = .ok number →
    (check place (.integer number) = .ok value ↔ check place (.text text) = .ok value)

theorem takesSpelled_natural (least : Nat) : TakesSpelled (natural least) := by
  intro place number text value hnumber
  have hsame : integerOf (.integer number) = integerOf (.text text) := hnumber.symm
  rw [natural, natural, placed_eq_ok_iff, placed_eq_ok_iff, naturalOf_eq_ok_iff,
    naturalOf_eq_ok_iff, hsame]

theorem takesSpelled_portNumber : TakesSpelled portNumber := by
  intro place number text value hnumber
  have hsame : integerOf (.integer number) = integerOf (.text text) := hnumber.symm
  rw [portNumber, portNumber, placed_eq_ok_iff, placed_eq_ok_iff, portOf_eq_ok_iff,
    portOf_eq_ok_iff, hsame]

theorem TakesSpelled.optional {α : Type} {check : Place → Datum → Checked α}
    (hcheck : TakesSpelled check) : TakesSpelled (optional check) := by
  intro place number text value? hnumber
  change (check place _).map some = .ok value? ↔ (check place _).map some = .ok value?
  simp only [map_eq_ok_iff, hcheck place number text _ hnumber]

/-! ## The file and the environment -/

/-- A field that the environment can set is accepted alike in both tables: as the file has it, or
else as the environment sets it. -/
theorem field_filled_iff {α : Type} {name : String} {check : Place → Datum → Checked α}
    {default value : α} {number? : Option Int} {given : List Text}
    {file dumped filled layer : Table} (hcheck : TakesSpelled check)
    (hgivenIff : name.toList ∈ given ↔ (file.get? name.toList).isSome)
    (hdumped : field dumped name check default = field file name check default)
    (hspelled : Spelled number? (layer.get? name.toList))
    (hfilled : filled.get? name.toList =
      (fill given name.toList number? dumped).get? name.toList) :
    field filled name check default = .ok value ↔
      field (file ++ layer) name check default = .ok value := by
  rw [get?_fill_self] at hfilled
  cases hgiven : file.get? name.toList with
  | some datum =>
      rw [if_pos (hgivenIff.mpr (hgiven ▸ rfl))] at hfilled
      rw [field_congr hfilled, hdumped, field_append_of_some hgiven, field, hgiven]
  | none =>
      have hfree : name.toList ∉ given := by
        rw [hgivenIff, hgiven]
        exact Bool.noConfusion
      rw [if_neg hfree] at hfilled
      rw [field_append_of_none hgiven]
      -- What the environment sets is compared by what both tables then have for the field.
      cases hset : layer.get? name.toList with
      | none =>
          rw [hset] at hspelled
          cases hspelled
          rw [field_congr hfilled, hdumped, field, field, hgiven, hset]
      | some datum =>
          rw [hset] at hspelled
          cases hspelled with
          | set hnumber =>
              rw [field, field, hfilled, hset]
              exact hcheck _ _ _ _ hnumber

/-- A configuration file that is written down and filled up from the environment. -/
def filledTable (loaded : Loaded) (settings : Settings) : Table :=
  fill loaded.given "workers".toList settings.workers
    (fill loaded.given "port".toList settings.port (dump loaded.config))

variable {loaded : Loaded}

theorem get?_filledTable_port : (filledTable loaded settings).get? "port".toList =
    (fill loaded.given "port".toList settings.port (dump loaded.config)).get? "port".toList :=
  get?_fill_of_ne (by decide)

theorem get?_filledTable_workers : (filledTable loaded settings).get? "workers".toList =
    (fill loaded.given "workers".toList settings.workers
      (dump loaded.config)).get? "workers".toList := by
  rw [filledTable, get?_fill_self, get?_fill_self, get?_fill_of_ne (by decide)]

theorem get?_filledTable_of_ne (hworkers : name ≠ "workers".toList) (hport : name ≠ "port".toList) :
    (filledTable loaded settings).get? name = (dump loaded.config).get? name :=
  (get?_fill_of_ne hworkers).trans (get?_fill_of_ne hport)

theorem isKnown_filledTable : IsKnown (filledTable loaded settings) := by
  have hdumped : IsKnown (dump loaded.config) := by
    intro entry hmem
    rw [← keys_dump loaded.config]
    exact List.mem_map_of_mem hmem
  exact (hdumped.fill (by decide)).fill (by decide)

/-- Filled up from the environment, a configuration file is read like the file with the environment
after it. -/
theorem agree_filledTable {file : Table} (hloaded : loadedOf file = .ok loaded)
    (hsettings : environment.settings = .ok settings) :
    Agree (filledTable loaded settings) (file ++ settingsLayer environment) := by
  obtain ⟨hvalid, hgiven⟩ := loadedOf_eq_ok_iff.mp hloaded
  have hgivenIff : ∀ name ∈ fieldNames, name ∈ loaded.given ↔ (file.get? name).isSome := by
    rw [hgiven]
    exact fun name => mem_fieldsGiven_iff
  have hfile := (validate_eq_ok_iff.mp hvalid).1
  obtain ⟨-, hport, hworkers⟩ := settings_eq_ok_iff.mp hsettings
  intro α name check default kept hfield value
  have hdumped := (hfile.dump.field hfield).trans (hfile.field hfield).symm
  have hplain : name.toList ≠ "workers".toList → name.toList ≠ "port".toList →
      (field (filledTable loaded settings) name check default = .ok value ↔
        field (file ++ settingsLayer environment) name check default = .ok value) := by
    intro hworkers hport
    have hlayer : (file ++ settingsLayer environment).get? name.toList =
        file.get? name.toList := by
      rw [Table.get?_append, get?_settingsLayer_of_ne hport hworkers, Option.or_none]
    rw [field_congr (get?_filledTable_of_ne hworkers hport), field_congr hlayer, hdumped]
  cases hfield with
  | port =>
      exact field_filled_iff takesSpelled_portNumber (hgivenIff _ (by decide)) hdumped
        (get?_settingsLayer_port environment ▸ spelled_of_wholeSetting hport)
        get?_filledTable_port
  | workers =>
      exact field_filled_iff (takesSpelled_natural 1).optional (hgivenIff _ (by decide)) hdumped
        (get?_settingsLayer_workers environment ▸ spelled_of_wholeSetting hworkers)
        get?_filledTable_workers
  | source | output | components | depth | names | extensions | componentExtensions | globals
  | traceMarkers | host => exact hplain (by decide) (by decide)

/-! ## What a command line overrides -/

section CommandLine

variable {arguments : List Text} {uses : List Use} {sourceText : Text} {options : Options}

theorem toOption_eq_some_iff {ε α : Type} {result : Except ε α} {value : α} :
    result.toOption = some value ↔ result = .ok value := by
  cases result <;> simp [Except.toOption]

theorem checked?_eq_some_iff {α : Type} {check : Text → Option α} {text? : Option Text}
    {value? : Option α} : checked? check text? = some value? ↔
      (text? = none ∧ value? = none) ∨
        ∃ text value, text? = some text ∧ value? = some value ∧ check text = some value := by
  cases text? with
  | none => simp [checked?, eq_comm]
  | some text => simp [checked?, eq_comm, and_comm]

/-- The numbers among the options are in the ranges of their fields. -/
structure InRange (options : Options) : Prop where
  port : ∀ port ∈ options.port, port ≤ greatestPort
  workers : ∀ workers ∈ options.workers, 1 ≤ workers

theorem inRange_of_optionsOf (hoptions : optionsOf uses = some options) : InRange options := by
  simp only [optionsOf, Option.bind_eq_bind, Option.bind_eq_some_iff] at hoptions
  obtain ⟨depth, hdepth, port, hport, workers, hworkers, -, -, -, -, -, -, ⟨⟩⟩ := hoptions
  refine ⟨?_, ?_⟩
  · rintro value ⟨⟩
    obtain ⟨_, hnone⟩ | ⟨text, _, -, ⟨⟩, hvalue⟩ := checked?_eq_some_iff.mp hport
    · cases hnone
    · exact (portOf_eq_ok_iff.mp (toOption_eq_some_iff.mp hvalue)).2
  · rintro value ⟨⟩
    obtain ⟨_, hnone⟩ | ⟨text, _, -, ⟨⟩, hvalue⟩ := checked?_eq_some_iff.mp hworkers
    · cases hnone
    · exact (naturalOf_eq_ok_iff.mp (toOption_eq_some_iff.mp hvalue)).2

theorem inRange_of_ofArguments?
    (hbuild : Invocation.ofArguments? arguments = some (.build sourceText options)) :
    InRange options := by
  simp only [Invocation.ofArguments?, Option.bind_eq_bind, Option.bind_eq_some_iff] at hbuild
  obtain ⟨parsed, -, hparsed⟩ := hbuild
  split at hparsed
  · cases hparsed
  split at hparsed
  · cases hparsed
  obtain ⟨read, hread, hsource⟩ := Option.bind_eq_some_iff.mp hparsed
  have hsame : read = options := by
    split at hsource
    · cases hsource
    · obtain ⟨_, -, hinvocation⟩ := Option.bind_eq_some_iff.mp hsource
      split at hinvocation
      · cases hinvocation
        rfl
      · cases hinvocation
  exact hsame ▸ inRange_of_optionsOf hread

variable {source : Location}

/-- The keys of what is there of some values are among all keys, in their order. -/
theorem keys_filterMap_sublist {α : Type} (wrap : α → Datum) (entries : List (Text × Option α)) :
    ((entries.filterMap fun (name, value?) => value?.map fun value => (name, wrap value)).map
      Prod.fst).Sublist (entries.map Prod.fst) := by
  induction entries with
  | nil => exact List.Sublist.refl _
  | cons entry rest ih =>
      obtain ⟨name, value?⟩ := entry
      cases value? with
      | none => exact ih.cons name
      | some value => exact ih.cons_cons name

theorem keys_toList_sublist {α : Type} (wrap : α → Datum) (name : Text) (value? : Option α) :
    ((value?.map fun value => (name, wrap value)).toList.map Prod.fst).Sublist [name] := by
  cases value? with
  | none => exact List.nil_sublist _
  | some value => exact List.Sublist.refl _

/-- The fields that options override. -/
def overriddenFields : List Text := [
  "source".toList, "output".toList, "components".toList, "host".toList, "depth".toList,
  "workers".toList, "port".toList, "names".toList, "trace_markers".toList]

theorem keys_overrides_sublist (source : Location) (options : Options) :
    ((Command.overrides source options).map Prod.fst).Sublist overriddenFields := by
  rw [Command.overrides]
  simp only [List.map_append]
  exact (((keys_filterMap_sublist .text _).append (keys_filterMap_sublist ofNatural _)).append
    (keys_toList_sublist ofTexts _ _)).append (keys_toList_sublist .bool _ _)

theorem exists_reads_override (hrange : InRange options) {entry : Text × Datum}
    (hmem : entry ∈ Command.overrides source options) : ∃ config, Reads [entry] config := by
  rw [Command.overrides] at hmem
  simp only [List.mem_append, List.mem_filterMap, List.mem_cons, List.not_mem_nil, or_false,
    Option.mem_toList, Option.map_eq_some_iff, Prod.exists, Prod.mk.injEq] at hmem
  rcases hmem with ((⟨_, _, hentry, text, -, rfl⟩ | ⟨_, _, hentry, number, hnumber, rfl⟩) |
    ⟨names, -, rfl⟩) | ⟨traced, -, rfl⟩
  · rcases hentry with ⟨rfl, -⟩ | ⟨rfl, -⟩ | ⟨rfl, -⟩ | ⟨rfl, -⟩
    · exact ⟨{ defaultConfig with source := some (Path.ofText text) },
        { reads_nil with source := rfl }⟩
    · exact ⟨{ defaultConfig with output := some (Path.ofText text) },
        { reads_nil with output := rfl }⟩
    · exact ⟨{ defaultConfig with components := Path.ofText text },
        { reads_nil with components := rfl }⟩
    · exact ⟨{ defaultConfig with host := text }, { reads_nil with host := rfl }⟩
  · rcases hentry with ⟨rfl, rfl⟩ | ⟨rfl, rfl⟩ | ⟨rfl, rfl⟩
    · have hdepth := natural_ofNatural ["depth".toList] (Nat.zero_le number)
      exact ⟨{ defaultConfig with depth := some number },
        { reads_nil with depth := congrArg (Except.map some) hdepth }⟩
    · have hworkers := natural_ofNatural ["workers".toList] (hrange.workers number hnumber)
      exact ⟨{ defaultConfig with workers := some number },
        { reads_nil with workers := congrArg (Except.map some) hworkers }⟩
    · have hport := portNumber_ofNatural ["port".toList] (hrange.port number hnumber)
      exact ⟨{ defaultConfig with port := number }, { reads_nil with port := hport }⟩
  · exact ⟨{ defaultConfig with names := normalizeNames names },
      { reads_nil with names := stems_ofTexts ["names".toList] names }⟩
  · exact ⟨{ defaultConfig with traceMarkers := traced }, { reads_nil with traceMarkers := rfl }⟩

/-- What a command line overrides is accepted, and no field twice. -/
theorem isLayer_overrides
    (hbuild : Invocation.ofArguments? arguments = some (.build sourceText options)) :
    IsLayer (Command.overrides source options) := by
  have hkeys := keys_overrides_sublist source options
  have hfields : ∀ name ∈ overriddenFields, name ∈ fieldNames := by decide
  have hentries : ∀ entry ∈ Command.overrides source options, ∃ config, Reads [entry] config :=
    fun _ => exists_reads_override (inRange_of_ofArguments? hbuild)
  obtain ⟨config, hreads⟩ := exists_reads_of_entries hentries
  refine ⟨hkeys.nodup (by decide), config, validate_eq_ok_iff.mpr ⟨hreads, ?_⟩⟩
  exact fun entry hmem => hfields _ (hkeys.subset (List.mem_map_of_mem hmem))

end CommandLine

/-! ## All layers -/

/-- What the configuration file of a run gives: nothing if it has none. -/
def fileLayer (surroundings : Surroundings) (disk : Disk) (options : Options) :
    Except Stop Table := do
  match ← configPath surroundings disk options with
  | none => return []
  | some path => (tableAt surroundings.standpoint disk path).mapError loadStop

variable {surroundings : Surroundings} {disk : Disk} {options : Options}

/-- The configuration of a run is that of its configuration file. -/
theorem loadedFor_eq_ok_iff : loadedFor surroundings disk options = .ok loaded ↔
    ∃ file, fileLayer surroundings disk options = .ok file ∧ loadedOf file = .ok loaded := by
  rw [loadedFor, fileLayer]
  cases configPath surroundings disk options with
  | error stop => exact ⟨nofun, fun ⟨_, hfile, _⟩ => nomatch hfile⟩
  | ok path? =>
      cases path? with
      | none =>
          constructor
          · rintro ⟨⟩
            exact ⟨[], rfl, loadedOf_nil⟩
          · rintro ⟨_, ⟨⟩, hloaded⟩
            exact congrArg Except.ok (Except.ok.inj (loadedOf_nil.symm.trans hloaded))
      | some path =>
          change (loadConfig surroundings.standpoint disk path).mapError loadStop = _ ↔
            ∃ file, (tableAt surroundings.standpoint disk path).mapError loadStop = _ ∧ _
          simp only [except_mapError_eq_ok, loadConfig_eq, except_bind_eq_ok]

/-- For every configuration file that is loaded, or none, every environment that can be read and all
accepted overrides: the merged configuration has in each field what one check makes of the value in
the first layer that gives it, or the default. The overrides are the first layer, then comes the
file, then the environment. There is such a configuration if what the environment sets is accepted.
To check the file once more, written down, changes nothing. -/
theorem layered_reads_firstGiven (hloaded : loadedFor surroundings disk options = .ok loaded)
    (hsettings : surroundings.environment.settings = .ok settings)
    (hoverrides : IsLayer overrides) :
    ∃ file, fileLayer surroundings disk options = .ok file ∧ loadedOf file = .ok loaded ∧
      validate (dump loaded.config) = .ok loaded.config ∧
      (∀ config, layered loaded settings overrides = .ok config ↔
        Reads (overrides ++ (file ++ settingsLayer surroundings.environment)) config) ∧
      (∀ set, validate (settingsLayer surroundings.environment) = .ok set →
        ∃ config, layered loaded settings overrides = .ok config) := by
  obtain ⟨file, hfile, hread⟩ := loadedFor_eq_ok_iff.mp hloaded
  have hvalid := (loadedOf_eq_ok_iff.mp hread).1
  have hagree := (agree_filledTable hread hsettings).override hoverrides.distinct
  have hmerged : ∀ config, layered loaded settings overrides = .ok config ↔
      Reads (overrides ++ (file ++ settingsLayer surroundings.environment)) config := by
    intro config
    rw [← hagree.reads_iff]
    exact validate_eq_ok_iff.trans
      (and_iff_left (isKnown_filledTable.override hoverrides.isKnown))
  refine ⟨file, hfile, hread, validate_dump hvalid, hmerged, fun set hset => ?_⟩
  obtain ⟨lower, hlower⟩ :=
    exists_reads_append (validate_eq_ok_iff.mp hvalid).1 (validate_eq_ok_iff.mp hset).1
  obtain ⟨given, hgiven⟩ := hoverrides.exists_reads
  obtain ⟨config, hreads⟩ := exists_reads_append hgiven hlower
  exact ⟨config, (hmerged config).mpr hreads⟩

/-- A site with a configuration file that sets the port to its default. -/
def settledSite : Disk := ⟨[
  (["w".toList], .directory),
  (["w".toList, defaultFileName],
    .file (Utf8.encode "port = 8000\nsource = 'site'\nextensions = ['HTM ']\n".toList))]⟩

def settledSurroundings : Surroundings where
  standpoint := ⟨["w".toList], []⟩
  environment := [(portVariable, "9000".toList), (workersVariable, " 4 ".toList)]
  processors := 2

def settledOptions : Options where
  depth := some 0
  names := some ["index".toList]
  out := none
  components := none
  config := none
  verbose := false
  logLevel := none
  watch := false
  serve := false
  port := none
  host := none
  traceMarkers := none
  workers := none

def settledLoaded : Loaded where
  config := { defaultConfig with
    source := some (Path.ofText "/w/site".toList)
    extensions := [".htm".toList] }
  given := ["source".toList, "extensions".toList, "port".toList]

def settledSettings : Settings := ⟨none, some 9000, some 4⟩

theorem isLayer_settledOverrides :
    IsLayer (Command.overrides ["s".toList] settledOptions) := by
  have hbuild : Invocation.ofArguments?
      ["s".toList, "-d".toList, "0".toList, "--names=index".toList] =
        some (.build "s".toList settledOptions) := by decide +kernel
  exact isLayer_overrides hbuild

theorem layered_reads_firstGiven_settledSite :
    ∃ file, fileLayer settledSurroundings settledSite settledOptions = .ok file ∧
      loadedOf file = .ok settledLoaded ∧
      validate (dump settledLoaded.config) = .ok settledLoaded.config ∧
      (∀ config, layered settledLoaded settledSettings
          (Command.overrides ["s".toList] settledOptions) = .ok config ↔
        Reads (Command.overrides ["s".toList] settledOptions ++
          (file ++ settingsLayer settledSurroundings.environment)) config) ∧
      (∀ set, validate (settingsLayer settledSurroundings.environment) = .ok set →
        ∃ config, layered settledLoaded settledSettings
          (Command.overrides ["s".toList] settledOptions) = .ok config) :=
  layered_reads_firstGiven (by decide +kernel) (by decide +kernel) isLayer_settledOverrides

/-- The port is that of the file, the number of workers that of the environment. -/
example : layered settledLoaded settledSettings
    (Command.overrides ["s".toList] settledOptions) = .ok { settledLoaded.config with
      source := some (Path.ofText "/s".toList)
      depth := some 0
      names := some ["index".toList]
      workers := some 4 } := by decide +kernel

end PageLoom.Config
