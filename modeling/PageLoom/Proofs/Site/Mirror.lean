import PageLoom.Proofs.Site.Update

/-!
# Outputs that mirror a source

An output mirrors the source if its files are the products of the source files, as far as there is
room for them. A full build into an empty output makes it so. When some files of the source have
changed, the places of these are stale, until each is dealt with on its own: a file is put there, or
removed. Directories that are left behind in the output do no harm as long as no place is that of a
file at one time and that of a directory at another.
-/

namespace PageLoom

namespace Disk

/-- The files and directories below a root stand where some sorting of places has them. -/
structure Sorted (disk : Disk) (root : Location) (folder : List Text → Prop) : Prop where
  files : ∀ below, disk.isFile (root ++ below) = true → ¬folder below
  folders : ∀ below, disk.isDirectory (root ++ below) = true → folder below

theorem Sorted.congr {disk after : Disk} {root : Location} {folder : List Text → Prop}
    (hsorted : disk.Sorted root folder)
    (hsame : ∀ below, after.entry? (root ++ below) = disk.entry? (root ++ below)) :
    after.Sorted root folder := by
  constructor
  · intro below hfile
    rw [isFile, hsame, ← isFile] at hfile
    exact hsorted.files below hfile
  · intro below hdirectory
    rw [isDirectory, hsame, ← isDirectory] at hdirectory
    exact hsorted.folders below hdirectory

/-- A disk is sorted as it is. -/
theorem sorted_self (disk : Disk) (root : Location) :
    disk.Sorted root fun below => disk.isDirectory (root ++ below) = true := by
  constructor
  · intro below hfile hdirectory
    rw [isFile, isDirectory_iff.mp hdirectory] at hfile
    cases hfile
  · exact fun below hdirectory => hdirectory

end Disk

namespace Site.Plan

open Component Disk DiskAction BuildAction

variable {plan : Plan} {templates : List (Text × Text)} {folder : List Text → Prop}
variable {disk after : Disk} {below : List Text} {content : Bytes}
variable {changed rest : List (List Text)}

/-! ## Documents that render -/

/-- A document that can be read, that is expanded after some calls at least, and that can be written
to its place. -/
structure Renders (plan : Plan) (templates : List (Text × Text)) (below : List Text)
    (content : Bytes) : Prop where
  expands : ∃ text calls expanded, Utf8.decode? content = some text ∧
    ((plan.freshSession templates).afterCalls calls).written? text (textBelow below)
      plan.config.globals = some expanded
  fits : Fits (plan.output ++ below)
  staged : Fits (stagingOf (plan.output ++ below))

/-- Every document on a disk renders. -/
def AllRender (plan : Plan) (templates : List (Text × Text)) (disk : Disk) : Prop :=
  ∀ below content, disk.entry? (plan.source ++ below) = some (.file content) →
    plan.isDocument (plan.source ++ below) = true → plan.Renders templates below content

/-- No component is refused as cyclic from scratch. -/
def Acyclic (plan : Plan) (templates : List (Text × Text)) : Prop :=
  Session.Acyclic (plan.storeOf templates) plan.config.traceMarkers

/-- Without cyclic components a document that renders has a product. -/
theorem Renders.product (hrenders : plan.Renders templates below content)
    (hacyclic : plan.Acyclic templates)
    (hdocument : plan.isDocument (plan.source ++ below) = true) :
    ∃ bytes, plan.product? templates below content = some bytes := by
  obtain ⟨text, calls, expanded, hdecoded, hwritten⟩ := hrenders.expands
  rw [freshSession, Session.written?_eq_scratch hacyclic] at hwritten
  exact ⟨_, (product?_document hdocument).mpr ⟨text, expanded, hdecoded, hwritten, rfl⟩⟩

theorem exists_product (hacyclic : plan.Acyclic templates)
    (hrenders : plan.isDocument (plan.source ++ below) = true →
      plan.Renders templates below content) :
    ∃ bytes, plan.product? templates below content = some bytes := by
  cases hdocument : plan.isDocument (plan.source ++ below) with
  | false => exact ⟨content, product?_other hdocument⟩
  | true => exact (hrenders hdocument).product hacyclic hdocument

/-! ## Outputs in step with the source -/

/-- An output whose files are the products of the source files that there is room for, but for some
places. -/
structure Mirrors (plan : Plan) (templates : List (Text × Text)) (folder : List Text → Prop)
    (changed : List (List Text)) (disk : Disk) : Prop where
  wellFormed : disk.WellFormed
  output : disk.isDirectory plan.output = true
  sorted : disk.Sorted plan.output folder
  fits : ∀ below, disk.isFile (plan.output ++ below) = true → Fits (plan.output ++ below)
  shown : ∀ below ∉ changed, ∀ bytes, bytesAt? (plan.output ++ below) disk = some bytes ↔
    Fits (plan.output ++ below) ∧ plan.made? templates disk below = some bytes

theorem made?_congr
    (hsame : bytesAt? (plan.source ++ below) after = bytesAt? (plan.source ++ below) disk) :
    plan.made? templates after below = plan.made? templates disk below := by
  rw [made?, made?, hsame]

/-- When files of the source change under an output, their places are stale. -/
theorem Mirrors.change (hmirrors : plan.Mirrors templates folder [] disk)
    (hafter : after.WellFormed)
    (houtput : ∀ below, after.entry? (plan.output ++ below) = disk.entry? (plan.output ++ below))
    (hsource : ∀ below ∉ changed,
      bytesAt? (plan.source ++ below) after = bytesAt? (plan.source ++ below) disk) :
    plan.Mirrors templates folder changed after := by
  constructor
  case wellFormed => exact hafter
  case output =>
    have hroot := houtput []
    rw [List.append_nil] at hroot
    rw [isDirectory, hroot, ← isDirectory, hmirrors.output]
  case sorted => exact hmirrors.sorted.congr houtput
  case fits =>
    intro below hplace
    rw [isFile, houtput, ← isFile] at hplace
    exact hmirrors.fits below hplace
  case shown =>
    intro below hbelow bytes
    rw [bytesAt?, houtput, ← bytesAt?, made?_congr (hsource below hbelow)]
    exact hmirrors.shown below List.not_mem_nil bytes

/-- A stale place that is as it should be all the same is stale no longer. -/
theorem Mirrors.settle (hmirrors : plan.Mirrors templates folder (below :: rest) disk)
    (hfound : ∀ bytes, bytesAt? (plan.output ++ below) disk = some bytes ↔
      Fits (plan.output ++ below) ∧ plan.made? templates disk below = some bytes) :
    plan.Mirrors templates folder rest disk where
  wellFormed := hmirrors.wellFormed
  output := hmirrors.output
  sorted := hmirrors.sorted
  fits := hmirrors.fits
  shown other hother := by
    by_cases hplace : other = below
    · rw [hplace]
      exact hfound
    · exact hmirrors.shown other (by simp [hplace, hother])

section Apart

variable (houtside : isWithin plan.source plan.output = false)
variable (hinside : isWithin plan.output plan.source = false)

include houtside hinside

/-- A stale place is in step again once it has the product of its source file, if there is one and
there is room for it, and no file otherwise. -/
theorem Mirrors.replaces {found? : Option Bytes}
    (hmirrors : plan.Mirrors templates folder (below :: rest) disk)
    (hreplaces : disk.Replaces after (plan.output ++ below) found?)
    (habove : ∀ above, above <+: below.dropLast → folder above) (hbelow : ¬folder below)
    (hfound : ∀ bytes, found? = some bytes ↔
      Fits (plan.output ++ below) ∧ plan.made? templates disk below = some bytes) :
    plan.Mirrors templates folder rest after := by
  have hnames : below ≠ [] := by
    rintro rfl
    exact hbelow (habove [] (List.prefix_refl _))
  have hfile : ∀ other, after.isFile (plan.output ++ other) = true →
      (other = below ∧ Fits (plan.output ++ below)) ∨
        disk.isFile (plan.output ++ other) = true := by
    intro other hother
    rw [← isSome_bytesAt?, hreplaces.bytes] at hother
    split_ifs at hother with hsame
    · obtain ⟨bytes, hbytes⟩ := Option.isSome_iff_exists.mp hother
      exact .inl ⟨List.append_cancel_left hsame, ((hfound bytes).mp hbytes).1⟩
    · exact .inr (by rwa [← isSome_bytesAt?])
  constructor
  case wellFormed => exact hreplaces.wellFormed
  case output => exact hreplaces.directories _ hmirrors.output
  case sorted =>
    constructor
    · intro other hother
      rcases hfile other hother with ⟨rfl, -⟩ | hother
      · exact hbelow
      · exact hmirrors.sorted.files other hother
    · intro other hother
      rcases hreplaces.added _ hother with hother | hother
      · exact hmirrors.sorted.folders other hother
      · rw [List.dropLast_append_of_ne_nil hnames, List.prefix_append_right_inj] at hother
        exact habove other hother
  case fits =>
    intro other hother
    rcases hfile other hother with ⟨rfl, hfits⟩ | hother
    · exact hfits
    · exact hmirrors.fits other hother
  case shown =>
    intro other hother bytes
    have hsame : bytesAt? (plan.source ++ other) after = bytesAt? (plan.source ++ other) disk := by
      rw [hreplaces.bytes, if_neg (append_ne_append houtside hinside other below)]
    rw [hreplaces.bytes, made?_congr hsame]
    by_cases hplace : other = below
    · rw [if_pos (by rw [hplace]), hplace]
      exact hfound bytes
    · rw [if_neg fun hsame => hplace (List.append_cancel_left hsame)]
      exact hmirrors.shown other (by simp [hplace, hother]) bytes

omit houtside hinside in
/-- Nothing is in the way of a source file where the output and the source are sorted alike. -/
theorem Mirrors.receives (hmirrors : plan.Mirrors templates folder changed disk)
    (hsorted : disk.Sorted plan.source folder)
    (hcontent : disk.entry? (plan.source ++ below) = some (.file content)) :
    (∀ above, above <+: below.dropLast → folder above) ∧ ¬folder below ∧
      disk.Receives (plan.output ++ below) := by
  have hbelow : ¬folder below := hsorted.files below (isFile_iff.mpr ⟨content, hcontent⟩)
  have hnames : below ≠ [] := by
    rintro rfl
    apply hbelow
    apply hmirrors.sorted.folders
    rw [List.append_nil, hmirrors.output]
  have habove : ∀ above, above <+: below.dropLast → folder above := fun above hprefixed =>
    hsorted.folders above (hmirrors.wellFormed.isDirectory_above hcontent hnames hprefixed)
  refine ⟨habove, hbelow, receives_append hnames (hmirrors.wellFormed.clear hmirrors.output) ?_ ?_⟩
  · intro above hprefixed
    rw [Bool.eq_false_iff]
    exact fun hfile => hmirrors.sorted.files above hfile (habove above hprefixed)
  · rw [Bool.eq_false_iff]
    exact fun hdirectory => hbelow (hmirrors.sorted.folders below hdirectory)

/-- An update of a source file that is there brings its place in step. -/
theorem Mirrors.processFile {state : BuildState}
    (hmirrors : plan.Mirrors templates folder (below :: rest) state.disk)
    (hstocked : plan.Stocked templates state) (hacyclic : plan.Acyclic templates)
    (hsorted : state.disk.Sorted plan.source folder)
    (hcontent : state.disk.entry? (plan.source ++ below) = some (.file content))
    (hrenders : plan.isDocument (plan.source ++ below) = true →
      plan.Renders templates below content) :
    plan.Mirrors templates folder rest
      (runFrom (plan.processFile (plan.source ++ below)) state).2.disk := by
  obtain ⟨habove, hbelow, hreceives⟩ := hmirrors.receives hsorted hcontent
  have hawaits : plan.Awaits templates state below content :=
    ⟨hstocked, hmirrors.wellFormed, hreceives, hcontent⟩
  obtain ⟨bytes, hproduct⟩ := exists_product hacyclic hrenders
  have hmade : plan.made? templates state.disk below = some bytes :=
    made?_eq_some.mpr ⟨content, hcontent, hproduct⟩
  by_cases hfits : Fits (plan.output ++ below)
  · obtain ⟨after, hrun, -, hdisk⟩ := runFrom_processFile_product hawaits hproduct hfits houtside
      hinside fun hdocument => (hrenders hdocument).staged
    rw [hrun, hdisk]
    apply hmirrors.replaces houtside hinside
      (replaces_withFile hmirrors.wellFormed hreceives bytes) habove hbelow
    intro other
    rw [hmade]
    exact ⟨fun hother => ⟨hfits, hother⟩, And.right⟩
  · -- There is no room for the file, so it is not a document, and no copy is there.
    have hother : plan.isDocument (plan.source ++ below) = false :=
      Bool.eq_false_iff.mpr fun hdocument => hfits (hrenders hdocument).fits
    have habsent : state.disk.entry? (plan.output ++ below) = none := by
      cases hentry : state.disk.entry? (plan.output ++ below) with
      | none => rfl
      | some entry =>
          cases entry with
          | directory =>
              exact absurd (isDirectory_iff.mpr hentry) (Bool.eq_false_iff.mp hreceives.free)
          | file old => exact absurd (hmirrors.fits below (isFile_iff.mpr ⟨old, hentry⟩)) hfits
    have hnone : bytesAt? (plan.output ++ below) state.disk = none := by rw [bytesAt?, habsent]
    obtain ⟨above, hprefixed, hrun⟩ :=
      runFrom_processFile_overlong hawaits houtside hother hfits habsent
    rw [hrun]
    apply hmirrors.replaces houtside hinside
      (replaces_addDirectories hmirrors.wellFormed hreceives.clear hprefixed) habove hbelow
    intro other
    rw [hnone]
    exact ⟨fun hsome => (by cases hsome), fun hroom => absurd hroom.1 hfits⟩

end Apart

/-! ## Full builds -/

section Built

variable {before filled : Disk} {built : BuildState}
variable {outcomes : List (Location × Except BuildError Location)}
variable (hbuildable : plan.Buildable before) (hempty : plan.EmptyOutput before)
variable (hacyclic : plan.Acyclic templates) (hrenders : plan.AllRender templates before)

include hacyclic hrenders in
theorem faultless_of_allRender : plan.Faultless before (plan.freshSession templates) :=
  faultless_of_products fun below content hcontent hdocument =>
    (hrenders below content hcontent hdocument).product hacyclic hdocument

variable (hperformed : plan.Performed before filled (plan.freshSession templates) outcomes built)

include hperformed in
theorem Performed.bytesAt?_source (below : List Text) :
    bytesAt? (plan.source ++ below) built.disk = bytesAt? (plan.source ++ below) before := by
  rw [bytesAt?, entry?_of_under hperformed.rendering.source
    (isWithin_iff.mpr (List.prefix_append ..)), ← bytesAt?]

include hbuildable hempty hacyclic hrenders hperformed

/-- A full build puts the products of all source files into the output. -/
theorem Performed.output (below : List Text) :
    bytesAt? (plan.output ++ below) built.disk = plan.made? templates before below ∧
      built.disk.isDirectory (plan.output ++ below) =
        before.isDirectory (plan.source ++ below) := by
  cases hfile : before.isFile (plan.source ++ below) with
  | false =>
      have hentry := hperformed.entry?_of_no_file hbuildable hempty hfile
      have hnone : bytesAt? (plan.source ++ below) before = none := by
        rwa [← isSome_bytesAt?, Option.isSome_eq_false_iff, Option.isNone_iff_eq_none] at hfile
      rw [bytesAt?, hentry, ← bytesAt?, made?, hnone, isDirectory, hentry]
      exact ⟨rfl, rfl⟩
  | true =>
      obtain ⟨content, hcontent⟩ := isFile_iff.mp hfile
      have hdocument : plan.isDocument (plan.source ++ below) = true →
          plan.Renders templates below content := hrenders below content hcontent
      obtain ⟨bytes, hproduct⟩ := exists_product hacyclic hdocument
      have hentry := hperformed.entry?_of_product hbuildable hcontent hproduct
        fun hpage => (hdocument hpage).staged
      rw [bytesAt?_eq_some.mpr hentry, made?_eq_some.mpr ⟨content, hcontent, hproduct⟩,
        isDirectory, hentry, isDirectory, hcontent]
      exact ⟨rfl, rfl⟩

/-- After a full build into an empty output, the output mirrors the source. -/
theorem Performed.mirrors (hsorted : before.Sorted plan.source folder) :
    plan.Mirrors templates folder [] built.disk := by
  have houtput := hperformed.output hbuildable hempty hacyclic hrenders
  have hfile : ∀ below, built.disk.isFile (plan.output ++ below) = true →
      before.isFile (plan.source ++ below) = true := by
    intro below hplace
    rw [← isSome_bytesAt?, (houtput below).1] at hplace
    obtain ⟨bytes, hmade⟩ := Option.isSome_iff_exists.mp hplace
    obtain ⟨content, hcontent, -⟩ := made?_eq_some.mp hmade
    exact isFile_iff.mpr ⟨content, hcontent⟩
  have hroom : ∀ below, before.isFile (plan.source ++ below) = true →
      Fits (plan.output ++ below) := by
    intro below hplace
    obtain ⟨content, hcontent⟩ := isFile_iff.mp hplace
    exact hbuildable.copiesFit below _ hcontent
  constructor
  case wellFormed => exact hperformed.rendering.wellFormed
  case output => exact hperformed.isDirectory_output hbuildable
  case sorted =>
    constructor
    · exact fun below hplace => hsorted.files below (hfile below hplace)
    · exact fun below hplace => hsorted.folders below ((houtput below).2 ▸ hplace)
  case fits => exact fun below hplace => hroom below (hfile below hplace)
  case shown =>
    intro below _ bytes
    rw [(houtput below).1, made?_congr (hperformed.bytesAt?_source below)]
    constructor
    · intro hmade
      obtain ⟨content, hcontent, -⟩ := made?_eq_some.mp hmade
      exact ⟨hroom below (isFile_iff.mpr ⟨content, hcontent⟩), hmade⟩
    · exact And.right

end Built

/-- A full build into an empty output ends with a report, its output mirrors the source, and the
source stays as it is. -/
theorem Buildable.mirrors {before : Disk} (hbuildable : plan.Buildable before)
    (hempty : plan.EmptyOutput before) (hacyclic : plan.Acyclic (plan.templatesOn before))
    (hrenders : plan.AllRender (plan.templatesOn before) before)
    (hsorted : before.Sorted plan.source folder) (processors : Nat) :
    ∃ report built,
      runFrom (plan.build processors) (plan.initialState before) = (.ok report, built) ∧
      plan.Mirrors (plan.templatesOn before) folder [] built.disk ∧
      (∀ below, bytesAt? (plan.output ++ below) built.disk =
        plan.made? (plan.templatesOn before) before below) ∧
      ∀ below, bytesAt? (plan.source ++ below) built.disk =
        bytesAt? (plan.source ++ below) before := by
  obtain ⟨filled, outcomes, report, built, hrun, hperformed⟩ :=
    hbuildable.performed processors (faultless_of_allRender hacyclic hrenders)
  exact ⟨report, built, hrun,
    hperformed.mirrors hbuildable hempty hacyclic hrenders hsorted,
    fun below => (hperformed.output hbuildable hempty hacyclic hrenders below).1,
    hperformed.bytesAt?_source⟩

end Site.Plan

end PageLoom
