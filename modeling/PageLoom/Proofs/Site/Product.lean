import PageLoom.Proofs.Component.Scratch
import PageLoom.Proofs.Disk.Put
import PageLoom.Proofs.Site.Frame
import PageLoom.Proofs.Site.FullBuild
import PageLoom.Proofs.Site.Rebuild

/-!
# What is made of a source file

The product of a source file is its text expanded from scratch if it is a document, and its own
bytes if it is not. A full build puts the product of each file in its place: whatever it has
rendered before a document, it writes for it what a fresh session writes.
-/

namespace PageLoom.Site

open Component Disk DiskAction BuildAction

namespace Plan

/-! ## Products -/

/-- The templates that a builder finds on a disk. -/
def templatesOn (plan : Plan) (disk : Disk) : List (Text × Text) :=
  Store.templatesOn disk plan.components (plan.config.componentExtensions.map Text.lower)

/-- The store of a new builder that has loaded some templates. -/
def storeOf (plan : Plan) (templates : List (Text × Text)) : Store :=
  ⟨plan.components, plan.config.componentExtensions.map Text.lower, ⟨templates, 1⟩⟩

/-- The session of such a builder. -/
def freshSession (plan : Plan) (templates : List (Text × Text)) : Session :=
  Session.ofStore (plan.storeOf templates) plan.config.traceMarkers

/-- What is made of the content of a source file, unless it is a document that cannot be read or
expanded. -/
def product? (plan : Plan) (templates : List (Text × Text)) (below : List Text)
    (content : Bytes) : Option Bytes :=
  if plan.isDocument (plan.source ++ below) then
    (Utf8.decode? content).bind fun text =>
      ((plan.freshSession templates).written? text (textBelow below) plan.config.globals).map
        Utf8.encode
  else some content

/-- What is made of the source file on a disk, if there is one. -/
def made? (plan : Plan) (templates : List (Text × Text)) (disk : Disk) (below : List Text) :
    Option Bytes :=
  (bytesAt? (plan.source ++ below) disk).bind (plan.product? templates below)

/-- Nothing is below the output yet. -/
def EmptyOutput (plan : Plan) (disk : Disk) : Prop :=
  ∀ below ≠ [], disk.entry? (plan.output ++ below) = none

/-- A session for the components directory of a plan, with some templates. -/
structure Equipped (plan : Plan) (templates : List (Text × Text)) (session : Session) : Prop where
  kindred : plan.blankSession.Kindred session
  templates : session.store.library.templates = templates

variable {plan : Plan} {templates : List (Text × Text)} {before : Disk} {below : List Text}
variable {content bytes : Bytes} {session : Session}

theorem product?_document (hdocument : plan.isDocument (plan.source ++ below) = true) :
    plan.product? templates below content = some bytes ↔
      ∃ text expanded, Utf8.decode? content = some text ∧
        (plan.freshSession templates).written? text (textBelow below) plan.config.globals =
          some expanded ∧ Utf8.encode expanded = bytes := by
  rw [product?, if_pos hdocument, Option.bind_eq_some_iff]
  simp only [Option.map_eq_some_iff, exists_and_left]

theorem product?_other (hother : plan.isDocument (plan.source ++ below) = false) :
    plan.product? templates below content = some content := by
  rw [product?, hother]
  rfl

theorem made?_eq_some : plan.made? templates before below = some bytes ↔
    ∃ content, before.entry? (plan.source ++ below) = some (.file content) ∧
      plan.product? templates below content = some bytes := by
  rw [made?, Option.bind_eq_some_iff]
  simp only [bytesAt?_eq_some]

theorem equipped_freshSession (plan : Plan) (templates : List (Text × Text)) :
    plan.Equipped templates (plan.freshSession templates) := ⟨⟨rfl, rfl, rfl⟩, rfl⟩

theorem Equipped.afterCalls (hequipped : plan.Equipped templates session) (calls : List Call) :
    plan.Equipped templates (session.afterCalls calls) := by
  induction calls generalizing session with
  | nil => exact hequipped
  | cons call rest ih =>
      apply ih
      have hstore := Session.store_afterCall session call
      refine ⟨⟨?_, ?_, ?_⟩, ?_⟩
      · rw [hstore, hequipped.kindred.root]
      · rw [hstore, hequipped.kindred.extensions]
      · rw [Session.traced_afterCall, hequipped.kindred.traced]
      · rw [hstore, hequipped.templates]

theorem Equipped.clearCache (hequipped : plan.Equipped templates session) :
    plan.Equipped templates session.clearCache :=
  ⟨⟨hequipped.kindred.root, hequipped.kindred.extensions, hequipped.kindred.traced⟩,
    hequipped.templates⟩

/-- What a fresh session writes, every session with the same templates writes, whatever it has in
its cache. -/
theorem Equipped.written? (hequipped : plan.Equipped templates session) (hsound : session.Sound)
    (hclosed : session.Closed) {text file expanded : Text} {globals : Props}
    (hfresh : (plan.freshSession templates).written? text file globals = some expanded) :
    session.written? text file globals = some expanded := by
  apply Session.written?_of_scratch hsound hclosed
  rw [← hfresh, freshSession, ← hequipped.kindred.traced]
  exact Session.written?_ofStore_congr hequipped.templates

theorem load?_initialState (hdirectory : before.isDirectory plan.components = true) :
    (plan.initialState before).session.reset.load? before =
      some (plan.freshSession (plan.templatesOn before)) := by
  rw [Session.load?_eq]
  exact if_pos hdirectory

/-! ## Documents of a build -/

section Rendering

variable {state : BuildState} {text file : Text}

theorem Reached.equipped
    (hreached : plan.Reached before (plan.freshSession templates) session) :
    plan.Equipped templates session ∧ session.Sound ∧ session.Closed := by
  obtain ⟨calls, -, rfl⟩ := hreached
  have hlater := Session.continues_afterCalls (Session.sound_ofStore (plan.storeOf templates)
    plan.config.traceMarkers) (Session.closed_ofStore _ _) calls
  exact ⟨(equipped_freshSession plan templates).afterCalls calls, hlater.sound, hlater.closed⟩

/-- The turn of a document that has a product, and room for its staging file, ends with the
product. -/
theorem turnsOut_of_product (hequipped : plan.Equipped templates session) (hsound : session.Sound)
    (hclosed : session.Closed)
    (hcontent : before.entry? (plan.source ++ below) = some (.file content))
    (hdocument : plan.isDocument (plan.source ++ below) = true)
    (hproduct : plan.product? templates below content = some bytes)
    (hstages : before.Stages (plan.output ++ below)) :
    plan.TurnsOut before session (plan.source ++ below) (.ok bytes) := by
  obtain ⟨text, expanded, hdecoded, hfresh, rfl⟩ := (product?_document hdocument).mp hproduct
  have hrendered := Session.written?_eq_some.mp (hequipped.written? hsound hclosed hfresh)
  exact .written ⟨below, content, rfl, hcontent, hdecoded, rfl⟩ hrendered
    (plan.outputOf?_append below) hstages

/-- No build is ended by documents that have products. -/
theorem faultless_of_products
    (hproducts : ∀ below content, before.entry? (plan.source ++ below) = some (.file content) →
      plan.isDocument (plan.source ++ below) = true →
        ∃ bytes, plan.product? templates below content = some bytes) :
    plan.Faultless before (plan.freshSession templates) := by
  rintro session hreached document hmem text file ⟨below, read, rfl, hread, hdecoded, rfl⟩ fault
    hfault
  have hdocument : plan.isDocument (plan.source ++ below) = true :=
    isDocument_of_mem_documentsBelow hmem
  obtain ⟨bytes, hproduct⟩ := hproducts below read hread hdocument
  obtain ⟨other, written, hother, hfresh, rfl⟩ := (product?_document hdocument).mp hproduct
  cases hdecoded.symm.trans hother
  obtain ⟨hequipped, hsound, hclosed⟩ := hreached.equipped
  have hwritten := hequipped.written? hsound hclosed hfresh
  rw [Session.written?_eq_some.mp hwritten] at hfault
  cases hfault

end Rendering

/-! ## Full builds -/

/-- What a builder has loaded. -/
def outfit (state : BuildState) : Store × Bool × Bool :=
  (state.session.store, state.session.traced, state.loaded)

/-- Nothing but loading changes what a builder has loaded. -/
theorem spares_outfit (seen : Store × Bool × Bool) :
    Spares Footprint.everywhere fun state => outfit state = seen := by
  refine ⟨fun _ _ => ⟨fun _ _ _ hseen => hseen⟩, fun state session hstore htraced hseen => ?_⟩
  rw [← hseen, outfit, outfit, hstore, htraced]

/-- A builder that has loaded some templates. -/
structure Stocked (plan : Plan) (templates : List (Text × Text)) (state : BuildState) : Prop where
  equipped : plan.Equipped templates state.session
  loaded : state.loaded = true

theorem Stocked.of_outfit {state after : BuildState} (hstocked : plan.Stocked templates state)
    (houtfit : outfit after = outfit state) : plan.Stocked templates after := by
  obtain ⟨hstore, htraced, hflag⟩ : after.session.store = state.session.store ∧
      after.session.traced = state.session.traced ∧ after.loaded = state.loaded := by
    simpa [outfit] using houtfit
  refine ⟨⟨⟨?_, ?_, ?_⟩, ?_⟩, hflag.trans hstocked.loaded⟩
  · rw [hstore, hstocked.equipped.kindred.root]
  · rw [hstore, hstocked.equipped.kindred.extensions]
  · rw [htraced, hstocked.equipped.kindred.traced]
  · rw [hstore, hstocked.equipped.templates]

section Loading

variable {state after : BuildState} (hkindred : plan.blankSession.Kindred state.session)

include hkindred

theorem stocked_of_loadComponents {size : Nat}
    (hrun : runFrom plan.loadComponents state = (.ok size, after)) :
    plan.Stocked (plan.templatesOn state.disk) after := by
  rw [runFrom_loadComponents_eq] at hrun
  split at hrun
  · cases hrun
  · split at hrun
    · cases hrun
      refine ⟨⟨⟨hkindred.root, hkindred.extensions, hkindred.traced⟩, ?_⟩, rfl⟩
      change Store.templatesOn state.disk state.session.store.root
        state.session.store.extensions = _
      rw [← hkindred.root, ← hkindred.extensions]
      rfl
    · cases hrun

/-- After a build that ends with a report, a builder has loaded what was on the disk. -/
theorem stocked_of_build {processors : Nat} {report : BuildReport}
    (hrun : runFrom (plan.build processors) state = (.ok report, after)) :
    plan.Stocked (plan.templatesOn state.disk) after := by
  obtain ⟨size, loaded, taken, filled, outcomes, hload, -, -, hrender⟩ := stages_of_build hrun
  have hloaded := @stocked_of_loadComponents plan (restarted state) loaded
    ⟨hkindred.root, hkindred.extensions, hkindred.traced⟩ size hload
  apply hloaded.of_outfit
  -- Nothing after the loading changes what is loaded.
  have hafter := (spares_outfit (outfit loaded)).renderParts
    (Footprint.covers_everywhere plan.output).toAdmits
    (partition (documents filled plan.rule plan.source) (plan.workers processors))
    { loaded with disk := filled } rfl
  rwa [hrender] at hafter

end Loading

/-- A new builder goes through all stages on a site with nothing in its way. -/
theorem Buildable.performed (hbuildable : plan.Buildable before) (processors : Nat)
    (hfaultless : plan.Faultless before (plan.freshSession (plan.templatesOn before))) :
    ∃ filled outcomes report after,
      runFrom (plan.build processors) (plan.initialState before) = (.ok report, after) ∧
      plan.Performed before filled (plan.freshSession (plan.templatesOn before)) outcomes after := by
  obtain ⟨filled, outcomes, report, after, hbuild, hperformed, -⟩ :=
    @Buildable.performs plan (plan.initialState before) _ hbuildable processors
      (load?_initialState hbuildable.components) hfaultless
  exact ⟨filled, outcomes, report, after, hbuild, hperformed⟩

namespace Performed

variable {filled : Disk} {after : BuildState}
variable {outcomes : List (Location × Except BuildError Location)}
variable (hperformed : plan.Performed before filled (plan.freshSession templates) outcomes after)

include hperformed

variable (hbuildable : plan.Buildable before)

include hbuildable

/-- The product of a file is put in its place, with some room for a document to be staged. -/
theorem entry?_of_product
    (hcontent : before.entry? (plan.source ++ below) = some (.file content))
    (hproduct : plan.product? templates below content = some bytes)
    (hstaging : plan.isDocument (plan.source ++ below) = true →
      Fits (stagingOf (plan.output ++ below))) :
    after.disk.entry? (plan.output ++ below) = some (.file bytes) := by
  have hfile := isFile_iff.mpr ⟨content, hcontent⟩
  have hbelow := ne_nil_of_isFile_append hbuildable.source hfile
  cases hdocument : plan.isDocument (plan.source ++ below) with
  | true =>
      have hmem := (mem_documents_iff hbuildable.wellFormed hbelow).mpr ⟨hfile, hdocument⟩
      obtain ⟨earlier, later, hsplit⟩ :=
        List.append_of_mem (hperformed.concluded.once.mem_iff.mpr hmem)
      have hearlier : ∀ document ∈ earlier, document ∈ documents before plan.rule plan.source := by
        intro document hturn
        rw [← hperformed.concluded.once.mem_iff, hsplit]
        exact List.mem_append_left _ hturn
      obtain ⟨hequipped, hsound, hclosed⟩ := (reached_sessionAfter hearlier).equipped
      have hturn := turnsOut_of_product hequipped hsound hclosed hcontent hdocument hproduct
        (.inl (hstaging hdocument))
      exact (hperformed.concluded.ok_mem_of_inTurn hbuildable.wellFormed
        (plan.outputOf?_append below) ⟨earlier, later, hsplit, hturn⟩).2
  | false =>
      have hother : plan.source ++ below ∉ documents before plan.rule plan.source := by
        intro hmem
        have hdocument' := ((mem_documents_iff hbuildable.wellFormed hbelow).mp hmem).2
        rw [Plan.isDocument, hdocument'] at hdocument
        cases hdocument
      rw [product?_other hdocument] at hproduct
      cases hproduct
      rw [hperformed.concluded.entry?_of_not_document hother]
      exact hperformed.copied.file hbuildable.source hcontent

theorem isDirectory_output : after.disk.isDirectory plan.output = true := by
  have hkept := hperformed.concluded.kept plan.output
  rw [isDirectory, hkept, ← isDirectory, hperformed.copied.output]
  intro document hmem htarget
  have houtput : plan.outputOf? plan.source = some plan.output := by
    simpa using plan.outputOf?_append []
  have hfile := (of_mem_documentsBelow hbuildable.wellFormed hmem).1
  rw [outputOf?_injective htarget houtput, isFile,
    isDirectory_iff.mp hbuildable.source] at hfile
  cases hfile

/-- Where the source has no file, an output that was empty is like the source. -/
theorem entry?_of_no_file (hempty : plan.EmptyOutput before)
    (hnoFile : before.isFile (plan.source ++ below) = false) :
    after.disk.entry? (plan.output ++ below) = before.entry? (plan.source ++ below) := by
  cases below with
  | nil =>
      rw [List.append_nil, List.append_nil, isDirectory_iff.mp hbuildable.source,
        isDirectory_iff.mp (hperformed.isDirectory_output hbuildable)]
  | cons name rest =>
      have hother : plan.source ++ name :: rest ∉ documents before plan.rule plan.source := by
        intro hmem
        have hfile := ((mem_documents_iff hbuildable.wellFormed (by simp)).mp hmem).1
        rw [hnoFile] at hfile
        cases hfile
      rw [hperformed.concluded.entry?_of_not_document hother]
      cases hentry : before.entry? (plan.source ++ name :: rest) with
      | none => rw [hperformed.copied.kept name rest hentry, hempty _ (by simp)]
      | some entry => exact hperformed.copied.copied name rest entry hentry

end Performed

end Plan

end PageLoom.Site
