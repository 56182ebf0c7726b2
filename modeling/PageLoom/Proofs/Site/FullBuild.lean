import Mathlib.Data.List.Permutation
import PageLoom.Proofs.Site.Buildable
import PageLoom.Proofs.Site.Partition
import PageLoom.Proofs.Site.Render
import PageLoom.Proofs.Site.Selection

/-!
# Full builds

A build of a site on which nothing is in its way ends with a report. Every document stands in it
once, as written or as failed, and which of the two it is follows from its turn: its bytes, the
session that the turns before it have left, and the room for its staging file. The output has what
the report says: the texts of the written documents, the copies of all other files of the source,
and whatever else was there before.
-/

namespace PageLoom.Site.Plan

open Component Disk DiskAction BuildAction

/-- How the turn of a document ends, among the turns that documents have one after the other from a
loaded session on. -/
def InTurn (plan : Plan) (before : Disk) (loaded : Session) (turns : List Location)
    (document : Location) (outcome : Except BuildError Bytes) : Prop :=
  ∃ earlier later, turns = earlier ++ document :: later ∧
    plan.TurnsOut before (plan.sessionAfter before loaded earlier) document outcome

/-- What a build makes of a site, given the session after the components are loaded and the order of
the turns. -/
structure Built (plan : Plan) (before : Disk) (loaded : Session) (turns : List Location)
    (report : BuildReport) (after : Disk) : Prop where
  dealt : turns.Perm (documents before plan.rule plan.source)
  writtenOnce : report.written.Nodup
  failedOnce : (report.failed.map Prod.fst).Nodup
  written_documents : ∀ target ∈ report.written,
    ∃ document ∈ documents before plan.rule plan.source, plan.outputOf? document = some target
  failed_documents : ∀ failure ∈ report.failed,
    failure.1 ∈ documents before plan.rule plan.source
  either : ∀ document ∈ documents before plan.rule plan.source, ∀ target,
    plan.outputOf? document = some target →
      (target ∈ report.written ↔ document ∉ report.failed.map Prod.fst)
  failed : ∀ document message, (document, message) ∈ report.failed ↔
    ∃ error, plan.InTurn before loaded turns document (.error error) ∧ error.message = message
  written : ∀ document target, plan.outputOf? document = some target →
    (target ∈ report.written ↔ ∃ bytes, plan.InTurn before loaded turns document (.ok bytes))
  contents : ∀ document target bytes, plan.outputOf? document = some target →
    plan.InTurn before loaded turns document (.ok bytes) →
      after.entry? target = some (.file bytes)
  copies : ∀ below bytes, before.entry? (plan.source ++ below) = some (.file bytes) →
    plan.output ++ below ∉ report.written →
      after.entry? (plan.output ++ below) = some (.file bytes)
  copied : report.copied = (Store.filesBelow before plan.source).length
  others : ∀ below, before.isFile (plan.source ++ below) = false → ∀ bytes,
    after.entry? (plan.output ++ below) = some (.file bytes) ↔
      before.entry? (plan.output ++ below) = some (.file bytes)

section Outcomes

variable {plan : Plan} {before start after : Disk} {loaded : Session}
variable {outcomes : List (Location × Except BuildError Location)} {target : Location}

theorem mem_writtenOf :
    target ∈ writtenOf outcomes ↔ ∃ document, (document, .ok target) ∈ outcomes := by
  rw [writtenOf, List.mem_filterMap]
  constructor
  · rintro ⟨⟨document, outcome⟩, hmem, htarget⟩
    cases outcome with
    | error error => cases htarget
    | ok found =>
        cases htarget
        exact ⟨document, hmem⟩
  · rintro ⟨document, hmem⟩
    exact ⟨_, hmem, rfl⟩

theorem mem_failedOf {document : Location} {message : Text} :
    (document, message) ∈ failedOf outcomes ↔
      ∃ error, (document, .error error) ∈ outcomes ∧ error.message = message := by
  rw [failedOf, List.mem_filterMap]
  constructor
  · rintro ⟨⟨found, outcome⟩, hmem, hfailure⟩
    cases outcome with
    | ok target => cases hfailure
    | error error =>
        cases hfailure
        exact ⟨error, hmem, rfl⟩
  · rintro ⟨error, hmem, rfl⟩
    exact ⟨_, hmem, rfl⟩

theorem mem_map_failedOf {document : Location} :
    document ∈ (failedOf outcomes).map Prod.fst ↔
      ∃ error, (document, .error error) ∈ outcomes := by
  constructor
  · intro hmem
    obtain ⟨failure, hfailure, rfl⟩ := List.mem_map.mp hmem
    obtain ⟨error, herror, -⟩ := mem_failedOf.mp hfailure
    exact ⟨error, herror⟩
  · rintro ⟨error, hmem⟩
    exact List.mem_map_of_mem (mem_failedOf.mpr ⟨error, hmem, rfl⟩)

/-- The outcome of a document that stands in the outcomes once. -/
theorem outcome_unique (hnodup : (outcomes.map Prod.fst).Nodup) {document : Location}
    {first second : Except BuildError Location} (hfirst : (document, first) ∈ outcomes)
    (hsecond : (document, second) ∈ outcomes) : first = second := by
  have hsame := List.inj_on_of_nodup_map hnodup hfirst hsecond rfl
  exact (Prod.mk.inj hsame).2

theorem nodup_writtenOf (hnodup : (outcomes.map Prod.fst).Nodup)
    (hplaced : ∀ document target, (document, .ok target) ∈ outcomes →
      plan.outputOf? document = some target) : (writtenOf outcomes).Nodup := by
  apply nodup_filterMap_of_keys hnodup
  rintro ⟨left, leftOutcome⟩ hleft ⟨right, rightOutcome⟩ hright target htarget hother
  cases leftOutcome with
  | error error => cases htarget
  | ok found =>
      cases rightOutcome with
      | error error => cases hother
      | ok second =>
          cases htarget
          cases hother
          exact outputOf?_injective (hplaced _ _ hleft) (hplaced _ _ hright)

theorem nodup_failedOf (hnodup : (outcomes.map Prod.fst).Nodup) :
    ((failedOf outcomes).map Prod.fst).Nodup := by
  rw [failedOf, List.map_filterMap]
  apply nodup_filterMap_of_keys hnodup
  rintro ⟨left, leftOutcome⟩ - ⟨right, rightOutcome⟩ - document hdocument hother
  cases leftOutcome with
  | ok target => cases hdocument
  | error error =>
      cases rightOutcome with
      | ok target => cases hother
      | error other =>
          cases hdocument
          cases hother
          rfl

theorem InTurn.mem {turns : List Location} {document : Location}
    {outcome : Except BuildError Bytes}
    (hturn : plan.InTurn before loaded turns document outcome) : document ∈ turns := by
  obtain ⟨earlier, later, rfl, -⟩ := hturn
  exact List.mem_append_right _ (List.mem_cons_self ..)

/-- A document that has one turn has one outcome. -/
theorem InTurn.unique {turns : List Location} (hnodup : turns.Nodup) {document : Location}
    {first second : Except BuildError Bytes}
    (hfirst : plan.InTurn before loaded turns document first)
    (hsecond : plan.InTurn before loaded turns document second) : first = second := by
  obtain ⟨earlier, later, rfl, hfirst⟩ := hfirst
  obtain ⟨others, rest, hsplit, hsecond⟩ := hsecond
  rw [List.nodup_middle, List.nodup_cons, List.mem_append, not_or] at hnodup
  obtain ⟨rfl, -, -⟩ := (List.append_cons_inj_of_notMem hnodup.1.1 hnodup.1.2).mp hsplit
  exact hfirst.unique hsecond

/-- Each document of the source has one outcome, the disk shows it, and nothing but outputs of
documents was written since the copy. -/
structure Concluded (plan : Plan) (before : Disk) (loaded : Session) (start after : Disk)
    (outcomes : List (Location × Except BuildError Location)) : Prop where
  once : (outcomes.map Prod.fst).Perm (documents before plan.rule plan.source)
  shows : plan.ShowInTurn before loaded start after outcomes
  kept : ∀ place, (∀ document ∈ documents before plan.rule plan.source,
    plan.outputOf? document ≠ some place) → after.entry? place = start.entry? place

namespace Concluded

variable {document : Location}

theorem nodup (hconcluded : plan.Concluded before loaded start after outcomes)
    (hbefore : before.WellFormed) : (outcomes.map Prod.fst).Nodup :=
  hconcluded.once.nodup_iff.mpr (nodup_documentsBelow hbefore plan.rule plan.source _ [])

theorem mem_documents (hconcluded : plan.Concluded before loaded start after outcomes)
    {outcome : Except BuildError Location} (hmem : (document, outcome) ∈ outcomes) :
    document ∈ documents before plan.rule plan.source :=
  hconcluded.once.mem_iff.mp (List.mem_map_of_mem hmem)

theorem exists_outcome (hconcluded : plan.Concluded before loaded start after outcomes)
    (hmem : document ∈ documents before plan.rule plan.source) :
    ∃ outcome, (document, outcome) ∈ outcomes := by
  obtain ⟨⟨found, outcome⟩, hfound, rfl⟩ := List.mem_map.mp (hconcluded.once.mem_iff.mpr hmem)
  exact ⟨outcome, hfound⟩

theorem shown (hconcluded : plan.Concluded before loaded start after outcomes)
    {outcome : Except BuildError Location} (hmem : (document, outcome) ∈ outcomes) :
    ∃ earlier later, outcomes.map Prod.fst = earlier ++ document :: later ∧
      plan.Shows before (plan.sessionAfter before loaded earlier) start after
        (document, outcome) := by
  obtain ⟨earlier, later, hsplit⟩ := List.append_of_mem hmem
  refine ⟨earlier.map Prod.fst, later.map Prod.fst, ?_, hconcluded.shows _ _ _ hsplit⟩
  rw [hsplit, List.map_append, List.map_cons]

theorem placed (hconcluded : plan.Concluded before loaded start after outcomes)
    (hmem : (document, .ok target) ∈ outcomes) : plan.outputOf? document = some target := by
  obtain ⟨_, _, -, hshown⟩ := hconcluded.shown hmem
  exact hshown.1

theorem inTurn_error (hconcluded : plan.Concluded before loaded start after outcomes)
    {error : BuildError} (hmem : (document, .error error) ∈ outcomes) :
    plan.InTurn before loaded (outcomes.map Prod.fst) document (.error error) := by
  obtain ⟨earlier, later, hsplit, hshown⟩ := hconcluded.shown hmem
  exact ⟨earlier, later, hsplit, hshown.1⟩

theorem inTurn_ok (hconcluded : plan.Concluded before loaded start after outcomes)
    (hmem : (document, .ok target) ∈ outcomes) :
    ∃ bytes, plan.InTurn before loaded (outcomes.map Prod.fst) document (.ok bytes) ∧
      after.entry? target = some (.file bytes) := by
  obtain ⟨earlier, later, hsplit, -, bytes, hturn, hentry⟩ := hconcluded.shown hmem
  exact ⟨bytes, ⟨earlier, later, hsplit, hturn⟩, hentry⟩

/-- A document has failed exactly if its turn ends with an error, and with that error. -/
theorem error_mem_iff (hconcluded : plan.Concluded before loaded start after outcomes)
    (hbefore : before.WellFormed) {error : BuildError} :
    (document, .error error) ∈ outcomes ↔
      plan.InTurn before loaded (outcomes.map Prod.fst) document (.error error) := by
  refine ⟨hconcluded.inTurn_error, fun hturn => ?_⟩
  obtain ⟨⟨found, outcome⟩, hmem, rfl⟩ := List.mem_map.mp hturn.mem
  cases outcome with
  | error other =>
      cases hturn.unique (hconcluded.nodup hbefore) (hconcluded.inTurn_error hmem)
      exact hmem
  | ok target =>
      obtain ⟨bytes, hwritten, -⟩ := hconcluded.inTurn_ok hmem
      cases hturn.unique (hconcluded.nodup hbefore) hwritten

/-- What the turn of a document ends with stands in its place. -/
theorem ok_mem_of_inTurn (hconcluded : plan.Concluded before loaded start after outcomes)
    (hbefore : before.WellFormed) (htarget : plan.outputOf? document = some target) {bytes : Bytes}
    (hturn : plan.InTurn before loaded (outcomes.map Prod.fst) document (.ok bytes)) :
    (document, .ok target) ∈ outcomes ∧ after.entry? target = some (.file bytes) := by
  obtain ⟨⟨found, outcome⟩, hmem, rfl⟩ := List.mem_map.mp hturn.mem
  cases outcome with
  | error other =>
      cases hturn.unique (hconcluded.nodup hbefore) (hconcluded.inTurn_error hmem)
  | ok place =>
      obtain ⟨written, hwritten, hentry⟩ := hconcluded.inTurn_ok hmem
      cases hturn.unique (hconcluded.nodup hbefore) hwritten
      cases htarget.symm.trans (hconcluded.placed hmem)
      exact ⟨hmem, hentry⟩

/-- No two documents go to one place, so that a written place tells which document was written. -/
theorem ok_of_mem_writtenOf (hconcluded : plan.Concluded before loaded start after outcomes)
    (htarget : plan.outputOf? document = some target) (hmem : target ∈ writtenOf outcomes) :
    (document, .ok target) ∈ outcomes := by
  obtain ⟨other, hother⟩ := mem_writtenOf.mp hmem
  rwa [outputOf?_injective htarget (hconcluded.placed hother)]

theorem mem_writtenOf_iff (hconcluded : plan.Concluded before loaded start after outcomes)
    (hbefore : before.WellFormed) (hmem : document ∈ documents before plan.rule plan.source)
    (htarget : plan.outputOf? document = some target) :
    target ∈ writtenOf outcomes ↔ document ∉ (failedOf outcomes).map Prod.fst := by
  constructor
  · intro hwrite hfail
    obtain ⟨error, hspoiled⟩ := mem_map_failedOf.mp hfail
    cases outcome_unique (hconcluded.nodup hbefore) hspoiled
      (hconcluded.ok_of_mem_writtenOf htarget hwrite)
  · intro hnotFailed
    obtain ⟨outcome, hfound⟩ := hconcluded.exists_outcome hmem
    cases outcome with
    | error error => exact absurd (mem_map_failedOf.mpr ⟨error, hfound⟩) hnotFailed
    | ok found =>
        have hsame := hconcluded.placed hfound
        rw [htarget, Option.some.injEq] at hsame
        rw [hsame]
        exact mem_writtenOf.mpr ⟨document, hfound⟩

theorem entry?_of_not_document (hconcluded : plan.Concluded before loaded start after outcomes)
    {below : List Text}
    (hbelow : plan.source ++ below ∉ documents before plan.rule plan.source) :
    after.entry? (plan.output ++ below) = start.entry? (plan.output ++ below) := by
  apply hconcluded.kept
  intro document hmem htarget
  rw [outputOf?_injective htarget (plan.outputOf?_append below)] at hmem
  exact hbelow hmem

/-- What was not written is as the copy left it, whether it is a failed document or no document. -/
theorem entry?_of_not_written (hconcluded : plan.Concluded before loaded start after outcomes)
    {below : List Text} (hnotWritten : plan.output ++ below ∉ writtenOf outcomes) :
    after.entry? (plan.output ++ below) = start.entry? (plan.output ++ below) := by
  by_cases hmem : plan.source ++ below ∈ documents before plan.rule plan.source
  · obtain ⟨outcome, hfound⟩ := hconcluded.exists_outcome hmem
    cases outcome with
    | error error =>
        obtain ⟨_, _, -, hshown⟩ := hconcluded.shown hfound
        exact hshown.2 _ (plan.outputOf?_append below)
    | ok found =>
        have hsame := hconcluded.placed hfound
        rw [outputOf?_append, Option.some.injEq] at hsame
        subst hsame
        exact absurd (mem_writtenOf.mpr ⟨_, hfound⟩) hnotWritten
  · exact hconcluded.entry?_of_not_document hmem

end Concluded

theorem Filled.file (hfilled : plan.Filled before start)
    (hsource : before.isDirectory plan.source = true) {below : List Text} {bytes : Bytes}
    (hfile : before.entry? (plan.source ++ below) = some (.file bytes)) :
    start.entry? (plan.output ++ below) = some (.file bytes) := by
  cases below with
  | nil =>
      rw [List.append_nil, isDirectory_iff.mp hsource] at hfile
      cases hfile
  | cons name rest => exact hfilled.copied name rest _ hfile

/-- Where the source has no file, the copy neither makes a file in the output nor takes one away:
neither a directory that it makes nor the output itself was a file before. -/
theorem Buildable.file_iff (hbuildable : plan.Buildable before)
    (hfilled : plan.Filled before start) {below : List Text}
    (hnoFile : before.isFile (plan.source ++ below) = false) (bytes : Bytes) :
    start.entry? (plan.output ++ below) = some (.file bytes) ↔
      before.entry? (plan.output ++ below) = some (.file bytes) := by
  have hdirectory : start.isDirectory (plan.output ++ below) = true →
      before.isFile (plan.output ++ below) = false →
        (start.entry? (plan.output ++ below) = some (.file bytes) ↔
          before.entry? (plan.output ++ below) = some (.file bytes)) := by
    intro hstart hbefore
    rw [isDirectory_iff.mp hstart]
    constructor
    · intro hfile
      cases hfile
    · intro hfile
      rw [isFile, hfile] at hbefore
      cases hbefore
  cases below with
  | nil =>
      apply hdirectory
      · rw [List.append_nil, hfilled.output]
      · rw [List.append_nil, hbuildable.clear _ (List.prefix_refl _)]
  | cons name rest =>
      cases hentry : before.entry? (plan.source ++ name :: rest) with
      | none => rw [hfilled.kept name rest hentry]
      | some entry =>
          cases entry with
          | file bytes =>
              rw [isFile, hentry] at hnoFile
              cases hnoFile
          | directory =>
              apply hdirectory
              · exact isDirectory_iff.mpr (hfilled.copied name rest _ hentry)
              · exact hbuildable.folders _ hentry

/-- After the copy, the documents are those that the source had before. -/
theorem Filled.documents_eq (hfilled : plan.Filled before start) (hbefore : before.WellFormed) :
    documents start plan.rule plan.source = documents before plan.rule plan.source := by
  apply documentsBelow_congr plan.rule hfilled.source
  · rw [List.append_nil]
    exact tall_height hfilled.wellFormed plan.source
  · rw [List.append_nil]
    exact tall_height hbefore plan.source

/-- The copy makes no staging file whose name is too long. -/
theorem Filled.stages_iff (hfilled : plan.Filled before start)
    (hbuildable : plan.Buildable before) {below : List Text} (hbelow : below ≠ []) :
    start.Stages (plan.output ++ below) ↔ before.Stages (plan.output ++ below) := by
  obtain ⟨name, rest, hstaging⟩ : ∃ name rest,
      stagingOf (plan.output ++ below) = plan.output ++ name :: rest := by
    rw [stagingOf, List.dropLast_append_of_ne_nil hbelow, List.append_assoc]
    cases below.dropLast with
    | nil => exact ⟨_, _, rfl⟩
    | cons name rest => exact ⟨_, _, rfl⟩
  rw [Stages, Stages, hstaging]
  cases hentry : before.entry? (plan.source ++ name :: rest) with
  | none => rw [exists?, exists?, hfilled.kept name rest hentry]
  | some entry =>
      have hfits := hbuildable.copiesFit _ entry hentry
      exact ⟨fun _ => .inl hfits, fun _ => .inl hfits⟩

/-- The rendering starts with a copy of every document. -/
theorem Filled.rendering (hfilled : plan.Filled before start) (hbuildable : plan.Buildable before)
    (loaded : Session) : plan.Rendering before loaded ⟨start, loaded, true⟩ := by
  refine ⟨hfilled.wellFormed, hfilled.source, ⟨[], by simp, rfl⟩, fun below hmem => ?_,
    fun below hbelow => hfilled.stages_iff hbuildable hbelow⟩
  obtain ⟨content, hcontent⟩ :=
    isFile_iff.mp (of_mem_documentsBelow hbuildable.wellFormed hmem).1
  exact isFile_iff.mpr ⟨content, hfilled.file hbuildable.source hcontent⟩

/-- Once every document has its outcome, the output has what a report of the outcomes says. -/
theorem Buildable.built (hbuildable : plan.Buildable before) (hfilled : plan.Filled before start)
    (hconcluded : plan.Concluded before loaded start after outcomes)
    {report : BuildReport} (hwritten : report.written = writtenOf outcomes)
    (hfailed : report.failed = failedOf outcomes)
    (hcopied : report.copied = (Store.filesBelow before plan.source).length) :
    plan.Built before loaded (outcomes.map Prod.fst) report after := by
  have hnodup := hconcluded.nodup hbuildable.wellFormed
  constructor
  case dealt => exact hconcluded.once
  case writtenOnce =>
      rw [hwritten]
      exact nodup_writtenOf hnodup fun _ _ => hconcluded.placed
  case failedOnce =>
      rw [hfailed]
      exact nodup_failedOf hnodup
  case written_documents =>
      intro target htarget
      rw [hwritten] at htarget
      obtain ⟨document, hmem⟩ := mem_writtenOf.mp htarget
      exact ⟨document, hconcluded.mem_documents hmem, hconcluded.placed hmem⟩
  case failed_documents =>
      intro failure hfailure
      rw [hfailed] at hfailure
      obtain ⟨error, hmem⟩ := mem_map_failedOf.mp (List.mem_map_of_mem hfailure)
      exact hconcluded.mem_documents hmem
  case either =>
      intro document hmem target htarget
      rw [hwritten, hfailed]
      exact hconcluded.mem_writtenOf_iff hbuildable.wellFormed hmem htarget
  case failed =>
      intro document message
      rw [hfailed, mem_failedOf]
      simp only [hconcluded.error_mem_iff hbuildable.wellFormed]
  case written =>
      intro document target htarget
      rw [hwritten]
      constructor
      · intro hmem
        obtain ⟨bytes, hturn, -⟩ :=
          hconcluded.inTurn_ok (hconcluded.ok_of_mem_writtenOf htarget hmem)
        exact ⟨bytes, hturn⟩
      · rintro ⟨bytes, hturn⟩
        exact mem_writtenOf.mpr
          ⟨document, (hconcluded.ok_mem_of_inTurn hbuildable.wellFormed htarget hturn).1⟩
  case contents =>
      intro document target bytes htarget hturn
      exact (hconcluded.ok_mem_of_inTurn hbuildable.wellFormed htarget hturn).2
  case copies =>
      intro below bytes hfile hnotWritten
      rw [hwritten] at hnotWritten
      rw [hconcluded.entry?_of_not_written hnotWritten]
      exact hfilled.file hbuildable.source hfile
  case copied => exact hcopied
  case others =>
      intro below hnoFile bytes
      have hnone : plan.source ++ below ∉ documents before plan.rule plan.source := by
        intro hmem
        have hfile := (of_mem_documentsBelow hbuildable.wellFormed hmem).1
        rw [hnoFile] at hfile
        cases hfile
      rw [hconcluded.entry?_of_not_document hnone]
      exact hbuildable.file_iff hfilled hnoFile bytes

end Outcomes

section Building

variable {plan : Plan} {state : BuildState} {loaded : Session}

theorem runFrom_lookAt {location : Location}
    (hdirectory : state.disk.isDirectory location = true) :
    runFrom (onDisk (DiskAction.look location)) state = (.ok (some .directory), state) := by
  apply runFrom_onDisk_ok
  rw [look, runFrom_bind, runFrom_get, andThen_ok, runFrom_lift, Disk.find,
    isDirectory_iff.mp hdirectory]

theorem runFrom_loadComponents (hdirectory : state.disk.isDirectory plan.components = true)
    (hload : state.session.load? state.disk = some loaded) :
    runFrom plan.loadComponents state =
      (.ok loaded.store.size, { state with session := loaded, loaded := true }) := by
  rw [loadComponents, runFrom_bind, runFrom_lookAt hdirectory, andThen_ok, runFrom_bind,
    runFrom_get, andThen_ok]
  simp only [hload]
  rw [runFrom_bind, runFrom_set, andThen_ok, runFrom_pure]

/-- A build goes through its stages in order: components, lock, copy, documents. -/
theorem runFrom_build {processors copied : Nat} {taken filled : Disk} {after : BuildState}
    {outcomes : List (Location × Except BuildError Location)}
    (hsource : state.disk.isDirectory plan.source = true)
    (hcomponents : state.disk.isDirectory plan.components = true)
    (hload : state.session.reset.load? state.disk = some loaded)
    (hlock : runFrom (takeLock plan.output) state.disk = (.ok (), taken))
    (hcopy : runFrom (copyTree plan.traversalExclusions plan.source plan.output) taken =
      (.ok copied, filled))
    (hrender : runFrom (plan.renderPart (partition (documents filled plan.rule plan.source)
      (plan.workers processors)).flatten) ⟨filled, loaded, true⟩ = (.ok outcomes, after)) :
    ∃ report, runFrom (plan.build processors) state = (.ok report, after) ∧
      report.written = writtenOf outcomes ∧ report.failed = failedOf outcomes ∧
      report.copied = copied := by
  have hreset : runFrom (modify fun state : BuildState =>
      { state with session := state.session.reset } : BuildAction PUnit) state =
        (.ok ⟨⟩, { state with session := state.session.reset }) := rfl
  have hloading : runFrom plan.loadComponents { state with session := state.session.reset } =
      (.ok loaded.store.size, ⟨state.disk, loaded, true⟩) :=
    runFrom_loadComponents hcomponents hload
  have hlocking : runFrom (onDisk (takeLock plan.output)) ⟨state.disk, loaded, true⟩ =
      (.ok (), ⟨taken, loaded, true⟩) := runFrom_onDisk_ok hlock
  have hcopying : runFrom (onDisk (copyTree plan.traversalExclusions plan.source plan.output))
      ⟨taken, loaded, true⟩ = (.ok copied, ⟨filled, loaded, true⟩) := runFrom_onDisk_ok hcopy
  refine ⟨{
      source := plan.source
      output := plan.output
      written := writtenOf outcomes
      failed := failedOf outcomes
      copied
      components := loaded.store.size
      missing := after.session.failures.summary
      cacheEntries := after.session.cache.size
      cacheHits := after.session.cache.hits }, ?_, rfl, rfl, rfl⟩
  rw [build, runFrom_bind, runFrom_lookAt hsource, andThen_ok]
  dsimp only
  rw [runFrom_bind, hreset, andThen_ok, runFrom_bind, hloading, andThen_ok, runFrom_bind,
    hlocking, andThen_ok, runFrom_bind, hcopying, andThen_ok, runFrom_bind, runFrom_get,
    andThen_ok]
  dsimp only
  rw [runFrom_bind, runFrom_renderParts hrender, andThen_ok, runFrom_bind, runFrom_get, andThen_ok,
    runFrom_pure]

/-- A build that has gone through all its stages: the source was copied, and then the documents were
rendered, dealt out in some order. -/
structure Performed (plan : Plan) (before filled : Disk) (loaded : Session)
    (outcomes : List (Location × Except BuildError Location)) (after : BuildState) : Prop where
  copied : plan.Filled before filled
  rendering : plan.Rendering before loaded after
  concluded : plan.Concluded before loaded filled after.disk outcomes

/-- A build goes through all stages on a site with nothing in its way. -/
theorem Buildable.performs (hbuildable : plan.Buildable state.disk) (processors : Nat)
    (hload : state.session.reset.load? state.disk = some loaded)
    (hfaultless : plan.Faultless state.disk loaded) :
    ∃ filled outcomes report after,
      runFrom (plan.build processors) state = (.ok report, after) ∧
      plan.Performed state.disk filled loaded outcomes after ∧
      report.written = writtenOf outcomes ∧ report.failed = failedOf outcomes ∧
      report.copied = (Store.filesBelow state.disk plan.source).length := by
  obtain ⟨filled, hcopy, hfilled⟩ := hbuildable.filled
  have hlock := runFrom_takeLock hbuildable.wellFormed hbuildable.output_ne_nil hbuildable.lockFits
    (hbuildable.clear.of_prefix (List.dropLast_prefix plan.output)) hbuildable.lockFree
  have hparts := flatten_partition_perm (documents state.disk plan.rule plan.source)
    (plan.workers processors)
  obtain ⟨outcomes, after, hrender, hafter, hordered, hshows, hkept⟩ :=
    rendering_renderPart hbuildable.wellFormed hfaultless hbuildable.outside
      hbuildable.inside (fun document hmem => hparts.mem_iff.mp hmem)
      (hparts.nodup_iff.mpr (nodup_documentsBelow hbuildable.wellFormed _ _ _ _))
      (hfilled.rendering hbuildable loaded)
  have hconcluded : plan.Concluded state.disk loaded filled after.disk outcomes := by
    refine ⟨hordered ▸ hparts, hshows, ?_⟩
    intro place hplace
    exact hkept place fun document hmem => hplace document (hparts.mem_iff.mp hmem)
  rw [← hfilled.documents_eq hbuildable.wellFormed] at hrender
  obtain ⟨report, hbuild, hreport⟩ :=
    runFrom_build hbuildable.source hbuildable.components hload hlock hcopy hrender
  exact ⟨filled, outcomes, report, after, hbuild, ⟨hfilled, hafter, hconcluded⟩, hreport⟩

/-- A build of a site on which nothing is in its way, and of harmless documents, ends with a report
that holds. -/
theorem build_of_buildable (plan : Plan) (processors : Nat) (state : BuildState)
    (hstore : state.session.store.root = plan.components)
    (hbuildable : plan.Buildable state.disk)
    (hharmless : ∀ document ∈ documents state.disk plan.rule plan.source, ∀ text file,
      plan.Reads state.disk document text file →
        Harmless (Store.templatesOn state.disk plan.components state.session.store.extensions)
          plan.config.globals text) :
    ∃ report after loaded turns, runFrom (plan.build processors) state = (.ok report, after) ∧
      state.session.reset.load? state.disk = some loaded ∧
      plan.Built state.disk loaded turns report after.disk := by
  obtain ⟨loaded, hload, hfaultless⟩ : ∃ loaded,
      state.session.reset.load? state.disk = some loaded ∧
        plan.Faultless state.disk loaded := by
    have hroot : state.disk.isDirectory state.session.reset.store.root = true :=
      hstore ▸ hbuildable.components
    rw [Session.load?, Session.loadStore?, Store.load?, if_pos hroot]
    refine ⟨_, rfl, faultless_of_harmless ?_ ?_⟩
    · intro key fragment missing hfound
      cases hfound
    · rw [← hstore] at hharmless
      exact hharmless
  obtain ⟨filled, outcomes, report, after, hbuild, hperformed, hwritten, hfailed, hcopied⟩ :=
    hbuildable.performs processors hload hfaultless
  exact ⟨report, after, loaded, outcomes.map Prod.fst, hbuild, hload,
    hbuildable.built hperformed.copied hperformed.concluded hwritten hfailed hcopied⟩

/-- A site with one document and one other file, and with one component. -/
def smallSite : Disk := ⟨[
  (["site".toList], .directory),
  (["site".toList, "index.html".toList], .file (Utf8.encode "<b/>".toList)),
  (["site".toList, "style.css".toList], .file (Utf8.encode "b".toList)),
  (["components".toList], .directory),
  (["components".toList, "b.html".toList], .file (Utf8.encode "!".toList))]⟩

/-- The plan that builds the small site into a directory of some name. -/
def smallPlan (output : Text) (houtput : output ≠ "site".toList) : Plan where
  config := defaultConfig
  source := ["site".toList]
  output := [output]
  components := ["components".toList]
  output_ne_source := by simpa using houtput

section SmallPlan

variable {site : Disk} {output : Text} {houtput : output ≠ "site".toList}

theorem unobstructed_smallPlan (hsite : site.WellFormed)
    (hsource : site.isDirectory ["site".toList] = true)
    (hcomponents : site.isDirectory ["components".toList] = true)
    (hfree : ∀ place ∈ site.entries.map Prod.fst, isWithin [output] place = false)
    (hlock : site.isDirectory (lockOf [output]) = false) :
    (smallPlan output houtput).Unobstructed site := by
  have habsent : ∀ place, isWithin [output] place = true → site.entry? place = none := by
    intro place hwithin
    rw [Option.eq_none_iff_forall_ne_some]
    intro entry hfound
    have hplace : place ≠ [] := by
      rintro rfl
      cases hwithin
    have hmem := hsite.mem_iff.mpr ⟨hplace, hfound⟩
    rw [hfree place (List.mem_map_of_mem hmem)] at hwithin
    cases hwithin
  have hbelow : ∀ below, site.entry? ((smallPlan output houtput).output ++ below) = none :=
    fun below => habsent _ (isWithin_iff.mpr (List.prefix_append ..))
  constructor
  case wellFormed => exact hsite
  case source => exact hsource
  case components => exact hcomponents
  case outside =>
    rw [Bool.eq_false_iff]
    intro hwithin
    have hsame := (isWithin_iff.mp hwithin).eq_of_length rfl
    exact houtput (by simpa [smallPlan] using hsame.symm)
  case inside =>
    exact hfree _ (List.mem_map_of_mem
      (hsite.mem_iff.mpr ⟨List.cons_ne_nil _ _, isDirectory_iff.mp hsource⟩))
  case clear =>
    intro place hprefixed
    rcases List.prefix_cons_iff.mp hprefixed with rfl | ⟨rest, rfl, hrest⟩
    · rfl
    · rw [List.prefix_nil.mp hrest, isFile,
        habsent [output] (isWithin_iff.mpr (List.prefix_refl _))]
  case lockFree => exact hlock
  case folders =>
    intro below _
    rw [isFile, hbelow]
  case files =>
    intro below bytes _
    rw [isDirectory, hbelow]
    rfl

theorem buildable_smallPlan (hunobstructed : (smallPlan output houtput).Unobstructed site)
    (hlock : pathSize (lockOf [output]) ≤ pathLimit ∧
      ∀ name ∈ lockOf [output], isOverlong name = false)
    (hfits : ∀ entry ∈ site.entries, pathSize (output :: entry.1.tail) ≤ pathLimit ∧
      ∀ name ∈ output :: entry.1.tail, isOverlong name = false) :
    (smallPlan output houtput).Buildable site := by
  refine ⟨hunobstructed, ⟨hlock.1, hlock.2⟩, ?_⟩
  intro below entry hfound
  have hmem : ("site".toList :: below, entry) ∈ site.entries :=
    hunobstructed.wellFormed.mem_iff.mpr ⟨List.cons_ne_nil _ _, hfound⟩
  exact ⟨(hfits _ hmem).1, (hfits _ hmem).2⟩

/-- Bare documents and templates are harmless. -/
theorem harmless_smallPlan (hsite : site.WellFormed) {templates : List (Text × Text)}
    (htemplates : ∀ entry ∈ templates, Bare .template entry.2)
    (hdocuments : ∀ place ∈ site.entries.map Prod.fst, place.head? = some "site".toList →
      [".html".toList].contains (Text.lower (suffixOf place)) = true →
        ∀ text ∈ (bytesAt? place site).bind Utf8.decode?, Bare .document text) :
    ∀ document ∈ documents site (smallPlan output houtput).rule ["site".toList], ∀ text file,
      (smallPlan output houtput).Reads site document text file → Harmless templates [] text := by
  rintro document hdocument text file ⟨below, bytes, rfl, hfound, hdecoded, -⟩
  have hmem : ("site".toList :: below, Entry.file bytes) ∈ site.entries :=
    hsite.mem_iff.mpr ⟨List.cons_ne_nil _ _, hfound⟩
  have hlisted := (Bool.and_eq_true_iff.mp (isDocument_of_mem_documentsBelow hdocument)).1
  have hbytes : bytesAt? ("site".toList :: below) site = some bytes := bytesAt?_eq_some.mpr hfound
  refine harmless_of_bare (hdocuments _ (List.mem_map_of_mem hmem) rfl hlisted text ?_) htemplates
  rw [Option.mem_def, hbytes, Option.bind_some, hdecoded]

end SmallPlan

theorem smallSite_wellFormed : smallSite.WellFormed := by decide

theorem smallSite_buildable :
    (smallPlan "out".toList (by decide)).Buildable smallSite :=
  buildable_smallPlan (unobstructed_smallPlan smallSite_wellFormed rfl rfl (by decide)
    (by decide)) (by decide) (by decide)

theorem templatesOn_smallSite : Store.templatesOn smallSite ["components".toList] [".html".toList] =
    [("b".toList, "!".toList)] := by
  have hfiles : Store.filesBelow smallSite ["components".toList] =
      [(["b.html".toList], Utf8.encode "!".toList)] := List.mergeSort_singleton _
  rw [Store.templatesOn, hfiles]
  decide

/-- The one document of the small site is harmless. -/
theorem smallSite_harmless {output : Text} (houtput : output ≠ "site".toList) :
    ∀ document ∈ documents smallSite (smallPlan output houtput).rule ["site".toList], ∀ text file,
      (smallPlan output houtput).Reads smallSite document text file →
        Harmless (Store.templatesOn smallSite ["components".toList] [".html".toList]) [] text := by
  rw [templatesOn_smallSite]
  exact harmless_smallPlan smallSite_wellFormed (by decide) (by decide)

/-- A site with a document that can be expanded, one that is caught in a cycle and one that is no
text. -/
def mixedSite : Disk := ⟨[
  (["site".toList], .directory),
  (["site".toList, "index.html".toList], .file (Utf8.encode "<b/>".toList)),
  (["site".toList, "loop.html".toList], .file (Utf8.encode "<a/>".toList)),
  (["site".toList, "raw.html".toList], .file [0xff]),
  (["components".toList], .directory),
  (["components".toList, "a.html".toList], .file (Utf8.encode "<a/>".toList)),
  (["components".toList, "b.html".toList], .file (Utf8.encode "!".toList))]⟩

theorem mixedSite_wellFormed : mixedSite.WellFormed := by decide

theorem templatesOn_mixedSite : Store.templatesOn mixedSite ["components".toList] [".html".toList] =
    [("a".toList, "<a/>".toList), ("b".toList, "!".toList)] := by
  have hfiles : Store.filesBelow mixedSite ["components".toList] =
      [(["a.html".toList], Utf8.encode "<a/>".toList),
        (["b.html".toList], Utf8.encode "!".toList)] :=
    List.mergeSort_of_pairwise (by decide)
  rw [Store.templatesOn, hfiles]
  decide

theorem out_ne_site : "out".toList ≠ "site".toList := by decide

/-- The plan that builds that site into a directory beside it. -/
def mixedPlan : Plan := smallPlan "out".toList out_ne_site

def mixedDocuments : List Location :=
  [["site".toList, "index.html".toList], ["site".toList, "loop.html".toList],
    ["site".toList, "raw.html".toList]]

theorem documents_mixedSite :
    (documents mixedSite mixedPlan.rule ["site".toList]).Perm mixedDocuments := by
  apply (List.perm_ext_iff_of_nodup (nodup_documentsBelow mixedSite_wellFormed ..)
    (by decide)).mpr
  have hentries : ∀ entry ∈ mixedSite.entries, mixedSite.isFile entry.1 = true →
      mixedPlan.isDocument entry.1 = true → entry.1 ∈ mixedDocuments := by
    decide
  have hfiles : ∀ place ∈ mixedDocuments, place = ["site".toList] ++ place.tail ∧
      place.tail ≠ [] ∧ mixedSite.isFile place = true ∧ mixedPlan.isDocument place = true := by
    decide
  intro place
  constructor
  · intro hmem
    have hfile := (of_mem_documentsBelow mixedSite_wellFormed hmem).1
    obtain ⟨bytes, hfound⟩ := isFile_iff.mp hfile
    exact hentries _ (mixedSite_wellFormed.mem_iff.mpr ⟨ne_nil_of_isFile hfile, hfound⟩) hfile
      (isDocument_of_mem_documentsBelow hmem)
  · intro hmem
    obtain ⟨hplace, hbelow, hfile, hdocument⟩ := hfiles place hmem
    rw [hplace] at hfile hdocument ⊢
    exact (mem_documents_iff mixedSite_wellFormed hbelow).mpr ⟨hfile, hdocument⟩

/-- The session of a builder that has loaded the components of that site. -/
def mixedSession : Session :=
  Session.ofStore ⟨["components".toList], [".html".toList],
    ⟨[("a".toList, "<a/>".toList), ("b".toList, "!".toList)], 1⟩⟩ true

/-- What a document of that site is rendered to if some others had their turns before. -/
def mixedRender (earlier : List Location) (document : Location) (text : Text) :
    Except RenderError Text :=
  ((mixedPlan.sessionAfter mixedSite mixedSession earlier).render text (textBelow document.tail)
    []).1

theorem mixedRender_index : ∀ others ∈ (mixedDocuments.erase ["site".toList,
    "index.html".toList]).permutations', ∀ earlier ∈ others.inits,
      mixedRender earlier ["site".toList, "index.html".toList] "<b/>".toList =
        .ok ("\n<!-- Component components/b -->\n!\n<!-- End component components/b -->\n".toList) := by
  decide +kernel

theorem mixedRender_loop : ∀ others ∈ (mixedDocuments.erase ["site".toList,
    "loop.html".toList]).permutations', ∀ earlier ∈ others.inits,
      mixedRender earlier ["site".toList, "loop.html".toList] "<a/>".toList =
        .error (.cyclic ["a".toList, "a".toList]) := by
  decide +kernel

/-- A turn ends in one way if it does so whichever of the other documents had their turns before, in
whichever order. -/
theorem inTurn_mixedSite {turns : List Location} (hdealt : turns.Perm mixedDocuments)
    {document : Location} (hmem : document ∈ mixedDocuments) {outcome : Except BuildError Bytes}
    (houtcome : ∀ others ∈ (mixedDocuments.erase document).permutations', ∀ earlier ∈ others.inits,
      mixedPlan.TurnsOut mixedSite (mixedPlan.sessionAfter mixedSite mixedSession earlier) document
        outcome) :
    mixedPlan.InTurn mixedSite mixedSession turns document outcome := by
  obtain ⟨earlier, later, rfl⟩ := List.append_of_mem (hdealt.mem_iff.mpr hmem)
  have hothers : (earlier ++ later).Perm (mixedDocuments.erase document) :=
    (List.cons_perm_iff_perm_erase.mp (List.perm_middle.symm.trans hdealt)).2
  exact ⟨earlier, later, rfl, houtcome _ (List.mem_permutations'.mpr hothers) earlier
    ((List.mem_inits ..).mpr (List.prefix_append ..))⟩

/-- The mixed site is built: one document is written with its component, and the others have failed
alone, each for its cause, and are what they are in the source. -/
theorem build_mixedSite :
    ∃ report after loaded turns,
      runFrom (mixedPlan.build 1) (mixedPlan.initialState mixedSite) = (.ok report, after) ∧
      mixedPlan.Built mixedSite loaded turns report after.disk ∧
      (["out".toList, "index.html".toList] ∈ report.written ∧
        after.disk.entry? ["out".toList, "index.html".toList] = some (.file (Utf8.encode
          "\n<!-- Component components/b -->\n!\n<!-- End component components/b -->\n".toList))) ∧
      ((["site".toList, "loop.html".toList], "Cyclic component inclusion: a -> a".toList) ∈
          report.failed ∧
        after.disk.entry? ["out".toList, "loop.html".toList] =
          some (.file (Utf8.encode "<a/>".toList))) ∧
      (["site".toList, "raw.html".toList], "undecodable".toList) ∈ report.failed ∧
        after.disk.entry? ["out".toList, "raw.html".toList] = some (.file [0xff]) := by
  have hharmless : ∀ document ∈ documents mixedSite mixedPlan.rule ["site".toList], ∀ text file,
      mixedPlan.Reads mixedSite document text file →
        Harmless (Store.templatesOn mixedSite ["components".toList] [".html".toList]) [] text := by
    rw [templatesOn_mixedSite]
    exact harmless_smallPlan mixedSite_wellFormed (by decide) (by decide)
  obtain ⟨report, after, loaded, turns, hrun, hload, hbuilt⟩ :=
    build_of_buildable mixedPlan 1 (mixedPlan.initialState mixedSite) rfl
      (buildable_smallPlan (unobstructed_smallPlan mixedSite_wellFormed rfl rfl (by decide)
        (by decide)) (by decide) (by decide)) hharmless
  have hloaded : loaded = mixedSession := by
    have hsession := congrArg (fun templates => some (Session.ofStore
      ⟨["components".toList], [".html".toList], ⟨templates, 1⟩⟩ true)) templatesOn_mixedSite
    exact Option.some.inj (hload.symm.trans hsession)
  subst hloaded
  have hdealt := hbuilt.dealt.trans documents_mixedSite
  have hindex := @inTurn_mixedSite turns hdealt ["site".toList, "index.html".toList]
    (by decide) _ fun others hothers earlier hearlier =>
      .written ⟨["index.html".toList], _, rfl, rfl, by decide, rfl⟩
        (mixedRender_index others hothers earlier hearlier) rfl (.inl ⟨by decide, by decide⟩)
  have hloop := @inTurn_mixedSite turns hdealt ["site".toList, "loop.html".toList]
    (by decide) _ fun others hothers earlier hearlier =>
      .cyclic ⟨["loop.html".toList], _, rfl, rfl, by decide, rfl⟩
        (mixedRender_loop others hothers earlier hearlier)
  have hraw := @inTurn_mixedSite turns hdealt ["site".toList, "raw.html".toList]
    (by decide) _ fun _ _ _ _ => .undecodable rfl (by decide)
  -- What has failed is not written, so that its copy stays.
  have hcopy : ∀ below bytes message, mixedSite.entry? ("site".toList :: below) =
      some (.file bytes) → ("site".toList :: below, message) ∈ report.failed →
        after.disk.entry? ("out".toList :: below) = some (.file bytes) := by
    intro below bytes message hfile hfailed
    refine hbuilt.copies below bytes hfile fun hwritten => ?_
    exact (hbuilt.either _ (hbuilt.failed_documents _ hfailed) _
      (outputOf?_append _ below)).mp hwritten (List.mem_map_of_mem hfailed)
  have hcyclic := (hbuilt.failed _ "Cyclic component inclusion: a -> a".toList).mpr
    ⟨_, hloop, by decide⟩
  have hundecodable := (hbuilt.failed _ "undecodable".toList).mpr ⟨_, hraw, rfl⟩
  exact ⟨report, after, mixedSession, turns, hrun, hbuilt,
    ⟨(hbuilt.written _ _ rfl).mpr ⟨_, hindex⟩, hbuilt.contents _ _ _ rfl hindex⟩,
    ⟨hcyclic, hcopy ["loop.html".toList] _ _ rfl hcyclic⟩,
    hundecodable, hcopy ["raw.html".toList] _ _ rfl hundecodable⟩

/-- A build into a directory whose name is near the limit ends with an error, as the name of the
lock is beyond it. -/
theorem build_overlong_lock :
    (smallPlan (List.replicate 251 'a') (by decide)).Unobstructed smallSite ∧
      (∀ document ∈ documents smallSite (smallPlan (List.replicate 251 'a') (by decide)).rule
          ["site".toList], ∀ text file,
        (smallPlan (List.replicate 251 'a') (by decide)).Reads smallSite document text file →
          Harmless (Store.templatesOn smallSite ["components".toList] [".html".toList]) [] text) ∧
      (runFrom ((smallPlan (List.replicate 251 'a') (by decide)).build 1)
        ((smallPlan (List.replicate 251 'a') (by decide)).initialState smallSite)).1 =
          .error (.disk .nameTooLong) := by
  refine ⟨unobstructed_smallPlan smallSite_wellFormed rfl rfl (by decide)
    (by decide), smallSite_harmless _, ?_⟩
  decide +kernel

end Building

end PageLoom.Site.Plan
