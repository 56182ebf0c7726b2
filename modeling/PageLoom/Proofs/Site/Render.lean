import PageLoom.Proofs.Component.Faultless
import PageLoom.Proofs.Disk.Put
import PageLoom.Proofs.Site.Walk
import PageLoom.Site.Build

/-!
# Rendering the documents of a site

Each document is rendered over its copy in the output: it is written, or it is spoiled and the copy
stays. Which of the two it is, and why, is settled by its bytes, by the session that the documents
before it have left, and by the room for its staging file. Nothing else on the disk changes, and the
session goes through one call for each document whose text can be read. A number fault is the only
error that would end the whole build.
-/

namespace PageLoom.Site

open Component Disk

namespace BuildAction

variable {α : Type} {state : BuildState} {value : α}

theorem runFrom_onDisk (action : DiskAction α) (state : BuildState) :
    runFrom (onDisk action) state = ((runFrom action state.disk).1.mapError .disk,
      { state with disk := (runFrom action state.disk).2 }) := by
  rw [onDisk, runFrom_bind, runFrom_modifyGet]
  change andThen _ (Except.ok (runFrom action state.disk).1,
    { state with disk := (runFrom action state.disk).2 }) = _
  rw [andThen_ok]
  cases (runFrom action state.disk).1 <;> rfl

theorem runFrom_onDisk_ok {action : DiskAction α} {after : Disk}
    (hrun : runFrom action state.disk = (.ok value, after)) :
    runFrom (onDisk action) state = (.ok value, { state with disk := after }) := by
  rw [runFrom_onDisk, hrun]
  rfl

theorem runFrom_onDisk_error {action : DiskAction α} {after : Disk} {error : DiskError}
    (hrun : runFrom action state.disk = (.error error, after)) :
    runFrom (onDisk action) state = (.error (.disk error), { state with disk := after }) := by
  rw [runFrom_onDisk, hrun]
  rfl

theorem runFrom_onDisk_eq_ok {action : DiskAction α} {after : BuildState} {value : α} :
    runFrom (onDisk action) state = (.ok value, after) ↔
      ∃ disk, runFrom action state.disk = (.ok value, disk) ∧ after = { state with disk } := by
  rw [runFrom_onDisk]
  cases runFrom action state.disk with
  | mk result disk => cases result <;> simp [Except.mapError, eq_comm]

/-- If an action on the disk fails, the builder fails with the disk that the action left. -/
theorem exists_of_onDisk_error {action : DiskAction α} {after : BuildState} {error : BuildError}
    (hrun : runFrom (onDisk action) state = (.error error, after)) :
    ∃ failure, runFrom action state.disk = (.error failure, after.disk) := by
  rw [runFrom_onDisk] at hrun
  cases hresult : runFrom action state.disk with
  | mk result disk =>
      rw [hresult] at hrun
      cases result with
      | ok value => cases hrun
      | error failure =>
          cases hrun
          exact ⟨failure, rfl⟩

theorem runFrom_readBytes (state : BuildState) (location : Location) :
    runFrom (onDisk (DiskAction.readBytes location)) state =
      ((state.disk.read location).mapError .disk, state) := by
  rw [runFrom_onDisk, DiskAction.readBytes, runFrom_bind, runFrom_get, andThen_ok, runFrom_lift]

theorem runFrom_readBytes_file {location : Location} {bytes : Bytes}
    (hentry : state.disk.entry? location = some (.file bytes)) :
    runFrom (onDisk (DiskAction.readBytes location)) state = (.ok bytes, state) := by
  rw [runFrom_readBytes, read_eq_ok.mpr hentry]
  rfl

theorem runFrom_attempt (handled : BuildError → Bool) (action : BuildAction α)
    (state : BuildState) :
    runFrom (attempt handled action) state =
      match runFrom action state with
      | (.ok value, after) => (.ok (.ok value), after)
      | (.error error, after) =>
        if handled error then (.ok (.error error), after) else (.error error, after) := by
  unfold attempt runFrom
  simp only [tryCatch, tryCatchThe, MonadExceptOf.tryCatch, ExceptT.tryCatch, ExceptT.run,
    ExceptT.mk, Functor.map, ExceptT.map, bind, StateT.bind, StateT.run]
  cases action state with
  | mk result after =>
      cases result with
      | ok value => rfl
      | error error =>
          change (if handled error = true
            then (pure (Except.error error) : BuildAction (Except BuildError α))
            else throw error) after = _
          change _ = if handled error then _ else _
          split <;> rfl

/-- An action on the disk fails with errors of the disk only. -/
theorem ends_onDisk {fails : BuildError → Prop} (hfails : ∀ error, fails (.disk error))
    (action : DiskAction α) : Ends (fun _ => True) fails (onDisk action) := by
  intro state
  rw [runFrom_onDisk]
  cases (runFrom action state.disk).1 with
  | ok value => exact trivial
  | error error => exact hfails error

theorem ends_attempt {answers : α → Prop} {fails : BuildError → Prop} {action : BuildAction α}
    (haction : Ends answers fails action) (handled : BuildError → Bool) :
    Ends (Meets answers fails) fails (attempt handled action) := by
  intro state
  have hresult := haction state
  rw [runFrom_attempt]
  cases hrun : runFrom action state with
  | mk result after =>
      rw [hrun] at hresult
      cases result with
      | ok value => exact hresult
      | error error =>
          dsimp only
          split <;> exact hresult

end BuildAction

open BuildAction

namespace Plan

variable {plan : Plan} {before : Disk} {loaded session : Session} {document : Location}
variable {text file : Text}

/-- What a document is read as, and the name that it goes by. -/
def Reads (plan : Plan) (before : Disk) (document : Location) (text file : Text) : Prop :=
  ∃ below bytes, document = plan.source ++ below ∧ before.entry? document = some (.file bytes) ∧
    Utf8.decode? bytes = some text ∧ file = textBelow below

/-- The sessions that a build can come to: the loaded one after the rendering of some documents. -/
def Reached (plan : Plan) (before : Disk) (loaded session : Session) : Prop :=
  ∃ calls, (∀ call ∈ calls, ∃ document ∈ documents before plan.rule plan.source, ∃ text file,
      plan.Reads before document text file ∧ call = .render text file plan.config.globals) ∧
    session = loaded.afterCalls calls

/-- No document of a site ends a build, whatever was rendered before it. -/
def Faultless (plan : Plan) (before : Disk) (loaded : Session) : Prop :=
  ∀ session, plan.Reached before loaded session →
    ∀ document ∈ documents before plan.rule plan.source, ∀ text file,
      plan.Reads before document text file →
        ∀ fault, (session.render text file plan.config.globals).1 ≠ .error (.fault fault)

/-- The call that renders a document, if its text can be read. -/
def call? (plan : Plan) (before : Disk) (document : Location) : Option Call := do
  let below ← below? plan.source document
  let bytes ← bytesAt? document before
  let text ← Utf8.decode? bytes
  return .render text (textBelow below) plan.config.globals

/-- What a session becomes when some documents have their turns. -/
def sessionAfter (plan : Plan) (before : Disk) (session : Session) (turns : List Location) :
    Session :=
  session.afterCalls (turns.filterMap (plan.call? before))

/-- How the turn of a document ends that a session comes to: its bytes are no text, its text is
caught in a cycle, there is no room for its staging file, or the bytes of its expansion are
written. -/
inductive TurnsOut (plan : Plan) (before : Disk) (session : Session) (document : Location) :
    Except BuildError Bytes → Prop
  | undecodable {bytes} (hcontent : before.entry? document = some (.file bytes))
      (hdecoded : Utf8.decode? bytes = none) :
      TurnsOut plan before session document (.error .undecodable)
  | cyclic {text file cycle} (hreads : plan.Reads before document text file)
      (hrendered : (session.render text file plan.config.globals).1 = .error (.cyclic cycle)) :
      TurnsOut plan before session document (.error (.render (.cyclic cycle)))
  | unstaged {text file expanded target} (hreads : plan.Reads before document text file)
      (hrendered : (session.render text file plan.config.globals).1 = .ok expanded)
      (htarget : plan.outputOf? document = some target) (hstages : ¬before.Stages target) :
      TurnsOut plan before session document (.error (.disk .nameTooLong))
  | written {text file expanded target} (hreads : plan.Reads before document text file)
      (hrendered : (session.render text file plan.config.globals).1 = .ok expanded)
      (htarget : plan.outputOf? document = some target) (hstages : before.Stages target) :
      TurnsOut plan before session document (.ok (Utf8.encode expanded))

theorem Reads.decodes {bytes : Bytes} (hreads : plan.Reads before document text file)
    (hcontent : before.entry? document = some (.file bytes)) :
    Utf8.decode? bytes = some text := by
  obtain ⟨below, read, rfl, hread, hdecoded, rfl⟩ := hreads
  cases hread.symm.trans hcontent
  exact hdecoded

theorem Reads.unique {other name : Text} (hreads : plan.Reads before document text file)
    (hother : plan.Reads before document other name) : other = text ∧ name = file := by
  obtain ⟨below, bytes, rfl, hcontent, hdecoded, rfl⟩ := hother
  refine ⟨Option.some.inj (hdecoded.symm.trans (hreads.decodes hcontent)), ?_⟩
  obtain ⟨names, read, hnames, -, -, rfl⟩ := hreads
  rw [List.append_cancel_left_eq] at hnames
  rw [hnames]

theorem Reads.result_unique {other name : Text} {first second : Except RenderError Text}
    (hreads : plan.Reads before document text file)
    (hfirst : (session.render text file plan.config.globals).1 = first)
    (hother : plan.Reads before document other name)
    (hsecond : (session.render other name plan.config.globals).1 = second) : first = second := by
  obtain ⟨rfl, rfl⟩ := hreads.unique hother
  exact hfirst.symm.trans hsecond

/-- A turn ends in one way only. -/
theorem TurnsOut.unique {first second : Except BuildError Bytes}
    (hfirst : plan.TurnsOut before session document first)
    (hsecond : plan.TurnsOut before session document second) : first = second := by
  cases hfirst with
  | undecodable hcontent hnone =>
      cases hsecond with
      | undecodable => rfl
      | cyclic hreads _ | unstaged hreads _ _ _ | written hreads _ _ _ =>
          cases hnone.symm.trans (hreads.decodes hcontent)
  | cyclic hreads hrendered =>
      cases hsecond with
      | undecodable hcontent hnone => cases hnone.symm.trans (hreads.decodes hcontent)
      | cyclic hother hsame =>
          cases hreads.result_unique hrendered hother hsame
          rfl
      | unstaged hother hsame _ _ | written hother hsame _ _ =>
          cases hreads.result_unique hrendered hother hsame
  | unstaged hreads hrendered htarget hstages =>
      cases hsecond with
      | undecodable hcontent hnone => cases hnone.symm.trans (hreads.decodes hcontent)
      | cyclic hother hsame => cases hreads.result_unique hrendered hother hsame
      | unstaged => rfl
      | written hother hsame hplace hroom =>
          cases htarget.symm.trans hplace
          exact absurd hroom hstages
  | written hreads hrendered htarget hstages =>
      cases hsecond with
      | undecodable hcontent hnone => cases hnone.symm.trans (hreads.decodes hcontent)
      | cyclic hother hsame => cases hreads.result_unique hrendered hother hsame
      | unstaged hother hsame hplace hroom =>
          cases htarget.symm.trans hplace
          exact absurd hstages hroom
      | written hother hsame =>
          cases hreads.result_unique hrendered hother hsame
          rfl

theorem call?_append (plan : Plan) (before : Disk) (below : List Text) :
    plan.call? before (plan.source ++ below) =
      ((bytesAt? (plan.source ++ below) before).bind Utf8.decode?).map fun text =>
        .render text (textBelow below) plan.config.globals := by
  rw [call?, below?_append, Option.bind_eq_bind, Option.bind_some]
  cases bytesAt? (plan.source ++ below) before with
  | none => rfl
  | some bytes =>
      rw [Option.bind_eq_bind, Option.bind_some, Option.bind_some]
      cases Utf8.decode? bytes <;> rfl

theorem call?_eq_some {call : Call} : plan.call? before document = some call ↔
    ∃ text file, plan.Reads before document text file ∧
      call = .render text file plan.config.globals := by
  constructor
  · intro hcall
    rw [call?, Option.bind_eq_bind, Option.bind_eq_some_iff] at hcall
    obtain ⟨below, hbelow, hcall⟩ := hcall
    rw [Option.bind_eq_bind, Option.bind_eq_some_iff] at hcall
    obtain ⟨bytes, hbytes, hcall⟩ := hcall
    rw [Option.bind_eq_bind, Option.bind_eq_some_iff] at hcall
    obtain ⟨text, hdecoded, hcall⟩ := hcall
    cases hcall
    exact ⟨text, textBelow below,
      ⟨below, bytes, below?_eq_some.mp hbelow, bytesAt?_eq_some.mp hbytes, hdecoded, rfl⟩, rfl⟩
  · rintro ⟨text, file, ⟨below, bytes, rfl, hcontent, hdecoded, rfl⟩, rfl⟩
    rw [call?_append, bytesAt?_eq_some.mpr hcontent, Option.bind_some, hdecoded]
    rfl

theorem sessionAfter_cons (plan : Plan) (before : Disk) (session : Session) (document : Location)
    (turns : List Location) :
    plan.sessionAfter before session (document :: turns) =
      plan.sessionAfter before (plan.sessionAfter before session [document]) turns := by
  rw [sessionAfter, sessionAfter, sessionAfter, ← Session.afterCalls_append,
    ← List.filterMap_append]
  rfl

/-- The turns of documents lead to a session that the build can come to. -/
theorem reached_sessionAfter {turns : List Location}
    (hturns : ∀ document ∈ turns, document ∈ documents before plan.rule plan.source) :
    plan.Reached before loaded (plan.sessionAfter before loaded turns) := by
  refine ⟨_, ?_, rfl⟩
  intro call hcall
  obtain ⟨document, hmem, hdocument⟩ := List.mem_filterMap.mp hcall
  exact ⟨document, hturns document hmem, call?_eq_some.mp hdocument⟩

theorem Reached.render (hreached : plan.Reached before loaded session)
    (hmem : document ∈ documents before plan.rule plan.source)
    (hreads : plan.Reads before document text file) :
    plan.Reached before loaded (session.render text file plan.config.globals).2 := by
  obtain ⟨calls, hcalls, rfl⟩ := hreached
  refine ⟨calls ++ [.render text file plan.config.globals], ?_, ?_⟩
  · intro call hcall
    rcases List.mem_append.mp hcall with hcall | hcall
    · exact hcalls call hcall
    · exact ⟨document, hmem, text, file, hreads, List.mem_singleton.mp hcall⟩
  · rw [Session.afterCalls_append]
    rfl

/-- Harmless documents end no build: every session that it comes to has a sealed cache and the
templates of the loaded one. -/
theorem faultless_of_harmless (hcache : loaded.cache.Sealed)
    (hharmless : ∀ document ∈ documents before plan.rule plan.source, ∀ text file,
      plan.Reads before document text file →
        Harmless loaded.store.library.templates plan.config.globals text) :
    plan.Faultless before loaded := by
  have hreached : ∀ session, plan.Reached before loaded session →
      session.store = loaded.store ∧ session.cache.Sealed := by
    rintro session ⟨calls, hcalls, rfl⟩
    induction calls using List.reverseRecOn with
    | nil => exact ⟨rfl, hcache⟩
    | append_singleton calls call ih =>
        obtain ⟨hstore, hsealed⟩ := ih fun other hmem => hcalls other (List.mem_append_left _ hmem)
        obtain ⟨document, hmem, text, file, hreads, rfl⟩ :=
          hcalls call (List.mem_append_right _ (List.mem_singleton_self _))
        rw [Session.afterCalls_append]
        refine ⟨(Session.store_afterCall (loaded.afterCalls calls)
          (.render text file plan.config.globals)).trans hstore, ?_⟩
        have hdocument := hharmless document hmem text file hreads
        rw [← hstore] at hdocument
        exact (Session.render_of_harmless hdocument hsealed file).2
  intro session hsession document hmem text file hreads
  obtain ⟨hstore, hsealed⟩ := hreached session hsession
  have hdocument := hharmless document hmem text file hreads
  rw [← hstore] at hdocument
  exact (Session.render_of_harmless hdocument hsealed file).1

/-- A moment in the rendering of a site: the source is as it was before, every document has a file
in the output, and there is as much room for staging files as before. -/
structure Rendering (plan : Plan) (before : Disk) (loaded : Session) (state : BuildState) :
    Prop where
  wellFormed : state.disk.WellFormed
  source : state.disk.under plan.source = before.under plan.source
  session : plan.Reached before loaded state.session
  places : ∀ below, plan.source ++ below ∈ documents before plan.rule plan.source →
    state.disk.isFile (plan.output ++ below) = true
  stages : ∀ below ≠ [], state.disk.Stages (plan.output ++ below) ↔
    before.Stages (plan.output ++ below)

/-- How the outcome for a document, which was rendered in some session, shows on the disk. -/
def Shows (plan : Plan) (before : Disk) (session : Session) (start after : Disk) :
    Location × Except BuildError Location → Prop
  | (document, .ok target) => plan.outputOf? document = some target ∧
      ∃ bytes, plan.TurnsOut before session document (.ok bytes) ∧
        after.entry? target = some (.file bytes)
  | (document, .error error) => plan.TurnsOut before session document (.error error) ∧
      ∀ target, plan.outputOf? document = some target →
        after.entry? target = start.entry? target

/-- Each outcome shows on the disk, given the session that the documents before it have left. -/
def ShowInTurn (plan : Plan) (before : Disk) (session : Session) (start after : Disk)
    (outcomes : List (Location × Except BuildError Location)) : Prop :=
  ∀ earlier shown later, outcomes = earlier ++ shown :: later →
    plan.Shows before (plan.sessionAfter before session (earlier.map Prod.fst)) start after shown

theorem outputOf?_append (plan : Plan) (below : List Text) :
    plan.outputOf? (plan.source ++ below) = some (plan.output ++ below) := by
  rw [outputOf?, below?_append]
  rfl

theorem outputOf?_injective {other target : Location}
    (hdocument : plan.outputOf? document = some target)
    (hother : plan.outputOf? other = some target) : document = other := by
  unfold outputOf? at hdocument hother
  obtain ⟨below, hbelow, rfl⟩ := Option.map_eq_some_iff.mp hdocument
  obtain ⟨otherBelow, hotherBelow, hsame⟩ := Option.map_eq_some_iff.mp hother
  rw [List.append_cancel_left_eq] at hsame
  rw [below?_eq_some.mp hbelow, below?_eq_some.mp hotherBelow, hsame]

variable {state : BuildState}

theorem Rendering.write (hstate : plan.Rendering before loaded state)
    (houtside : isWithin plan.source plan.output = false)
    (hinside : isWithin plan.output plan.source = false) {below : List Text}
    (hmem : plan.source ++ below ∈ documents before plan.rule plan.source) (bytes : Bytes) :
    plan.Rendering before loaded
      { state with disk := state.disk.set (plan.output ++ below) (.file bytes) } := by
  have hfile := hstate.places below hmem
  obtain ⟨old, hfound⟩ := isFile_iff.mp hfile
  have htarget := ne_nil_of_isFile hfile
  refine ⟨?_, ?_, hstate.session, ?_, ?_⟩
  · apply hstate.wellFormed.set htarget (hstate.wellFormed.isDirectory_dropLast hfound)
    intro hdirectory
    rw [isDirectory_iff, hfound] at hdirectory
    cases hdirectory
  · exact (under_set (not_isWithin_append houtside hinside below) _).trans hstate.source
  · intro other hother
    rw [isFile, entry?_set _ htarget]
    by_cases hsame : plan.output ++ other = plan.output ++ below
    · rw [if_pos hsame]
    · rw [if_neg hsame]
      exact hstate.places other hother
  · intro other hother
    rw [← hstate.stages other hother, Stages, Stages, exists?_set_of_isFile hfile]

/-- The state after a document was rendered and before it is written. -/
def rendered (plan : Plan) (state : BuildState) (text : Text) (below : List Text) : BuildState :=
  { state with session := (state.session.render text (textBelow below) plan.config.globals).2 }

@[simp]
theorem rendered_disk (plan : Plan) (state : BuildState) (text : Text) (below : List Text) :
    (plan.rendered state text below).disk = state.disk := rfl

section RenderFile

variable {below : List Text} {bytes : Bytes}
variable (hread : runFrom (onDisk (DiskAction.readBytes (plan.source ++ below))) state =
  (.ok bytes, state))

include hread

theorem runFrom_renderFile_undecodable (hdecoded : Utf8.decode? bytes = none) :
    runFrom (plan.renderFile (plan.source ++ below)) state = (.error .undecodable, state) := by
  simp only [renderFile, below?_append, outputOf?_append]
  rw [runFrom_bind, hread, andThen_ok, hdecoded, runFrom_throw]

theorem runFrom_renderFile_error (hdecoded : Utf8.decode? bytes = some text) {error : RenderError}
    (hrendered : (state.session.render text (textBelow below) plan.config.globals).1 =
      .error error) :
    runFrom (plan.renderFile (plan.source ++ below)) state =
      (.error (.render error), plan.rendered state text below) := by
  simp only [renderFile, below?_append, outputOf?_append]
  rw [runFrom_bind, hread, andThen_ok, hdecoded, runFrom_bind, runFrom_modifyGet, andThen_ok,
    rendered]
  generalize state.session.render text (textBelow below) plan.config.globals = run at *
  obtain ⟨result, session⟩ := run
  cases hrendered
  rfl

theorem runFrom_renderFile_ok (hdecoded : Utf8.decode? bytes = some text) {expanded : Text}
    (hrendered : (state.session.render text (textBelow below) plan.config.globals).1 =
      .ok expanded) :
    runFrom (plan.renderFile (plan.source ++ below)) state =
      andThen (fun _ after => (.ok (plan.output ++ below), after))
        (runFrom (onDisk (DiskAction.writeText (plan.output ++ below) expanded))
          (plan.rendered state text below)) := by
  simp only [renderFile, below?_append, outputOf?_append]
  rw [runFrom_bind, hread, andThen_ok, hdecoded, runFrom_bind, runFrom_modifyGet, andThen_ok,
    rendered]
  generalize state.session.render text (textBelow below) plan.config.globals = run at *
  obtain ⟨result, session⟩ := run
  cases hrendered
  exact runFrom_bind _ _ _

end RenderFile

/-- A document is rendered with an outcome that the disk shows, the session has gone through its
turn, and nothing but its own output is touched. -/
structure Finishes (plan : Plan) (before : Disk) (loaded : Session) (state : BuildState)
    (below : List Text) (outcome : Except BuildError Location) (after : BuildState) : Prop where
  run : runFrom (attempt BuildError.spoilsDocument (plan.renderFile (plan.source ++ below))) state =
    (.ok outcome, after)
  rendering : plan.Rendering before loaded after
  session : after.session = plan.sessionAfter before state.session [plan.source ++ below]
  shows : plan.Shows before state.session state.disk after.disk (plan.source ++ below, outcome)
  kept : ∀ place, place ≠ plan.output ++ below →
    after.disk.entry? place = state.disk.entry? place

theorem finishes_of_spoiled {below : List Text} {error : BuildError} {after : BuildState}
    (hspoils : error.spoilsDocument = true)
    (hrun : runFrom (plan.renderFile (plan.source ++ below)) state = (.error error, after))
    (hafter : plan.Rendering before loaded after) (hdisk : after.disk = state.disk)
    (hsession : after.session = plan.sessionAfter before state.session [plan.source ++ below])
    (hturn : plan.TurnsOut before state.session (plan.source ++ below) (.error error)) :
    plan.Finishes before loaded state below (.error error) after := by
  refine ⟨?_, hafter, hsession, ⟨hturn, ?_⟩, ?_⟩
  · rw [runFrom_attempt, hrun]
    exact if_pos hspoils
  · intro target _
    rw [hdisk]
  · intro place _
    rw [hdisk]

theorem finishes_of_written (houtside : isWithin plan.source plan.output = false)
    (hinside : isWithin plan.output plan.source = false) {below : List Text}
    (hmem : plan.source ++ below ∈ documents before plan.rule plan.source) {bytes : Bytes}
    {after : BuildState}
    (hrun : runFrom (plan.renderFile (plan.source ++ below)) state =
      (.ok (plan.output ++ below),
        { after with disk := after.disk.set (plan.output ++ below) (.file bytes) }))
    (hafter : plan.Rendering before loaded after) (hdisk : after.disk = state.disk)
    (hsession : after.session = plan.sessionAfter before state.session [plan.source ++ below])
    (hturn : plan.TurnsOut before state.session (plan.source ++ below) (.ok bytes)) :
    plan.Finishes before loaded state below (.ok (plan.output ++ below))
      { after with disk := after.disk.set (plan.output ++ below) (.file bytes) } := by
  have hplace := ne_nil_of_isFile (hafter.places below hmem)
  refine ⟨by rw [runFrom_attempt, hrun], hafter.write houtside hinside hmem bytes, hsession,
    ⟨plan.outputOf?_append below, bytes, hturn, ?_⟩, ?_⟩
  · rw [entry?_set _ hplace, if_pos rfl]
  · intro place hother
    rw [entry?_set _ hplace, if_neg hother, hdisk]

/-- One document is written or spoiled, and the rendering goes on. -/
theorem rendering_renderFile (hfaultless : plan.Faultless before loaded)
    (houtside : isWithin plan.source plan.output = false)
    (hinside : isWithin plan.output plan.source = false)
    (hstate : plan.Rendering before loaded state)
    {below : List Text} (hmem : plan.source ++ below ∈ documents before plan.rule plan.source)
    (hbelow : below ≠ []) {bytes : Bytes}
    (hsource : before.entry? (plan.source ++ below) = some (.file bytes)) :
    ∃ outcome after, plan.Finishes before loaded state below outcome after := by
  have hread : runFrom (onDisk (DiskAction.readBytes (plan.source ++ below))) state =
      (.ok bytes, state) := by
    apply runFrom_readBytes_file
    rw [entry?_of_under hstate.source (isWithin_iff.mpr (List.prefix_append ..)), hsource]
  have hcall : plan.call? before (plan.source ++ below) = (Utf8.decode? bytes).map fun text =>
      .render text (textBelow below) plan.config.globals := by
    rw [call?_append, bytesAt?_eq_some.mpr hsource, Option.bind_some]
  cases hdecoded : Utf8.decode? bytes with
  | none =>
      refine ⟨_, _, finishes_of_spoiled rfl (runFrom_renderFile_undecodable hread hdecoded) hstate
        rfl ?_ (.undecodable hsource hdecoded)⟩
      rw [sessionAfter, List.filterMap_cons, hcall, hdecoded]
      rfl
  | some text =>
      have hreads : plan.Reads before (plan.source ++ below) text (textBelow below) :=
        ⟨below, bytes, rfl, hsource, hdecoded, rfl⟩
      have hafter : plan.Rendering before loaded (plan.rendered state text below) :=
        ⟨hstate.wellFormed, hstate.source, hstate.session.render hmem hreads, hstate.places,
          hstate.stages⟩
      have hsession : (plan.rendered state text below).session =
          plan.sessionAfter before state.session [plan.source ++ below] := by
        rw [sessionAfter, List.filterMap_cons, hcall, hdecoded]
        rfl
      cases hrendered : (state.session.render text (textBelow below) plan.config.globals).1 with
      | error error =>
          cases error with
          | fault fault =>
              exact absurd hrendered (hfaultless _ hstate.session _ hmem _ _ hreads fault)
          | cyclic cycle =>
              exact ⟨_, _, finishes_of_spoiled rfl
                (runFrom_renderFile_error hread hdecoded hrendered) hafter rfl hsession
                (.cyclic hreads hrendered)⟩
      | ok expanded =>
          have hrun := runFrom_renderFile_ok hread hdecoded hrendered
          have hplace := hstate.places below hmem
          have htarget := plan.outputOf?_append below
          by_cases hstages : state.disk.Stages (plan.output ++ below)
          · have hwrite :=
              DiskAction.runFrom_writeText hstate.wellFormed hplace hstages expanded
            rw [@runFrom_onDisk_ok _ (plan.rendered state text below) _ _ _ hwrite,
              andThen_ok] at hrun
            exact ⟨_, _, finishes_of_written houtside hinside hmem hrun hafter
              (rendered_disk ..) hsession
              (.written hreads hrendered htarget ((hstate.stages below hbelow).mp hstages))⟩
          · have hwrite :=
              DiskAction.runFrom_writeText_unstaged hstate.wellFormed hplace hstages expanded
            rw [@runFrom_onDisk_error _ (plan.rendered state text below) _ _ _ hwrite,
              andThen_error] at hrun
            exact ⟨_, _, finishes_of_spoiled rfl hrun hafter rfl hsession
              (.unstaged hreads hrendered htarget
                (mt (hstate.stages below hbelow).mpr hstages))⟩

theorem Shows.of_kept {start after later : Disk} {outcome : Location × Except BuildError Location}
    (hshows : plan.Shows before session start after outcome)
    (hkept : ∀ target, plan.outputOf? outcome.1 = some target →
      later.entry? target = after.entry? target) :
    plan.Shows before session start later outcome := by
  obtain ⟨document, result⟩ := outcome
  cases result with
  | ok target =>
      obtain ⟨htarget, bytes, hturn, hentry⟩ := hshows
      exact ⟨htarget, bytes, hturn, by rw [hkept target htarget, hentry]⟩
  | error error =>
      refine ⟨hshows.1, fun target htarget => ?_⟩
      rw [hkept target htarget]
      exact hshows.2 target htarget

theorem Shows.of_start {start earlier after : Disk}
    {outcome : Location × Except BuildError Location}
    (hshows : plan.Shows before session start after outcome)
    (hkept : ∀ target, plan.outputOf? outcome.1 = some target →
      start.entry? target = earlier.entry? target) :
    plan.Shows before session earlier after outcome := by
  obtain ⟨document, result⟩ := outcome
  cases result with
  | ok target => exact hshows
  | error error =>
      refine ⟨hshows.1, fun target htarget => ?_⟩
      rw [← hkept target htarget]
      exact hshows.2 target htarget

theorem ShowInTurn.cons {start after : Disk} {first : Location × Except BuildError Location}
    {rest : List (Location × Except BuildError Location)}
    (hfirst : plan.Shows before session start after first)
    (hrest : plan.ShowInTurn before (plan.sessionAfter before session [first.1]) start after
      rest) :
    plan.ShowInTurn before session start after (first :: rest) := by
  intro earlier shown later hsplit
  rcases List.cons_eq_append_iff.mp hsplit with ⟨rfl, hhead⟩ | ⟨others, rfl, hothers⟩
  · cases hhead
    exact hfirst
  · rw [List.map_cons, sessionAfter_cons]
    exact hrest others shown later hothers

/-- The documents of a part have their outcomes in order, and none of them disturbs another. -/
theorem rendering_renderPart (hbefore : before.WellFormed)
    (hfaultless : plan.Faultless before loaded)
    (houtside : isWithin plan.source plan.output = false)
    (hinside : isWithin plan.output plan.source = false) {part : List Location}
    (hpart : ∀ document ∈ part, document ∈ documents before plan.rule plan.source)
    (hnodup : part.Nodup) (hstate : plan.Rendering before loaded state) :
    ∃ outcomes after, runFrom (plan.renderPart part) state = (.ok outcomes, after) ∧
      plan.Rendering before loaded after ∧ outcomes.map Prod.fst = part ∧
      plan.ShowInTurn before state.session state.disk after.disk outcomes ∧
      ∀ place, (∀ document ∈ part, plan.outputOf? document ≠ some place) →
        after.disk.entry? place = state.disk.entry? place := by
  induction part generalizing state with
  | nil => exact ⟨[], state, rfl, hstate, rfl, by simp [ShowInTurn], fun _ _ => rfl⟩
  | cons document rest ih =>
      rw [List.nodup_cons] at hnodup
      have hmem := hpart document (List.mem_cons_self ..)
      obtain ⟨hfile, name, names, hdocument⟩ := of_mem_documentsBelow hbefore hmem
      rw [List.append_nil] at hdocument
      obtain ⟨bytes, hsource⟩ := isFile_iff.mp hfile
      subst hdocument
      obtain ⟨outcome, between, hfinishes⟩ := rendering_renderFile hfaultless houtside hinside
        hstate hmem (List.cons_ne_nil name names) hsource
      obtain ⟨outcomes, after, hrest, hafter, hdocuments, hshowsRest, hkeptRest⟩ :=
        ih (fun other hother => hpart other (List.mem_cons_of_mem _ hother)) hnodup.2
          hfinishes.rendering
      have hfirst : ∀ other ∈ rest,
          plan.outputOf? other ≠ some (plan.output ++ name :: names) := by
        intro other hother hsame
        have hequal := outputOf?_injective hsame (plan.outputOf?_append (name :: names))
        exact hnodup.1 (hequal ▸ hother)
      refine ⟨(plan.source ++ name :: names, outcome) :: outcomes, after, ?_, hafter,
        by rw [List.map_cons, hdocuments], ?_, ?_⟩
      · rw [renderPart, List.mapM_cons, runFrom_bind, runFrom_bind, hfinishes.run, andThen_ok,
          runFrom_pure, andThen_ok, runFrom_bind]
        rw [renderPart] at hrest
        rw [hrest, andThen_ok, runFrom_pure]
      · refine ShowInTurn.cons (hfinishes.shows.of_kept fun target htarget => ?_) ?_
        · rw [outputOf?_append, Option.some.injEq] at htarget
          subst htarget
          exact hkeptRest _ hfirst
        · intro earlier shown later hsplit
          rw [← hfinishes.session]
          apply (hshowsRest earlier shown later hsplit).of_start
          intro target htarget
          apply hfinishes.kept
          rintro rfl
          have hshownMem : shown.1 ∈ rest := by
            rw [← hdocuments, hsplit]
            simp
          exact hfirst shown.1 hshownMem htarget
      · intro place hplace
        rw [hkeptRest place fun other hother => hplace other (List.mem_cons_of_mem _ hother)]
        apply hfinishes.kept
        rintro rfl
        exact hplace _ (List.mem_cons_self ..) (plan.outputOf?_append _)

/-- Parts that all go well are rendered as one. -/
theorem runFrom_renderParts {parts : List (List Location)} {after : BuildState}
    {outcomes : List (Location × Except BuildError Location)}
    (hrun : runFrom (plan.renderPart parts.flatten) state = (.ok outcomes, after)) :
    runFrom (plan.renderParts parts) state = (.ok outcomes, after) := by
  induction parts generalizing state outcomes with
  | nil => exact hrun
  | cons part rest ih =>
      rw [renderPart, List.flatten_cons, List.mapM_append, runFrom_bind, andThen_eq_ok] at hrun
      obtain ⟨first, between, hfirst, hrun⟩ := hrun
      rw [runFrom_bind, andThen_eq_ok] at hrun
      obtain ⟨others, later, hothers, hsame⟩ := hrun
      cases hsame
      have hpart : runFrom (plan.renderPart part) state = (.ok first, between) := hfirst
      have hrest : runFrom (plan.renderParts rest) between = (.ok others, after) := ih hothers
      rw [renderParts, runFrom_bind, runFrom_attempt, hpart, andThen_ok, runFrom_bind,
        runFrom_attempt, hrest, andThen_ok]
      rfl

end Plan

end PageLoom.Site
