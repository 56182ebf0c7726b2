import PageLoom.Proofs.Component.Closure
import PageLoom.Proofs.Component.History

/-!
# Independence of earlier calls

A session that has expanded other things before renders a document as a fresh one does, if the fresh
one renders it at all: what is written never differs. But a fragment in the cache hides what it is
made of from the guard, so a document that is refused as cyclic by a fresh session may be written
by a session with a history. This happens exactly for the documents that have a finite expansion in
which no component invokes itself in its own text and that a fresh session yet refuses.
-/

namespace PageLoom.Component

open Scan Markup

namespace Session

/-- What is written for a document, if its rendering ends with a result. -/
def written? (session : Session) (document file : Text) (globals : Props) : Option Text :=
  (session.render document file globals).1.toOption

def Closed (session : Session) : Prop := session.cache.Closed session.store.library

variable {session : Session}

theorem closed_ofStore (store : Store) (traced : Bool) : (ofStore store traced).Closed :=
  Cache.closed_empty _

theorem Closed.afterCall (hclosed : session.Closed) (call : Call) :
    session.cache.Within (session.afterCall call).cache ∧ (session.afterCall call).Closed := by
  cases call with
  | resolve name props file =>
      exact (settling_resolveWithin (session.setting file) session.store.library.templates.length []
        name props session.beginning hclosed).grown
  | render document file globals =>
      exact @grown_render (session.setting file) globals document session.beginning hclosed

/-- A session between calls: one with the same templates, a larger cache, and all in order. -/
structure Continues (session later : Session) : Prop where
  store : later.store = session.store
  traced : later.traced = session.traced
  within : session.cache.Within later.cache
  sound : later.Sound
  closed : later.Closed

theorem continues_afterCalls (hsound : session.Sound) (hclosed : session.Closed)
    (calls : List Call) : session.Continues (session.afterCalls calls) := by
  induction calls generalizing session with
  | nil => exact ⟨rfl, rfl, .refl _, hsound, hclosed⟩
  | cons call rest ih =>
      obtain ⟨hwithin, hnext⟩ := hclosed.afterCall call
      have hrest := ih (hsound.afterCall call) hnext
      exact ⟨hrest.store.trans (store_afterCall session call),
        hrest.traced.trans (traced_afterCall session call), hwithin.trans hrest.within,
        hrest.sound, hrest.closed⟩

theorem written?_eq_some {document file written : Text} {globals : Props} :
    session.written? document file globals = some written ↔
      (session.render document file globals).1 = .ok written := by
  unfold written?
  cases (session.render document file globals).1 with
  | error error => simp [Except.toOption]
  | ok other => simp [Except.toOption]

theorem Continues.setting_eq {later : Session} (hlater : session.Continues later) (file : Text) :
    later.setting file = session.setting file := by
  rw [setting, setting, hlater.store, hlater.traced]

/-- What a session writes, it writes also after any further calls. -/
theorem written?_afterCalls {document file written : Text} {globals : Props}
    (hsound : session.Sound) (hclosed : session.Closed) (calls : List Call)
    (hwritten : session.written? document file globals = some written) :
    (session.afterCalls calls).written? document file globals = some written := by
  rw [written?_eq_some] at hwritten ⊢
  have hlater := continues_afterCalls hsound hclosed calls
  have hsetting := hlater.setting_eq file
  have hahead : Ahead (session.setting file) session.beginning
      (session.afterCalls calls).beginning := by
    refine ⟨hsound, ?_, ?_, hlater.within⟩
    · rw [← hsetting]
      exact hlater.sound
    · rw [← hsetting]
      exact hlater.closed
  rw [render_eq, hsetting]
  exact render_ahead hahead hwritten

end Session

/-! ## Calls that settle a document -/

/-- Nothing has to be expanded for a part of a page. -/
def Expandable.Settled (library : Library) (cache : Cache) : Expandable → Prop
  | .invocation name props => cache.Settles library name props
  | .body place _ text => ∀ tag ∈ findTags place text, cache.SettlesTag library tag
  | .pieces _ found => ∀ tag ∈ invoked found, cache.SettlesTag library tag

theorem Expandable.Settled.of_within {library : Library} {cache other : Cache} {part : Expandable}
    (hsettled : part.Settled library cache) (hwithin : cache.Within other) :
    part.Settled library other := by
  cases part with
  | invocation name props => exact Cache.Settles.of_within hsettled hwithin
  | body place within? text => exact fun tag hmem => (hsettled tag hmem).of_within hwithin
  | pieces within? found => exact fun tag hmem => (hsettled tag hmem).of_within hwithin

section Settling

variable {setting : Setting} {progress : Progress}

/-- A settled tag is resolved without a change to what the cache holds. -/
theorem resolveTag_of_settled {room : Nat} {stack : List Text} {tag : Tag}
    (hstack : tag.name ∉ stack) (hsettled : progress.cache.SettlesTag setting.library tag) :
    ∃ new? after, runFrom (resolveTag setting room stack tag) progress = (.ok new?, after) ∧
      progress.cache.Within after.cache := by
  by_cases hheld : progress.cache.holds (cacheKey setting.library.generation tag.name
      (parseAttributes tag.attributes)) = true
  · obtain ⟨⟨fragment, missing⟩, hfound⟩ := Option.isSome_iff_exists.mp hheld
    exact ⟨some fragment, _, runFrom_resolveWithin_hit hstack hfound, .refl _⟩
  · have htemplate := hsettled.resolve_right hheld
    exact ⟨none, _, runFrom_resolveWithin_absent hstack (Cache.find?_of_not_holds hheld) htemplate,
      .refl _⟩

theorem admits_of_expands {admits : Admission} {templates : List (Text × Text)} {traced : Bool}
    {within? : Option Text} {found : List (Piece Tag)} {text? : Option Text} {missing : List Text}
    (hexpands : Expands admits templates traced (.pieces within? found) text? missing) :
    ∀ tag ∈ invoked found, admits within? tag.name := by
  induction found generalizing text? missing with
  | nil => exact fun tag hmem => by cases hmem
  | cons piece rest ih =>
      cases hexpands with
      | plain hrest => exact ih hrest
      | void hvoid hrest =>
          rw [invoked_void hvoid]
          exact ih hrest
      | tag hvoid hadmits hfragment hrest =>
          rw [invoked_tag hvoid]
          intro tag hmem
          rcases List.mem_cons.mp hmem with rfl | hmem
          · exact hadmits
          · exact ih hrest tag hmem

/-- The tags of a component that is alone in progress, or of a document, are replaced as in their
expansion once they are settled. -/
theorem replaceTags_of_settled {room : Nat} {within? : Option Text} {found : List (Piece Tag)}
    {replaced : Text} {missing : List Text}
    (hsound : progress.cache.Sound setting.library setting.traced)
    (hsettled : ∀ tag ∈ invoked found, progress.cache.SettlesTag setting.library tag)
    (hexpands : Expands selfless setting.library.templates setting.traced
      (.pieces within? found) (some replaced) missing) :
    ∃ after, runFrom (replaceTags (resolveTag setting room within?.toList) found) progress =
      (.ok replaced, after) := by
  have hends : ∃ text after, runFrom (replaceTags (resolveTag setting room within?.toList) found)
      progress = (.ok text, after) :=
    replaceTags_ok (I := fun between => progress.cache.Within between.cache)
      (fun tag hmem between hbetween => by
        have hadmits := admits_of_expands hexpands tag hmem
        obtain ⟨new?, after, hrun, hwithin⟩ := @resolveTag_of_settled setting between room
          within?.toList tag (fun hstack => hadmits (by simpa using hstack))
          ((hsettled tag hmem).of_within hbetween)
        exact ⟨new?, after, hrun, hbetween.trans hwithin⟩) (.refl _)
  obtain ⟨text, after, hrun⟩ := hends
  have hfaithful := faithful_replaceTags within?
    (fun tag between hsound =>
      faithful_resolveWithin setting room within?.toList tag.name _ between hsound)
    (fun tag between new? after hrun hsame =>
      not_mem_of_runFrom_resolveWithin hrun (by simp [hsame]))
    found progress hsound
  rw [hrun] at hfaithful
  obtain ⟨others, hother, -⟩ := hfaithful.expands rfl
  rw [← Option.some.inj (hother.unique hexpands).1]
  exact ⟨after, hrun⟩

/-- A component whose tags are settled is expanded in one step. -/
theorem resolve_of_settled {name template text expanded : Text} {props : Props}
    {missing : List Text} (hsound : progress.cache.Sound setting.library setting.traced)
    (htemplate : setting.library.template? name = some template)
    (htext : instantiate template props = .ok text)
    (hsettled : ∀ tag ∈ findTags .template text, progress.cache.SettlesTag setting.library tag)
    (hbody : Expands selfless setting.library.templates setting.traced
      (.body .template (some name) text) (some expanded) missing) :
    ∃ fragment? after,
      runFrom (resolve setting name props) progress = (.ok fragment?, after) := by
  have hroom : setting.library.templates.length ≠ 0 := by
    intro hempty
    rw [Library.template?, List.length_eq_zero_iff.mp hempty] at htemplate
    cases htemplate
  obtain ⟨lower, hlower⟩ := Nat.exists_eq_succ_of_ne_zero hroom
  rw [resolve, hlower]
  cases hfound : progress.cache.find? (cacheKey setting.library.generation name props) with
  | some entry => exact ⟨some entry.1, _, runFrom_resolveWithin_hit List.not_mem_nil hfound⟩
  | none =>
      cases hbody with
      | body hpieces hrestored =>
          obtain ⟨after, hreplaced⟩ := @replaceTags_of_settled setting progress.entered lower
            (some name) _ _ _ (hsound.of_find? fun _ => rfl) hsettled hpieces
          rw [runFrom_resolveWithin_present List.not_mem_nil hfound htemplate htext]
          simp only [List.nil_append, Option.toList_some] at hreplaced ⊢
          rw [hreplaced, andThen_ok, finish, hrestored]
          exact ⟨_, _, rfl⟩

/-- A document whose tags are settled is written. -/
theorem render_of_settled {document text expanded : Text} {globals : Props} {missing : List Text}
    (hsound : progress.cache.Sound setting.library setting.traced)
    (htext : instantiate document globals = .ok text)
    (hsettled : ∀ tag ∈ findTags .document text, progress.cache.SettlesTag setting.library tag)
    (hbody : Expands selfless setting.library.templates setting.traced
      (.body .document none text) (some expanded) missing) :
    (runFrom (render setting globals document) progress).1 = .ok expanded := by
  cases hbody with
  | body hpieces hrestored =>
      obtain ⟨after, hreplaced⟩ := @replaceTags_of_settled setting progress
        setting.library.templates.length none _ _ _ hsound hsettled hpieces
      rw [runFrom_render_instantiated htext]
      rw [Option.toList_none] at hreplaced
      rw [hreplaced, andThen_ok, hrestored]
      rfl

end Settling

namespace Session

variable {session : Session}

/-- For every part of a page that has an expansion there are calls that settle it: the components
that it is made of, inner ones first. The induction is on the expansion, each of the components
being resolved alone, so that only an invocation of itself would be refused. -/
theorem exists_calls_settling {part : Expandable} {result? : Option Text} {missing : List Text}
    (hsound : session.Sound) (hclosed : session.Closed)
    (hexpands : Expands selfless session.store.library.templates session.traced part result?
      missing) :
    ∃ calls, part.Settled session.store.library (session.afterCalls calls).cache := by
  generalize htemplates : session.store.library.templates = templates at hexpands
  generalize htraced : session.traced = traced at hexpands
  induction hexpands generalizing session with
  | absent htemplate => exact ⟨[], .inl (by rw [Library.template?, htemplates]; exact htemplate)⟩
  | @present name props template text expanded missing htemplate htext hbody ih =>
      obtain ⟨calls, hsettled⟩ := ih hsound hclosed htemplates htraced
      have hlater := continues_afterCalls hsound hclosed calls
      have hsetting := hlater.setting_eq []
      have hsound : (session.afterCalls calls).cache.Sound (session.setting []).library
          (session.setting []).traced := by
        rw [← hsetting]
        exact hlater.sound
      have hclosed : (session.afterCalls calls).cache.Closed (session.setting []).library := by
        rw [← hsetting]
        exact hlater.closed
      rw [← htemplates, ← htraced] at hbody
      rw [← htemplates] at htemplate
      obtain ⟨fragment?, after, hrun⟩ := @resolve_of_settled (session.setting [])
        (session.afterCalls calls).beginning name template text expanded props missing hsound
        htemplate htext hsettled hbody
      have hsettling := settling_resolveWithin (session.setting [])
        session.store.library.templates.length [] name props (session.afterCalls calls).beginning
        hclosed
      refine ⟨calls ++ [.resolve name props []], ?_⟩
      rw [afterCalls_append]
      change Cache.Settles _ ((session.afterCalls calls).resolve name props []).2.cache name props
      rw [resolve_eq, hsetting]
      exact hsettling.settles (congrArg Prod.fst hrun)
  | body _ _ ih => exact ih hsound hclosed htemplates htraced
  | nil => exact ⟨[], fun tag hmem => by cases hmem⟩
  | plain _ ih => exact ih hsound hclosed htemplates htraced
  | void hvoid _ ih =>
      obtain ⟨calls, hsettled⟩ := ih hsound hclosed htemplates htraced
      exact ⟨calls, by rwa [Expandable.Settled, invoked_void hvoid]⟩
  | @tag within? source tag rest fragment? missing text others hvoid _ _ _ ihFragment ihRest =>
      obtain ⟨calls, hsettled⟩ := ihFragment hsound hclosed htemplates htraced
      have hlater := continues_afterCalls hsound hclosed calls
      obtain ⟨more, hmore⟩ := ihRest hlater.sound hlater.closed
        (by rw [hlater.store, htemplates]) (by rw [hlater.traced, htraced])
      have hlatest := continues_afterCalls hlater.sound hlater.closed more
      refine ⟨calls ++ more, ?_⟩
      rw [afterCalls_append]
      rw [hlater.store] at hmore
      intro other hmem
      rw [invoked_tag hvoid] at hmem
      rcases List.mem_cons.mp hmem with rfl | hmem
      · exact Expandable.Settled.of_within hsettled hlatest.within
      · exact hmore other hmem

end Session

/-- A document is independent of earlier calls exactly if a fresh session writes it in case that it
has an expansion in which no component invokes itself in its own text. -/
theorem written?_independent_iff (store : Store) (traced : Bool) (document file : Text)
    (globals : Props) :
    (∀ calls, ((Session.ofStore store traced).afterCalls calls).written? document file globals =
        (Session.ofStore store traced).written? document file globals) ↔
      ∀ expanded missing, ExpandsDocument selfless store.library.templates traced globals
          document expanded missing →
        (Session.ofStore store traced).written? document file globals = some expanded := by
  have hsound := Session.sound_ofStore store traced
  have hclosed := Session.closed_ofStore store traced
  constructor
  · rintro hindependent expanded missing ⟨text, htext, hbody⟩
    obtain ⟨calls, hsettled⟩ := Session.exists_calls_settling hsound hclosed hbody
    have hlater := Session.continues_afterCalls hsound hclosed calls
    have hsetting := hlater.setting_eq file
    have hlaterSound := hlater.sound
    rw [Session.Sound, hlater.store, hlater.traced] at hlaterSound
    rw [← hindependent calls, Session.written?_eq_some, Session.render_eq, hsetting]
    exact @render_of_settled ((Session.ofStore store traced).setting file)
      ((Session.ofStore store traced).afterCalls calls).beginning document text expanded globals
      missing hlaterSound htext hsettled hbody
  · intro hfresh calls
    cases hwritten : (Session.ofStore store traced).written? document file globals with
    | some written => exact Session.written?_afterCalls hsound hclosed calls hwritten
    | none =>
        have hlater := Session.continues_afterCalls hsound hclosed calls
        cases hother : ((Session.ofStore store traced).afterCalls calls).written? document file
            globals with
        | none => rfl
        | some expanded =>
            -- What is written after the calls is an expansion, so a fresh session writes it too.
            obtain ⟨missing, hexpands, -⟩ :=
              hlater.sound.render (Session.written?_eq_some.mp hother)
            rw [hlater.store, hlater.traced] at hexpands
            rw [hfresh expanded missing hexpands] at hwritten
            cases hwritten

/-- A store with a component `b` that invokes `a`, which invokes `b` only if it is given `x`. -/
def branchingStore : Store :=
  ⟨[], [], ⟨[(['a'], "{% if (x) %}<b/>{% endif %}!".toList), (['b'], "<a/>".toList)], 1⟩⟩

/-- A fresh session refuses a document that invokes `a` with `x`, and writes it once another
document has brought `b` into the cache. -/
theorem written?_depends_on_calls :
    ((Session.ofStore branchingStore false).render "<a x=\"1\"/>".toList ['p'] []).1 =
        .error (.cyclic [['a'], ['b'], ['a']]) ∧
      (((Session.ofStore branchingStore false).afterCall (.render "<b/>".toList ['q'] [])).render
        "<a x=\"1\"/>".toList ['p'] []).1 = .ok "!!".toList := by
  decide +kernel

end PageLoom.Component
