import PageLoom.Proofs.Component.History
import PageLoom.Proofs.Markup.Restoration
import PageLoom.Proofs.Template.Sealed

/-!
# Expansions without fault

A number fault ends an expansion if a condition raises one, or if a placeholder that looks like that
of a comment holds too many digits. Where documents, templates and global values are without NUL,
all texts in between are sealed, so that only conditions are left to raise a fault.
-/

namespace PageLoom.Component

open Scan Markup Template

/-- What is instantiated on the way of expanding a document: a template with its props, as part of
the components in progress. -/
inductive Opened (templates : List (Text × Text)) (globals : Props) (document : Text) :
    List Text → Place → Text → Props → Prop
  | document : Opened templates globals document [] .document document globals
  | component {stack place template props text tag inner}
      (hopened : Opened templates globals document stack place template props)
      (htext : instantiate template props = .ok text) (htag : tag ∈ findTags place text)
      (hstack : tag.name ∉ stack) (hinner : templates.lookup tag.name = some inner) :
      Opened templates globals document (stack ++ [tag.name]) .template inner
        (parseAttributes tag.attributes)

/-- A document on whose way nothing raises a fault: there is no NUL, no condition has one, and no
text has more comments than there are numbers to read. -/
structure Harmless (templates : List (Text × Text)) (globals : Props) (document : Text) : Prop where
  plainDocument : '\x00' ∉ document
  plainTemplates : ∀ entry ∈ templates, '\x00' ∉ entry.2
  plainGlobals : ∀ prop ∈ globals, '\x00' ∉ prop.2.asText
  conditions : ∀ stack place template props fault,
    Opened templates globals document stack place template props →
      instantiate template props ≠ .error fault
  comments : ∀ stack place template props text,
    Opened templates globals document stack place template props →
      instantiate template props = .ok text →
        (protectComments text).2.length ≤ Number.powerOfTen Number.digitLimit

/-- A text without NUL, comments and conditions, and without props in its tags. -/
structure Bare (place : Place) (text : Text) : Prop where
  plain : '\x00' ∉ text
  instantiated : instantiate text [] = .ok text
  uncommented : (protectComments text).2 = []
  propless : ∀ tag ∈ findTags place text, parseAttributes tag.attributes = []

instance (place : Place) (text : Text) : Decidable (Bare place text) :=
  decidable_of_iff ('\x00' ∉ text ∧ instantiate text [] = .ok text ∧
      (protectComments text).2 = [] ∧
      ∀ tag ∈ findTags place text, parseAttributes tag.attributes = [])
    ⟨fun ⟨hplain, htext, hcomments, htags⟩ => ⟨hplain, htext, hcomments, htags⟩,
      fun hbare => ⟨hbare.plain, hbare.instantiated, hbare.uncommented, hbare.propless⟩⟩

/-- Between bare texts no prop is ever handed on, so that each is instantiated to itself. -/
theorem harmless_of_bare {templates : List (Text × Text)} {document : Text}
    (hdocument : Bare .document document) (htemplates : ∀ entry ∈ templates, Bare .template entry.2) :
    Harmless templates [] document := by
  have hopened : ∀ stack place template props,
      Opened templates [] document stack place template props → props = [] ∧ Bare place template := by
    intro stack place template props hopened
    induction hopened with
    | document => exact ⟨rfl, hdocument⟩
    | component _ htext htag _ hinner ih =>
        obtain ⟨rfl, hbare⟩ := ih
        cases hbare.instantiated.symm.trans htext
        exact ⟨hbare.propless _ htag, htemplates _ (Table.mem_of_lookup hinner)⟩
  refine ⟨hdocument.plain, fun entry hmem => (htemplates entry hmem).plain, by simp, ?_, ?_⟩
  · intro stack place template props fault hopen hfault
    obtain ⟨rfl, hbare⟩ := hopened _ _ _ _ hopen
    cases hbare.instantiated.symm.trans hfault
  · intro stack place template props text hopen htext
    obtain ⟨rfl, hbare⟩ := hopened _ _ _ _ hopen
    cases hbare.instantiated.symm.trans htext
    rw [hbare.uncommented]
    exact Nat.zero_le _

/-- In every fragment of a cache all numbers can be read. -/
def Cache.Sealed (cache : Cache) : Prop :=
  ∀ key fragment missing, cache.find? key = some (fragment, missing) → Readable fragment

/-- A run that leaves the cache sealed and raises no fault. -/
structure Mild {α : Type} (holds : α → Prop) (run : Except RenderError α × Progress) : Prop where
  cache : run.2.cache.Sealed
  result : ∀ value, run.1 = .ok value → holds value
  faultless : ∀ fault, run.1 ≠ .error (.fault fault)

section Runs

variable {α β : Type} {holds : α → Prop} {others : β → Prop}

theorem mild_ok {value : α} {progress : Progress} (hcache : progress.cache.Sealed)
    (hvalue : holds value) : Mild holds (.ok value, progress) := by
  refine ⟨hcache, ?_, fun fault herror => by cases herror⟩
  intro other hother
  cases hother
  exact hvalue

theorem mild_cyclic {cycle : List Text} {progress : Progress} (hcache : progress.cache.Sealed) :
    Mild holds (.error (.cyclic cycle), progress) :=
  ⟨hcache, fun value hok => (by cases hok), fun fault herror => by cases herror⟩

theorem Mild.andThen {run : Except RenderError α × Progress}
    {next : α → Progress → Except RenderError β × Progress} (hrun : Mild holds run)
    (hnext : ∀ value progress, holds value → progress.cache.Sealed →
      Mild others (next value progress)) :
    Mild others (andThen next run) := by
  obtain ⟨result, after⟩ := run
  cases result with
  | ok value => exact hnext value after (hrun.result value rfl) hrun.cache
  | error error =>
      refine ⟨hrun.cache, fun value hok => (by cases hok), ?_⟩
      rintro fault herror
      cases herror
      exact hrun.faultless fault rfl

variable {progress : Progress}

/-- Replacing tags by sealed fragments makes a sealed text of a sealed text. -/
theorem mild_replaceTags {replacement : Tag → Expansion (Option Text)} {found : List (Piece Tag)}
    {start finish : Option Nat}
    (hstep : ∀ tag ∈ invoked found, ∀ progress : Progress, progress.cache.Sealed →
      Mild (fun new? => ∀ new ∈ new?, Readable new) (runFrom (replacement tag) progress))
    (hcache : progress.cache.Sealed)
    (hfound : Threads (some Number.digitLimit) start found finish) :
    Mild (fun text => Leads (some Number.digitLimit) start text finish)
      (runFrom (replaceTags replacement found) progress) := by
  induction found generalizing start progress with
  | nil => exact mild_ok hcache (leads_nil.mpr hfound)
  | cons piece rest ih =>
      cases piece with
      | plain c =>
          obtain ⟨between, hadvance, hrest⟩ := hfound
          rw [runFrom_replaceTags_plain]
          exact (ih hstep hcache hrest).andThen fun text after htext hafter =>
            mild_ok hafter (leads_cons.mpr ⟨between, hadvance, htext⟩)
      | found source tag =>
          obtain ⟨rfl, hsource, hrest⟩ := hfound
          cases hvoid : isVoidElement tag.name with
          | true =>
              rw [invoked_void hvoid] at hstep
              rw [runFrom_replaceTags_void hvoid]
              exact (ih hstep hcache hrest).andThen fun text after htext hafter =>
                mild_ok hafter (leads_append.mpr ⟨none, hsource, htext⟩)
          | false =>
              rw [invoked_tag hvoid] at hstep
              have htag := hstep tag (List.mem_cons_self ..) progress hcache
              rw [runFrom_replaceTags_tag hvoid]
              refine htag.andThen fun new? between hnew hbetween => ?_
              have hothers := ih (fun other hmem => hstep other (List.mem_cons_of_mem _ hmem))
                hbetween hrest
              refine hothers.andThen fun text after htext hafter => mild_ok hafter ?_
              refine leads_append.mpr ⟨none, ?_, htext⟩
              cases new? with
              | none => exact hsource
              | some new => exact hnew new rfl

theorem Cache.Sealed.put {cache : Cache} (hcache : cache.Sealed) (key : Text) {fragment : Text}
    (hfragment : Readable fragment) (missing : List Text) :
    (cache.put key fragment missing).2.Sealed ∧
      Readable (cache.put key fragment missing).1 := by
  constructor
  · intro other stored names hstored
    rw [Cache.find?_put] at hstored
    split at hstored
    · cases hstored
      exact hfragment
    · exact hcache other stored names hstored
  · cases hfound : cache.find? key with
    | none => rwa [Cache.put_fst_of_absent hfound]
    | some entry =>
        rw [Cache.put_fst_of_found hfound]
        exact hcache key entry.1 entry.2 hfound

theorem sealed_wrapFragment {name text : Text} (hname : '\x00' ∉ name)
    (htext : Readable text) : Readable (wrapFragment name text) := by
  have hmarker : ∀ marker : Text, '\x00' ∉ marker → Readable (markerLine marker name) := by
    intro marker hmarker
    apply sealed_of_not_mem
    simp only [markerLine, List.cons_append, List.mem_cons, List.mem_append, not_or]
    exact ⟨by decide, ⟨⟨hmarker, hname⟩, by decide⟩, by decide, List.not_mem_nil⟩
  exact ((hmarker startMarker (by decide)).append htext).append (hmarker endMarker (by decide))

/-- The end of an expansion puts comments back and stores the fragment. -/
theorem mild_finish {setting : Setting} {name replaced : Text} {props : Props}
    {comments outer : List Text} (hname : '\x00' ∉ name)
    (hcomments : ∀ comment ∈ comments, Readable comment) (hreplaced : Readable replaced)
    (hcache : progress.cache.Sealed) :
    Mild (fun new? => ∀ new ∈ new?, Readable new)
      (finish setting name props comments outer replaced progress) := by
  obtain ⟨restored, hrestore, hrestored⟩ := restoreComments_ok hcomments hreplaced
  have hfragment : Readable
      (if setting.traced then wrapFragment name restored else restored) := by
    split
    · exact sealed_wrapFragment hname hrestored
    · exact hrestored
  obtain ⟨hstored, hanswer⟩ := hcache.put
    (cacheKey setting.library.generation name props) hfragment progress.unresolved
  simp only [finish, hrestore]
  refine mild_ok hstored ?_
  rintro new hnew
  cases hnew
  exact hanswer

end Runs

section Document

variable {globals : Props} {document : Text} {setting : Setting}

/-- Nothing that a harmless document invokes raises a fault. The induction is on the room that is
left, as the tags in a component are resolved with less. -/
theorem mild_resolveWithin
    (hharmless : Harmless setting.library.templates globals document) (room : Nat)
    (stack : List Text) (name : Text) (props : Props) (progress : Progress)
    (hcache : progress.cache.Sealed) (hname : '\x00' ∉ name)
    (hprops : SealedProps (some Number.digitLimit) props)
    (hopened : ∀ template, name ∉ stack → setting.library.template? name = some template →
      Opened setting.library.templates globals document (stack ++ [name]) .template template
        props) :
    Mild (fun new? => ∀ new ∈ new?, Readable new)
      (runFrom (resolveWithin setting room stack name props) progress) := by
  induction room using Nat.strongRecOn generalizing stack name props progress with
  | _ room ih =>
      apply resolveWithin_cases
      · exact fun _ => mild_cyclic hcache
      · intro fragment missing _ hfound
        refine mild_ok hcache ?_
        rintro new hnew
        cases hnew
        exact hcache _ _ _ hfound
      · exact fun _ _ => mild_ok hcache fun new hnew => by cases hnew
      · intro error hfault
        refine ⟨hcache, fun value hok => (by cases hok), ?_⟩
        rintro fault herror
        obtain ⟨hstack, template, htemplate, htext⟩ := hfault fault (Except.error.inj herror)
        exact hharmless.conditions _ _ _ _ _ (hopened template hstack htemplate) htext
      · intro template text lower hlower hstack _ htemplate htext
        have hopen := hopened template hstack htemplate
        have hplain := hharmless.plainTemplates _ (Library.mem_of_template? htemplate)
        have hsealed := sealed_instantiate (sealed_of_not_mem hplain) hprops htext
        obtain ⟨hguarded, hcomments⟩ := sealed_protectComments hsealed
          (leavesRoom_digitLimit (hharmless.comments _ _ _ _ _ hopen htext))
        have hthreads := threads_pieces (marked_tagPattern .template) hguarded
        have hentered : progress.entered.cache.Sealed := hcache
        refine (mild_replaceTags ?_ hentered hthreads).andThen
          fun replaced after hreplaced hafter => mild_finish hname hcomments hreplaced hafter
        intro tag hmem between hbetween
        have hvalue := (List.mem_filter.mp hmem).1
        apply ih lower (by omega) (stack ++ [name]) tag.name _ between hbetween
          (not_mem_name hvalue) (sealed_parseAttributes (sealed_attributes hguarded hvalue))
        intro inner hinner hlookup
        exact hopen.component htext hmem hinner hlookup

theorem mild_render (hharmless : Harmless setting.library.templates globals document)
    (progress : Progress) (hcache : progress.cache.Sealed) :
    Mild (fun _ => True) (runFrom (render setting globals document) progress) := by
  cases htext : instantiate document globals with
  | error fault => exact absurd htext (hharmless.conditions _ _ _ _ _ .document)
  | ok text =>
      have hsealed : Readable text :=
        sealed_instantiate (sealed_of_not_mem hharmless.plainDocument)
          (sealedProps_of_plain hharmless.plainGlobals) htext
      obtain ⟨hguarded, hcomments⟩ := sealed_protectComments hsealed
        (leavesRoom_digitLimit (hharmless.comments _ _ _ _ _ .document htext))
      have hthreads := threads_pieces (marked_tagPattern .document) hguarded
      rw [runFrom_render_instantiated htext]
      refine (mild_replaceTags ?_ hcache hthreads).andThen fun replaced after hreplaced hafter => ?_
      · intro tag hmem between hbetween
        have hvalue := (List.mem_filter.mp hmem).1
        apply mild_resolveWithin hharmless _ [] tag.name _ between hbetween
          (not_mem_name hvalue) (sealed_parseAttributes (sealed_attributes hguarded hvalue))
        intro inner hinner hlookup
        exact Opened.document.component htext hmem hinner hlookup
      · obtain ⟨restored, hrestore, -⟩ := restoreComments_ok hcomments hreplaced
        rw [hrestore]
        exact mild_ok hafter trivial

end Document

/-- A session renders a harmless document without fault, and its cache stays sealed. -/
theorem Session.render_of_harmless {session : Session} {document : Text} {globals : Props}
    (hharmless : Harmless session.store.library.templates globals document)
    (hcache : session.cache.Sealed) (file : Text) :
    (∀ fault, (session.render document file globals).1 ≠ .error (.fault fault)) ∧
      (session.render document file globals).2.cache.Sealed := by
  have hmild := @mild_render globals document (session.setting file) hharmless session.beginning
    hcache
  rw [Session.render_eq]
  exact ⟨hmild.faultless, hmild.cache⟩

end PageLoom.Component
