import PageLoom.Proofs.Component.Generation
import PageLoom.Proofs.Component.Independence

/-!
# Expansions from scratch

What a session writes from an empty cache it writes from every other, whatever its generation. The
converse fails only for documents that are refused as cyclic: where no component is refused from
scratch, a document is written from scratch if it is written after any calls at all. An expansion
exists then, and a part of a page that has an expansion never ends in a fault.
-/

namespace PageLoom.Component

open Scan Markup

/-! ## Parts that have an expansion -/

section Faultless

variable {α β : Type} {setting : Setting} {admits : Admission} {templates : List (Text × Text)}
variable {traced : Bool} {within? : Option Text} {found : List (Piece Tag)} {progress : Progress}

/-- A run that does not end in a number fault. -/
def Unfaulted (run : Except RenderError α × Progress) : Prop :=
  ∀ fault, run.1 ≠ .error (.fault fault)

theorem Unfaulted.andThen {run : Except RenderError α × Progress}
    {next : α → Progress → Except RenderError β × Progress} (hrun : Unfaulted run)
    (hnext : ∀ value after, run = (.ok value, after) → Unfaulted (next value after)) :
    Unfaulted (andThen next run) := by
  obtain ⟨result, after⟩ := run
  cases result with
  | ok value => exact hnext value after rfl
  | error error =>
      intro fault herror
      cases herror
      exact hrun fault rfl

theorem unfaulted_ok (value : α) (progress : Progress) : Unfaulted (.ok value, progress) :=
  fun _ herror => by cases herror

/-- Replacing tags ends in no fault if no replacement does. -/
theorem unfaulted_replaceTags {I : Progress → Prop} {replacement : Tag → Expansion (Option Text)}
    (hstep : ∀ tag ∈ invoked found, ∀ progress, I progress →
      Unfaulted (runFrom (replacement tag) progress))
    (hkeep : ∀ tag progress, I progress → I (runFrom (replacement tag) progress).2)
    (hbefore : I progress) : Unfaulted (runFrom (replaceTags replacement found) progress) := by
  induction found generalizing progress with
  | nil => exact unfaulted_ok _ _
  | cons piece rest ih =>
      cases piece with
      | plain c =>
          rw [runFrom_replaceTags_plain]
          exact (ih hstep hbefore).andThen fun text after _ => unfaulted_ok _ _
      | found source tag =>
          cases hvoid : isVoidElement tag.name with
          | true =>
              rw [invoked_void hvoid] at hstep
              rw [runFrom_replaceTags_void hvoid]
              exact (ih hstep hbefore).andThen fun text after _ => unfaulted_ok _ _
          | false =>
              rw [invoked_tag hvoid] at hstep
              rw [runFrom_replaceTags_tag hvoid]
              apply (hstep tag (List.mem_cons_self ..) progress hbefore).andThen
              intro new? between hrun
              have hbetween := hkeep tag progress hbefore
              rw [hrun] at hbetween
              apply (ih (fun other hmem => hstep other (List.mem_cons_of_mem _ hmem))
                hbetween).andThen
              exact fun text after _ => unfaulted_ok _ _

/-- Every tag among pieces that have an expansion has one. -/
theorem expands_of_mem_invoked {text? : Option Text} {missing : List Text}
    (hexpands : Expands admits templates traced (.pieces within? found) text? missing) :
    ∀ tag ∈ invoked found, ∃ fragment? others, Expands admits templates traced
      (.invocation tag.name (parseAttributes tag.attributes)) fragment? others := by
  induction found generalizing text? missing with
  | nil => exact fun tag hmem => by cases hmem
  | cons piece rest ih =>
      cases hexpands with
      | plain hrest => exact ih hrest
      | void hvoid hrest =>
          rw [invoked_void hvoid]
          exact ih hrest
      | tag hvoid hadmits hfragment hrest =>
          rw [invoked_tag hvoid]
          intro tag hmem
          rcases List.mem_cons.mp hmem with rfl | hmem
          · exact ⟨_, _, hfragment⟩
          · exact ih hrest tag hmem

/-- Pieces that are replaced at all are replaced as in their expansion. -/
theorem replaced_eq {room : Nat} {stack : List Text} {text replaced : Text} {after : Progress}
    {missing : List Text} (hsound : progress.cache.Sound setting.library setting.traced)
    (hrun : runFrom (replaceTags (resolveTag setting room stack) found) progress =
      (.ok text, after))
    (hadmits : ∀ name, within? = some name → name ∈ stack)
    (hexpands : Expands admits setting.library.templates setting.traced (.pieces within? found)
      (some replaced) missing) : text = replaced := by
  have hfaithful := faithful_replaceTags within?
    (fun tag between hbetween =>
      faithful_resolveWithin setting room stack tag.name _ between hbetween)
    (fun tag between new? later hlater hsame =>
      not_mem_of_runFrom_resolveWithin hlater (hadmits _ hsame)) found progress hsound
  rw [hrun] at hfaithful
  obtain ⟨others, hother, -⟩ := hfaithful.expands rfl
  exact Option.some.inj (hother.unique hexpands).1

/-- An invocation that has an expansion ends in no fault, wherever it stands. The induction is on
the room that is left. -/
theorem unfaulted_resolveWithin (room : Nat) (stack : List Text) {name : Text} {props : Props}
    {fragment? : Option Text} {missing : List Text}
    (hsound : progress.cache.Sound setting.library setting.traced)
    (hexpands : Expands admits setting.library.templates setting.traced (.invocation name props)
      fragment? missing) :
    Unfaulted (runFrom (resolveWithin setting room stack name props) progress) := by
  induction room using Nat.strongRecOn generalizing stack name props progress fragment? missing with
  | _ room ih =>
      apply resolveWithin_cases
      · intro _ fault herror
        cases herror
      · exact fun _ _ _ _ => unfaulted_ok _ _
      · exact fun _ _ => unfaulted_ok _ _
      · intro error hfault fault herror
        cases herror
        obtain ⟨-, template, htemplate, htext⟩ := hfault fault rfl
        cases hexpands with
        | absent hnone => cases htemplate.symm.trans hnone
        | present hother hinstantiated hbody =>
            cases htemplate.symm.trans hother
            cases htext.symm.trans hinstantiated
      · intro template text lower hlower _ _ htemplate htext
        cases hexpands with
        | absent hnone => cases htemplate.symm.trans hnone
        | present hother hinstantiated hbody =>
            cases htemplate.symm.trans hother
            cases htext.symm.trans hinstantiated
            cases hbody with
            | body hpieces hrestored =>
                have hentered : progress.entered.cache.Sound setting.library setting.traced :=
                  hsound.of_find? fun _ => rfl
                have htags : Unfaulted (runFrom (replaceTags
                    (resolveTag setting lower (stack ++ [name]))
                    (pieces (tagPattern .template) (protectComments text).1))
                    progress.entered) := by
                  refine unfaulted_replaceTags
                    (I := fun between => between.cache.Sound setting.library setting.traced)
                    ?_ ?_ hentered
                  · intro tag hmem between hbetween
                    obtain ⟨inner?, others, hinner⟩ := expands_of_mem_invoked hpieces tag hmem
                    exact ih lower (by omega) _ hbetween hinner
                  · intro tag between hbetween
                    exact (faithful_resolveWithin setting lower _ tag.name _ between hbetween).sound
                apply htags.andThen
                intro replaced after hrun
                rw [finish, replaced_eq hentered hrun (by simp) hpieces, hrestored]
                exact unfaulted_ok _ _

end Faultless

namespace Session

variable {session : Session} {store other : Store} {traced : Bool} {document file : Text}
variable {globals : Props}

/-- What is written from scratch is written by every session with the same templates. -/
theorem written?_of_scratch {written : Text} (hsound : session.Sound) (hclosed : session.Closed)
    (hscratch : (ofStore session.store session.traced).written? document file globals =
      some written) : session.written? document file globals = some written := by
  rw [written?_eq_some, render_eq] at hscratch ⊢
  have hahead : Ahead (session.setting file)
      (ofStore session.store session.traced).beginning session.beginning :=
    ⟨Cache.sound_empty _ _, hsound, hclosed, fun key hheld => by cases hheld⟩
  exact render_ahead hahead hscratch

/-- Of the store only its templates count. -/
theorem written?_ofStore_congr (htemplates : store.library.templates = other.library.templates) :
    (ofStore store traced).written? document file globals =
      (ofStore other traced).written? document file globals := by
  obtain ⟨root, extensions, templates, generation⟩ := store
  obtain ⟨otherRoot, otherExtensions, otherTemplates, otherGeneration⟩ := other
  dsimp only at htemplates
  subst htemplates
  have hrun := @parallel_render generation otherGeneration templates traced file globals document
    ⟨Cache.empty, [], []⟩ ⟨Cache.empty, [], []⟩ ⟨Cache.renumbered_empty _ _, rfl, rfl⟩
  exact congrArg Except.toOption (alike_eq_iff.mp hrun.result)

/-- No component is refused from scratch. -/
def Acyclic (store : Store) (traced : Bool) : Prop :=
  ∀ name props file cycle,
    ((ofStore store traced).resolve name props file).1 ≠ .error (.cyclic cycle)

theorem acyclic_of_no_templates (hnone : store.library.templates = []) :
    Acyclic store traced := by
  intro name props file cycle hcyclic
  have habsent : ((ofStore store traced).setting file).library.template? name = none := by
    change store.library.templates.lookup name = none
    rw [hnone, List.lookup_nil]
  have hrun : ((ofStore store traced).resolve name props file).1 = .ok none :=
    congrArg Prod.fst (runFrom_resolveWithin_absent List.not_mem_nil rfl habsent)
  rw [hrun] at hcyclic
  cases hcyclic

/-- The tags of a document are replaced from scratch if they have expansions: none is refused or
faulty from an empty cache, so none is with what the tags before it have left there. -/
theorem replaceTags_of_acyclic (hacyclic : Acyclic store traced) (file : Text)
    {found : List (Piece Tag)} {text? : Option Text} {missing : List Text}
    (hexpands : Expands selfless store.library.templates traced (.pieces none found) text?
      missing) :
    ∃ replaced after, runFrom (replaceTags (resolveTag ((ofStore store traced).setting file)
        store.library.templates.length []) found) (ofStore store traced).beginning =
      (.ok replaced, after) := by
  have hstart : (ofStore store traced).beginning.cache.Sound store.library traced :=
    sound_ofStore store traced
  have hempty : (ofStore store traced).beginning.cache.Closed store.library :=
    closed_ofStore store traced
  refine replaceTags_ok (I := fun between => between.cache.Sound store.library traced ∧
    between.cache.Closed store.library) ?_ ⟨hstart, hempty⟩
  rintro tag hmem between ⟨hsound, hclosed⟩
  obtain ⟨fragment?, others, hfragment⟩ := expands_of_mem_invoked hexpands tag hmem
  have hahead : Ahead ((ofStore store traced).setting file) (ofStore store traced).beginning
      between := ⟨hstart, hsound, hclosed, fun key hheld => by cases hheld⟩
  have hunfaulted : Unfaulted (runFrom (resolveTag ((ofStore store traced).setting file)
      store.library.templates.length [] tag) (ofStore store traced).beginning) :=
    unfaulted_resolveWithin _ [] hstart hfragment
  have hcyclic := hacyclic tag.name (parseAttributes tag.attributes) file
  rw [resolve_eq] at hcyclic
  cases hrun : runFrom (resolveTag ((ofStore store traced).setting file)
      store.library.templates.length [] tag) (ofStore store traced).beginning with
  | mk result after =>
      cases result with
      | ok new? =>
          obtain ⟨otherAfter, hother, hlater⟩ := resolveWithin_ahead hahead hrun
          exact ⟨new?, otherAfter, hother, hlater.otherSound, hlater.otherClosed⟩
      | error error =>
          cases error with
          | cyclic cycle => exact absurd (congrArg Prod.fst hrun) (hcyclic cycle)
          | fault fault => exact absurd (congrArg Prod.fst hrun) (hunfaulted fault)

/-- Where no component is refused as cyclic from scratch, a document is written from scratch exactly
if it is written after any calls, and with the same text. -/
theorem written?_eq_scratch (hacyclic : Acyclic store traced) (calls : List Call) :
    ((ofStore store traced).afterCalls calls).written? document file globals =
      (ofStore store traced).written? document file globals := by
  revert calls
  rw [written?_independent_iff]
  rintro expanded missing ⟨text, htext, hbody⟩
  cases hbody with
  | body hpieces hrestored =>
      have hstart : (ofStore store traced).beginning.cache.Sound store.library traced :=
        sound_ofStore store traced
      have hempty : (ofStore store traced).beginning.cache.Closed store.library :=
        closed_ofStore store traced
      obtain ⟨replaced, after, hrun⟩ := replaceTags_of_acyclic hacyclic file hpieces
      have hstart : (ofStore store traced).beginning.cache.Sound
          ((ofStore store traced).setting file).library
          ((ofStore store traced).setting file).traced := sound_ofStore store traced
      have hsame := replaced_eq hstart hrun (fun name hname => by cases hname) hpieces
      rw [written?_eq_some, render_eq]
      dsimp only
      rw [runFrom_render_instantiated htext]
      change (andThen _ (runFrom (replaceTags (resolveTag ((ofStore store traced).setting file)
        store.library.templates.length []) _) _)).1 = _
      rw [hrun, andThen_ok, hsame, hrestored]
      rfl

end Session

end PageLoom.Component
