import PageLoom.Component.Resolve
import PageLoom.Proofs.Action
import PageLoom.Proofs.Table

/-!
# Runs of the resolver

What the resolver does with an invocation, given the progress it starts from: one rule for each way
it can go, and one for each kind of piece of a text in which tags are replaced. All that is proved
about runs is proved from these rules.
-/

namespace PageLoom.Component

open Scan Markup

variable {α : Type}

theorem runFrom_lookUp (key : Text) (progress : Progress) :
    runFrom (lookUp key) progress =
      (.ok (progress.cache.get key).1,
        { progress with cache := (progress.cache.get key).2 }) := rfl

theorem runFrom_collectMissing (expansion : Expansion α) (progress : Progress) :
    runFrom (collectMissing expansion) progress =
      andThen (fun value after => (.ok (value, after.unresolved),
        { after with unresolved := progress.unresolved ++ after.unresolved }))
        (runFrom expansion { progress with unresolved := [] }) := by
  rw [collectMissing, runFrom_bind, runFrom_modifyGet, andThen_ok, runFrom_bind]
  rfl

theorem Library.mem_of_template? {library : Library} {name template : Text}
    (htemplate : library.template? name = some template) :
    (name, template) ∈ library.templates := Table.mem_of_lookup htemplate

namespace Progress

/-- Progress after a look-up that found a fragment. -/
def hit (progress : Progress) : Progress :=
  { progress with cache := { progress.cache with hits := progress.cache.hits + 1 } }

/-- Progress after a look-up that found nothing. -/
def missed (progress : Progress) : Progress :=
  { progress with cache := { progress.cache with misses := progress.cache.misses + 1 } }

/-- Progress at the beginning of the text of a component that was not found. -/
def entered (progress : Progress) : Progress := { progress.missed with unresolved := [] }

/-- Progress after some names were found missing. -/
def noting (file : Text) (names : List Text) (progress : Progress) : Progress :=
  { progress with
    failures := names.foldl (fun failures name => failures.record name file) progress.failures
    unresolved := progress.unresolved ++ names }

end Progress

/-! ## Replacing tags -/

section Tags

variable {replacement : Tag → Expansion (Option Text)} {progress : Progress}

theorem runFrom_expandTags (place : Place) (text : Text) :
    runFrom (expandTags place replacement text) progress =
      andThen
        (fun replaced after => (.ok (restoreComments (protectComments text).2 replaced), after))
        (runFrom (replaceTags replacement (pieces (tagPattern place) (protectComments text).1))
          progress) := by
  simp only [expandTags, runFrom_bind]
  rfl

theorem runFrom_replaceTags_plain (c : Char) (rest : List (Piece Tag)) :
    runFrom (replaceTags replacement (.plain c :: rest)) progress =
      andThen (fun text after => (.ok (c :: text), after))
        (runFrom (replaceTags replacement rest) progress) := by
  simp only [replaceTags, runFrom_bind]
  rfl

theorem runFrom_replaceTags_void {source : Text} {tag : Tag} {rest : List (Piece Tag)}
    (hvoid : isVoidElement tag.name = true) :
    runFrom (replaceTags replacement (.found source tag :: rest)) progress =
      andThen (fun text after => (.ok (source ++ text), after))
        (runFrom (replaceTags replacement rest) progress) := by
  rw [replaceTags, if_pos hvoid, runFrom_bind]
  rfl

theorem runFrom_replaceTags_tag {source : Text} {tag : Tag} {rest : List (Piece Tag)}
    (hvoid : isVoidElement tag.name = false) :
    runFrom (replaceTags replacement (.found source tag :: rest)) progress =
      andThen (fun new? between =>
        andThen (fun text after => (.ok (new?.getD source ++ text), after))
          (runFrom (replaceTags replacement rest) between))
        (runFrom (replacement tag) progress) := by
  rw [replaceTags, if_neg (by simp [hvoid]), runFrom_bind]
  congr 1
  funext new? between
  rw [runFrom_bind]
  rfl

/-- The tags among some pieces that are replaced. -/
def invoked (found : List (Piece Tag)) : List Tag :=
  (values found).filter fun tag => !isVoidElement tag.name

theorem invoked_void {source : Text} {tag : Tag} {rest : List (Piece Tag)}
    (hvoid : isVoidElement tag.name = true) :
    invoked (.found source tag :: rest) = invoked rest := by
  simp [invoked, values, hvoid]

theorem invoked_tag {source : Text} {tag : Tag} {rest : List (Piece Tag)}
    (hvoid : isVoidElement tag.name = false) :
    invoked (.found source tag :: rest) = tag :: invoked rest := by
  simp [invoked, values, hvoid]

/-- Pieces without a tag to replace are put together again. -/
theorem runFrom_replaceTags_of_invoked_nil {found : List (Piece Tag)} (hnone : invoked found = []) :
    runFrom (replaceTags replacement found) progress = (.ok (sourceOf found), progress) := by
  induction found with
  | nil => rfl
  | cons piece rest ih =>
      cases piece with
      | plain c =>
          rw [runFrom_replaceTags_plain, ih hnone, andThen_ok]
          rfl
      | found source tag =>
          cases hvoid : isVoidElement tag.name with
          | true =>
              rw [invoked_void hvoid] at hnone
              rw [runFrom_replaceTags_void hvoid, ih hnone, andThen_ok]
              rfl
          | false =>
              rw [invoked_tag hvoid] at hnone
              cases hnone

/-- What every replacement of a tag preserves is preserved by replacing all of them. -/
theorem replaceTags_invariant {I : Progress → Prop} {found : List (Piece Tag)}
    (hstep : ∀ tag ∈ invoked found, ∀ progress, I progress →
      I (runFrom (replacement tag) progress).2)
    (hbefore : I progress) : I (runFrom (replaceTags replacement found) progress).2 := by
  induction found generalizing progress with
  | nil => exact hbefore
  | cons piece rest ih =>
      cases piece with
      | plain c =>
          have hrest := ih hstep hbefore
          rw [runFrom_replaceTags_plain]
          exact andThen_invariant hrest fun text after hrun => by rwa [hrun] at hrest
      | found source tag =>
          cases hvoid : isVoidElement tag.name with
          | true =>
              rw [invoked_void hvoid] at hstep
              have hrest := ih hstep hbefore
              rw [runFrom_replaceTags_void hvoid]
              exact andThen_invariant hrest fun text after hrun => by rwa [hrun] at hrest
          | false =>
              rw [invoked_tag hvoid] at hstep
              have htag := hstep tag (List.mem_cons_self ..) progress hbefore
              rw [runFrom_replaceTags_tag hvoid]
              refine andThen_invariant htag fun new? between hrun => ?_
              rw [hrun] at htag
              have hrest := ih (fun tag hmem => hstep tag (List.mem_cons_of_mem _ hmem)) htag
              exact andThen_invariant hrest fun text after hrun => by rwa [hrun] at hrest

/-- What each replacement establishes for its tag, and none destroys, holds for all tags in the end
if the replacing ends with a result. -/
theorem replaceTags_establishes {I : Progress → Prop} {Q : Tag → Progress → Prop}
    {found : List (Piece Tag)} {text : Text} {after : Progress}
    (hstep : ∀ tag progress, I progress → I (runFrom (replacement tag) progress).2)
    (hreach : ∀ tag progress new? after, I progress →
      runFrom (replacement tag) progress = (.ok new?, after) → Q tag after)
    (hkeep : ∀ tag other progress, I progress → Q tag progress →
      Q tag (runFrom (replacement other) progress).2)
    (hbefore : I progress)
    (hrun : runFrom (replaceTags replacement found) progress = (.ok text, after)) :
    ∀ tag ∈ invoked found, Q tag after := by
  induction found generalizing progress text after with
  | nil => exact fun tag hmem => by cases hmem
  | cons piece rest ih =>
      cases piece with
      | plain c =>
          rw [runFrom_replaceTags_plain, andThen_eq_ok] at hrun
          obtain ⟨text, between, hrest, hsame⟩ := hrun
          cases hsame
          exact ih hbefore hrest
      | found source tag =>
          cases hvoid : isVoidElement tag.name with
          | true =>
              rw [runFrom_replaceTags_void hvoid, andThen_eq_ok] at hrun
              obtain ⟨text, between, hrest, hsame⟩ := hrun
              cases hsame
              rw [invoked_void hvoid]
              exact ih hbefore hrest
          | false =>
              rw [runFrom_replaceTags_tag hvoid, andThen_eq_ok] at hrun
              obtain ⟨new?, between, htag, hrun⟩ := hrun
              rw [andThen_eq_ok] at hrun
              obtain ⟨text, later, hrest, hsame⟩ := hrun
              cases hsame
              have hbetween := hstep tag progress hbefore
              rw [htag] at hbetween
              rw [invoked_tag hvoid]
              intro other hmem
              rcases List.mem_cons.mp hmem with rfl | hmem
              · -- Established here, and kept by the replacements of all later tags.
                have hkept : I (runFrom (replaceTags replacement rest) between).2 ∧
                    Q other (runFrom (replaceTags replacement rest) between).2 :=
                  replaceTags_invariant (I := fun progress => I progress ∧ Q other progress)
                    (fun tag _ progress hboth =>
                      ⟨hstep tag progress hboth.1, hkeep other tag progress hboth.1 hboth.2⟩)
                    ⟨hbetween, hreach other progress new? between hbefore htag⟩
                rw [hrest] at hkept
                exact hkept.2
              · exact ih hbetween hrest other hmem

/-- Replacing tags ends with a result if each replacement does. -/
theorem replaceTags_ok {I : Progress → Prop} {found : List (Piece Tag)}
    (hstep : ∀ tag ∈ invoked found, ∀ progress, I progress →
      ∃ new? after, runFrom (replacement tag) progress = (.ok new?, after) ∧ I after)
    (hbefore : I progress) :
    ∃ text after, runFrom (replaceTags replacement found) progress = (.ok text, after) := by
  induction found generalizing progress with
  | nil => exact ⟨[], progress, rfl⟩
  | cons piece rest ih =>
      cases piece with
      | plain c =>
          obtain ⟨text, after, hrest⟩ := ih hstep hbefore
          exact ⟨c :: text, after, by rw [runFrom_replaceTags_plain, hrest]; rfl⟩
      | found source tag =>
          cases hvoid : isVoidElement tag.name with
          | true =>
              rw [invoked_void hvoid] at hstep
              obtain ⟨text, after, hrest⟩ := ih hstep hbefore
              exact ⟨source ++ text, after, by rw [runFrom_replaceTags_void hvoid, hrest]; rfl⟩
          | false =>
              rw [invoked_tag hvoid] at hstep
              obtain ⟨new?, between, htag, hbetween⟩ :=
                hstep tag (List.mem_cons_self ..) progress hbefore
              obtain ⟨text, after, hrest⟩ :=
                ih (fun tag hmem => hstep tag (List.mem_cons_of_mem _ hmem)) hbetween
              refine ⟨new?.getD source ++ text, after, ?_⟩
              rw [runFrom_replaceTags_tag hvoid, htag, andThen_ok, hrest, andThen_ok]

/-- If each replacement that ends with a result ends with the same one from a related progress, then
so does replacing all tags, and the progress after it is related again. -/
theorem replaceTags_simulation {R : Progress → Progress → Prop} {found : List (Piece Tag)}
    {other after : Progress} {text : Text}
    (hstep : ∀ tag progress other new? after, R progress other →
      runFrom (replacement tag) progress = (.ok new?, after) →
      ∃ otherAfter, runFrom (replacement tag) other = (.ok new?, otherAfter) ∧ R after otherAfter)
    (hrelated : R progress other)
    (hrun : runFrom (replaceTags replacement found) progress = (.ok text, after)) :
    ∃ otherAfter, runFrom (replaceTags replacement found) other = (.ok text, otherAfter) ∧
      R after otherAfter := by
  induction found generalizing progress other text after with
  | nil =>
      cases hrun
      exact ⟨other, rfl, hrelated⟩
  | cons piece rest ih =>
      cases piece with
      | plain c =>
          rw [runFrom_replaceTags_plain, andThen_eq_ok] at hrun
          obtain ⟨text, between, hrest, hsame⟩ := hrun
          cases hsame
          obtain ⟨otherAfter, hother, hafter⟩ := ih hrelated hrest
          refine ⟨otherAfter, ?_, hafter⟩
          rw [runFrom_replaceTags_plain, hother, andThen_ok]
      | found source tag =>
          cases hvoid : isVoidElement tag.name with
          | true =>
              rw [runFrom_replaceTags_void hvoid, andThen_eq_ok] at hrun
              obtain ⟨text, between, hrest, hsame⟩ := hrun
              cases hsame
              obtain ⟨otherAfter, hother, hafter⟩ := ih hrelated hrest
              refine ⟨otherAfter, ?_, hafter⟩
              rw [runFrom_replaceTags_void hvoid, hother, andThen_ok]
          | false =>
              rw [runFrom_replaceTags_tag hvoid, andThen_eq_ok] at hrun
              obtain ⟨new?, between, htag, hrun⟩ := hrun
              rw [andThen_eq_ok] at hrun
              obtain ⟨text, later, hrest, hsame⟩ := hrun
              cases hsame
              obtain ⟨otherBetween, hotherTag, hbetween⟩ :=
                hstep tag progress other new? between hrelated htag
              obtain ⟨otherAfter, hother, hafter⟩ := ih hbetween hrest
              refine ⟨otherAfter, ?_, hafter⟩
              rw [runFrom_replaceTags_tag hvoid, hotherTag, andThen_ok, hother, andThen_ok]

end Tags

/-! ## Resolving an invocation -/

section Invocation

variable {setting : Setting} {room : Nat} {stack : List Text} {name : Text} {props : Props}
variable {progress : Progress}

/-- Resolves a tag in the text of the innermost of some components. -/
abbrev resolveTag (setting : Setting) (room : Nat) (stack : List Text) (tag : Tag) :
    Expansion (Option Text) :=
  resolveWithin setting room stack tag.name (parseAttributes tag.attributes)

/-- Ends the expansion of a component: `outer` was missing before it, and the tags of its text are
replaced already. -/
def finish (setting : Setting) (name : Text) (props : Props) (comments outer : List Text)
    (replaced : Text) (progress : Progress) : Except RenderError (Option Text) × Progress :=
  let after := { progress with unresolved := outer ++ progress.unresolved }
  match restoreComments comments replaced with
  | .error fault => (.error (.fault fault), after)
  | .ok restored =>
    let stored := progress.cache.put (cacheKey setting.library.generation name props)
      (if setting.traced then Template.wrapFragment name restored else restored)
      progress.unresolved
    (.ok (some stored.1), { after with cache := stored.2 })

theorem runFrom_resolveWithin_guarded (hstack : name ∈ stack) :
    runFrom (resolveWithin setting room stack name props) progress =
      (.error (.cyclic (cycleThrough stack name)), progress) := by
  unfold resolveWithin
  rw [if_pos (by simpa using hstack), runFrom_throw]

variable (hstack : name ∉ stack)

include hstack in
theorem runFrom_resolveWithin_hit {fragment : Text} {missing : List Text}
    (hfound : progress.cache.find? (cacheKey setting.library.generation name props) =
      some (fragment, missing)) :
    runFrom (resolveWithin setting room stack name props) progress =
      (.ok (some fragment), progress.hit.noting setting.file missing) := by
  unfold resolveWithin
  rw [if_neg (by simpa using hstack)]
  simp only [runFrom_bind, runFrom_lookUp, andThen_ok, Cache.get, hfound, runFrom_get]
  simp only [Cache.missing, Cache.find?] at hfound ⊢
  simp only [hfound]
  rfl

variable (hfound : progress.cache.find? (cacheKey setting.library.generation name props) = none)

include hstack hfound in
theorem runFrom_resolveWithin_absent (htemplate : setting.library.template? name = none) :
    runFrom (resolveWithin setting room stack name props) progress =
      (.ok none, progress.missed.noting setting.file [name]) := by
  unfold resolveWithin
  rw [if_neg (by simpa using hstack)]
  simp only [runFrom_bind, runFrom_lookUp, andThen_ok, Cache.get, hfound, htemplate]
  rfl

variable {template : Text} (htemplate : setting.library.template? name = some template)

include hstack hfound htemplate in
theorem runFrom_resolveWithin_full :
    runFrom (resolveWithin setting 0 stack name props) progress =
      (.error (.cyclic (stack ++ [name])), progress.missed) := by
  unfold resolveWithin
  rw [if_neg (by simpa using hstack)]
  simp only [runFrom_bind, runFrom_lookUp, andThen_ok, Cache.get, hfound, htemplate]
  rfl

include hstack hfound htemplate in
theorem runFrom_resolveWithin_faulty {fault : NumberFault}
    (htext : instantiate template props = .error fault) :
    runFrom (resolveWithin setting (room + 1) stack name props) progress =
      (.error (.fault fault), progress.missed) := by
  unfold resolveWithin
  rw [if_neg (by simpa using hstack)]
  simp only [runFrom_bind, runFrom_lookUp, runFrom_lift, andThen_ok, Cache.get, hfound,
    htemplate, htext, Except.mapError]
  rfl

include hstack hfound htemplate in
theorem runFrom_resolveWithin_present {text : Text}
    (htext : instantiate template props = .ok text) :
    runFrom (resolveWithin setting (room + 1) stack name props) progress =
      andThen (finish setting name props (protectComments text).2 progress.unresolved)
        (runFrom (replaceTags (resolveTag setting room (stack ++ [name]))
          (pieces (tagPattern .template) (protectComments text).1)) progress.entered) := by
  rw [resolveWithin, if_neg (by simpa using hstack)]
  simp only [runFrom_bind, runFrom_lookUp, runFrom_lift, andThen_ok, Cache.get, hfound,
    htemplate, htext, Except.mapError]
  change andThen _ (runFrom (collectMissing _) progress.missed) = _
  rw [runFrom_collectMissing, runFrom_expandTags, Progress.entered]
  generalize runFrom (replaceTags _ _) _ = run
  obtain ⟨result, after⟩ := run
  cases result with
  | error error => rfl
  | ok replaced =>
      simp only [andThen_ok, finish]
      cases restoreComments (protectComments text).2 replaced <;> rfl

/-- All that can become of an invocation. -/
theorem resolveWithin_cases {motive : Except RenderError (Option Text) × Progress → Prop}
    (hguarded : name ∈ stack → motive (.error (.cyclic (cycleThrough stack name)), progress))
    (hhit : ∀ fragment missing, name ∉ stack →
      progress.cache.find? (cacheKey setting.library.generation name props) =
        some (fragment, missing) →
      motive (.ok (some fragment), progress.hit.noting setting.file missing))
    (habsent : name ∉ stack → setting.library.template? name = none →
      motive (.ok none, progress.missed.noting setting.file [name]))
    (hfailed : ∀ error, (∀ fault, error = .fault fault → name ∉ stack ∧ ∃ template,
        setting.library.template? name = some template ∧
          instantiate template props = .error fault) →
      motive (.error error, progress.missed))
    (hpresent : ∀ template text lower, room = lower + 1 → name ∉ stack →
      progress.cache.find? (cacheKey setting.library.generation name props) = none →
      setting.library.template? name = some template → instantiate template props = .ok text →
      motive (andThen (finish setting name props (protectComments text).2 progress.unresolved)
        (runFrom (replaceTags (resolveTag setting lower (stack ++ [name]))
          (pieces (tagPattern .template) (protectComments text).1)) progress.entered))) :
    motive (runFrom (resolveWithin setting room stack name props) progress) := by
  by_cases hstack : name ∈ stack
  · rw [runFrom_resolveWithin_guarded hstack]
    exact hguarded hstack
  · cases hfound : progress.cache.find? (cacheKey setting.library.generation name props) with
    | some entry =>
        rw [runFrom_resolveWithin_hit hstack hfound]
        exact hhit entry.1 entry.2 hstack hfound
    | none =>
        cases htemplate : setting.library.template? name with
        | none =>
            rw [runFrom_resolveWithin_absent hstack hfound htemplate]
            exact habsent hstack htemplate
        | some template =>
            cases room with
            | zero =>
                rw [runFrom_resolveWithin_full hstack hfound htemplate]
                exact hfailed _ fun fault hfault => by cases hfault
            | succ lower =>
                cases htext : instantiate template props with
                | error fault =>
                    rw [runFrom_resolveWithin_faulty hstack hfound htemplate htext]
                    refine hfailed _ fun other hfault => ?_
                    cases hfault
                    exact ⟨hstack, template, htemplate, htext⟩
                | ok text =>
                    rw [runFrom_resolveWithin_present hstack hfound htemplate htext]
                    exact hpresent template text lower rfl hstack hfound htemplate htext

end Invocation

/-! ## Rendering a document -/

section Document

variable {setting : Setting} {globals : Props} {document : Text} {progress : Progress}

theorem runFrom_render_faulty {fault : NumberFault}
    (htext : instantiate document globals = .error fault) :
    runFrom (render setting globals document) progress = (.error (.fault fault), progress) := by
  rw [render, runFrom_bind, runFrom_lift, htext]
  rfl

theorem runFrom_render_instantiated {text : Text}
    (htext : instantiate document globals = .ok text) :
    runFrom (render setting globals document) progress =
      andThen (fun replaced after =>
        ((restoreComments (protectComments text).2 replaced).mapError .fault, after))
        (runFrom (replaceTags (resolveTag setting setting.library.templates.length [])
          (pieces (tagPattern .document) (protectComments text).1)) progress) := by
  rw [render, runFrom_bind, runFrom_lift, htext]
  simp only [Except.mapError, andThen_ok, runFrom_bind]
  change andThen _ (runFrom (expandTags .document
    (resolveTag setting setting.library.templates.length []) text) progress) = _
  rw [runFrom_expandTags]
  generalize runFrom (replaceTags _ _) _ = run
  obtain ⟨result, after⟩ := run
  cases result with
  | error error => rfl
  | ok replaced => exact runFrom_lift _ _

end Document

end PageLoom.Component
