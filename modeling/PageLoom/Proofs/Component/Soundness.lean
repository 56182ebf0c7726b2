import PageLoom.Proofs.Component.Expansion
import PageLoom.Proofs.Component.KeyInjectivity
import PageLoom.Proofs.Component.Run

/-!
# Soundness of the fragment cache

A cache is sound for a library if no key in it is from a later generation, and every entry of the
present generation is the expansion of its invocation. Whatever the resolver does, also when it
ends with an error half-way, it leaves a sound cache sound; and what it answers is the expansion,
with every missing name of it noted once, in order, however much of it came from the cache.
-/

namespace PageLoom.Component

open Scan Markup

namespace Cache

theorem find?_put (cache : Cache) (key fragment : Text) (missing : List Text) (other : Text) :
    (cache.put key fragment missing).2.find? other =
      if other = key ∧ cache.find? key = none then some (fragment, missing)
      else cache.find? other := by
  unfold put
  cases hfound : cache.find? key with
  | some entry => simp
  | none =>
      by_cases hkey : other = key
      · subst hkey
        simp only [find?] at hfound ⊢
        simp [List.lookup_append, hfound]
      · simp only [find?]
        rw [List.lookup_append, if_neg (fun hboth => hkey hboth.1)]
        simp [List.lookup_cons, beq_eq_false_iff_ne.mpr hkey]

theorem put_fst_of_found {cache : Cache} {key stored fragment : Text} {missing names : List Text}
    (hfound : cache.find? key = some (stored, names)) :
    (cache.put key fragment missing).1 = stored := by
  rw [put, hfound]

theorem put_fst_of_absent {cache : Cache} {key fragment : Text} {missing : List Text}
    (hfound : cache.find? key = none) : (cache.put key fragment missing).1 = fragment := by
  rw [put, hfound]

/-- No key is from a later generation, and every entry of the present one is an expansion. -/
structure Sound (library : Library) (traced : Bool) (cache : Cache) : Prop where
  known : ∀ {key entry}, cache.find? key = some entry →
    ∃ generation name props, generation ≤ library.generation ∧
      key = cacheKey generation name props
  expands : ∀ {name props fragment missing},
    cache.find? (cacheKey library.generation name props) = some (fragment, missing) →
      Expands selfless library.templates traced (.invocation name props) (some fragment) missing

variable {library : Library} {traced : Bool} {cache other : Cache}

theorem Sound.of_find? (hsound : cache.Sound library traced)
    (hfind : ∀ key, other.find? key = cache.find? key) : other.Sound library traced where
  known hfound := hsound.known (by rwa [hfind] at hfound)
  expands hfound := hsound.expands (by rwa [hfind] at hfound)

theorem sound_empty (library : Library) (traced : Bool) : empty.Sound library traced where
  known hfound := by simp [empty, find?] at hfound
  expands hfound := by simp [empty, find?] at hfound

/-- A new generation finds nothing of what the cache holds from before. -/
theorem Sound.reload (hsound : cache.Sound library traced) (templates : List (Text × Text)) :
    cache.Sound ⟨templates, library.generation + 1⟩ traced where
  known hfound := by
    obtain ⟨generation, name, props, hgeneration, hkey⟩ := hsound.known hfound
    exact ⟨generation, name, props, Nat.le_succ_of_le hgeneration, hkey⟩
  expands hfound := by
    obtain ⟨generation, name, props, hgeneration, hkey⟩ := hsound.known hfound
    have hsame := (eq_of_cacheKey_eq hkey).1
    simp only at hsame
    omega

variable {name fragment : Text} {props : Props} {missing : List Text}

theorem Sound.put (hsound : cache.Sound library traced)
    (hexpands : Expands selfless library.templates traced (.invocation name props)
      (some fragment) missing) :
    (cache.put (cacheKey library.generation name props) fragment missing).2.Sound
      library traced where
  known {key entry} hfound := by
    rw [find?_put] at hfound
    split at hfound
    · rename_i hkey
      exact ⟨library.generation, name, props, Nat.le_refl _, hkey.1⟩
    · exact hsound.known hfound
  expands {other otherProps stored names} hfound := by
    rw [find?_put] at hfound
    split at hfound
    · rename_i hkey
      obtain ⟨-, hname, hprops⟩ := eq_of_cacheKey_eq hkey.1
      obtain ⟨hstored, hnames⟩ := Prod.mk.inj (Option.some.inj hfound)
      rw [hname, hprops, ← hstored, ← hnames]
      exact hexpands
    · exact hsound.expands hfound

/-- What is stored under a key before is what would be stored now. -/
theorem Sound.put_fst (hsound : cache.Sound library traced)
    (hexpands : Expands selfless library.templates traced (.invocation name props)
      (some fragment) missing) :
    (cache.put (cacheKey library.generation name props) fragment missing).1 = fragment := by
  cases hfound : cache.find? (cacheKey library.generation name props) with
  | none => exact put_fst_of_absent hfound
  | some entry =>
      rw [put_fst_of_found hfound]
      exact Option.some.inj ((hsound.expands hfound).unique hexpands).1

end Cache

/-! ## What a run leaves behind -/

/-- Between two moments some names were noted as missing, and no others. -/
def Progress.Noted (file : Text) (names : List Text) (before after : Progress) : Prop :=
  after.failures = (before.noting file names).failures ∧
    after.unresolved = (before.noting file names).unresolved

theorem Progress.noted_nil (file : Text) (progress : Progress) : progress.Noted file [] progress :=
  ⟨rfl, (List.append_nil _).symm⟩

theorem Progress.Noted.trans {file : Text} {names others : List Text}
    {before between after : Progress} (hfirst : before.Noted file names between)
    (hthen : between.Noted file others after) : before.Noted file (names ++ others) after := by
  obtain ⟨hfailures, hunresolved⟩ := hfirst
  obtain ⟨hlaterFailures, hlaterUnresolved⟩ := hthen
  constructor
  · rw [hlaterFailures]
    simp [Progress.noting, hfailures]
  · rw [hlaterUnresolved]
    simp [Progress.noting, hunresolved]

/-- A run from a sound cache leaves the cache sound. If it ends with a result, that is the expansion
of a part of a page, and the missing names of the part are noted after those from before. -/
structure Faithful {α : Type} (setting : Setting) (part : Expandable) (shown : α → Option Text)
    (before : Progress) (run : Except RenderError α × Progress) : Prop where
  sound : run.2.cache.Sound setting.library setting.traced
  expands : ∀ {value}, run.1 = .ok value → ∃ missing,
    Expands selfless setting.library.templates setting.traced part (shown value) missing ∧
      before.Noted setting.file missing run.2

section Runs

variable {setting : Setting} {room : Nat} {stack : List Text}

theorem faithful_error {α : Type} {part : Expandable} {shown : α → Option Text}
    {before after : Progress} {error : RenderError}
    (hsound : after.cache.Sound setting.library setting.traced) :
    Faithful setting part shown before (.error error, after) :=
  ⟨hsound, fun hok => by cases hok⟩

/-- Replacing tags is faithful if each of them is replaced so, and only by what is admitted. -/
theorem faithful_replaceTags (within? : Option Text) {replacement : Tag → Expansion (Option Text)}
    (hreplacement : ∀ tag progress, progress.cache.Sound setting.library setting.traced →
      Faithful setting (.invocation tag.name (parseAttributes tag.attributes)) id progress
        (runFrom (replacement tag) progress))
    (hadmits : ∀ tag progress fragment? after,
      runFrom (replacement tag) progress = (.ok fragment?, after) → selfless within? tag.name)
    (found : List (Piece Tag)) (progress : Progress)
    (hsound : progress.cache.Sound setting.library setting.traced) :
    Faithful setting (.pieces within? found) some progress
      (runFrom (replaceTags replacement found) progress) := by
  induction found generalizing progress with
  | nil => exact ⟨hsound, fun hok => by cases hok; exact ⟨[], .nil, progress.noted_nil _⟩⟩
  | cons piece rest ih =>
      cases piece with
      | plain c =>
          have hrest := ih progress hsound
          rw [runFrom_replaceTags_plain]
          generalize runFrom (replaceTags replacement rest) progress = run at hrest ⊢
          obtain ⟨result, after⟩ := run
          cases result with
          | error error => exact faithful_error hrest.sound
          | ok text =>
              obtain ⟨missing, hexpands, hnoted⟩ := hrest.expands rfl
              exact ⟨hrest.sound, fun hok => by cases hok; exact ⟨missing, .plain hexpands, hnoted⟩⟩
      | found source tag =>
          cases hvoid : isVoidElement tag.name with
          | true =>
              have hrest := ih progress hsound
              rw [runFrom_replaceTags_void hvoid]
              generalize runFrom (replaceTags replacement rest) progress = run at hrest ⊢
              obtain ⟨result, after⟩ := run
              cases result with
              | error error => exact faithful_error hrest.sound
              | ok text =>
                  obtain ⟨missing, hexpands, hnoted⟩ := hrest.expands rfl
                  exact ⟨hrest.sound,
                    fun hok => by cases hok; exact ⟨missing, .void hvoid hexpands, hnoted⟩⟩
          | false =>
              have htag := hreplacement tag progress hsound
              have hadmitted := hadmits tag progress
              rw [runFrom_replaceTags_tag hvoid]
              generalize runFrom (replacement tag) progress = run at htag hadmitted ⊢
              obtain ⟨result, between⟩ := run
              cases result with
              | error error => exact faithful_error htag.sound
              | ok fragment? =>
                  have hrest := ih between htag.sound
                  rw [andThen_ok]
                  generalize runFrom (replaceTags replacement rest) between = run at hrest ⊢
                  obtain ⟨result, after⟩ := run
                  cases result with
                  | error error => exact faithful_error hrest.sound
                  | ok text =>
                      obtain ⟨missing, hfragment, hnoted⟩ := htag.expands rfl
                      obtain ⟨others, htext, hlaterNoted⟩ := hrest.expands rfl
                      refine ⟨hrest.sound, fun hok => ?_⟩
                      cases hok
                      exact ⟨missing ++ others, .tag hvoid (hadmitted _ _ rfl) hfragment htext,
                        hnoted.trans hlaterNoted⟩

/-- A component that is in progress is never resolved again. -/
theorem not_mem_of_runFrom_resolveWithin {name : Text} {props : Props} {progress after : Progress}
    {fragment? : Option Text}
    (hrun : runFrom (resolveWithin setting room stack name props) progress =
      (.ok fragment?, after)) : name ∉ stack := by
  intro hstack
  rw [runFrom_resolveWithin_guarded hstack] at hrun
  cases hrun

/-- The last step of an expansion is faithful if replacing the tags before it was. -/
theorem faithful_finish {name template text : Text} {props : Props} {before progress : Progress}
    {replaced : Text} {missing : List Text}
    (hsound : progress.cache.Sound setting.library setting.traced)
    (htemplate : setting.library.template? name = some template)
    (htext : instantiate template props = .ok text)
    (hpieces : Expands selfless setting.library.templates setting.traced
      (.pieces (some name) (pieces (tagPattern .template) (protectComments text).1))
      (some replaced) missing)
    (hnoted : Progress.Noted setting.file missing { before with unresolved := [] } progress) :
    Faithful setting (.invocation name props) id before
      (finish setting name props (protectComments text).2 before.unresolved replaced progress) := by
  obtain ⟨hfailures, hunresolved⟩ := hnoted
  unfold finish
  cases hrestored : restoreComments (protectComments text).2 replaced with
  | error fault => exact faithful_error hsound
  | ok restored =>
      have hexpands := Expands.present htemplate htext (.body hpieces hrestored)
      have hmissing : progress.unresolved = missing := hunresolved
      rw [hmissing]
      refine ⟨hsound.put hexpands, fun hok => ?_⟩
      cases hok
      refine ⟨missing, ?_, hfailures, rfl⟩
      exact (congrArg some (hsound.put_fst hexpands)) ▸ hexpands

/-- Every way a resolution can go is faithful. The induction is on the room that is left, as the
tags in a component are resolved with less. -/
theorem faithful_resolveWithin (setting : Setting) (room : Nat) (stack : List Text) (name : Text)
    (props : Props) (progress : Progress)
    (hsound : progress.cache.Sound setting.library setting.traced) :
    Faithful setting (.invocation name props) id progress
      (runFrom (resolveWithin setting room stack name props) progress) := by
  induction room using Nat.strongRecOn generalizing stack name props progress with
  | _ room ih =>
      apply resolveWithin_cases
      · exact fun _ => faithful_error hsound
      · intro fragment missing _ hfound
        refine ⟨hsound.of_find? fun _ => rfl, fun hok => ?_⟩
        cases hok
        exact ⟨missing, hsound.expands hfound, rfl, rfl⟩
      · intro _ htemplate
        refine ⟨hsound.of_find? fun _ => rfl, fun hok => ?_⟩
        cases hok
        exact ⟨[name], .absent htemplate, rfl, rfl⟩
      · exact fun error _ => faithful_error (hsound.of_find? fun _ => rfl)
      · intro template text lower hlower _ _ htemplate htext
        have hreplaced := faithful_replaceTags (some name)
          (fun tag progress hsound =>
            ih lower (by omega) (stack ++ [name]) tag.name _ progress hsound)
          (fun tag progress fragment? after hrun hsame =>
            not_mem_of_runFrom_resolveWithin hrun (by simp [Option.some.inj hsame]))
          (pieces (tagPattern .template) (protectComments text).1)
          progress.entered (hsound.of_find? fun _ => rfl)
        revert hreplaced
        generalize runFrom (replaceTags _ _) _ = run
        intro hreplaced
        obtain ⟨result, after⟩ := run
        cases result with
        | error error => exact faithful_error hreplaced.sound
        | ok replaced =>
            obtain ⟨missing, hpieces, hnoted⟩ := hreplaced.expands rfl
            exact faithful_finish hreplaced.sound htemplate htext hpieces hnoted

end Runs

/-! ## Documents -/

/-- Rendering a document leaves the cache sound and answers with the expansion of the document. -/
theorem faithful_render (setting : Setting) (globals : Props) (document : Text)
    (progress : Progress) (hsound : progress.cache.Sound setting.library setting.traced) :
    (runFrom (render setting globals document) progress).2.cache.Sound
        setting.library setting.traced ∧
      ∀ written, (runFrom (render setting globals document) progress).1 = .ok written →
        ∃ missing, ExpandsDocument selfless setting.library.templates setting.traced globals
            document written missing ∧
          progress.Noted setting.file missing
            (runFrom (render setting globals document) progress).2 := by
  cases htext : instantiate document globals with
  | error fault =>
      rw [runFrom_render_faulty htext]
      exact ⟨hsound, fun written hok => by cases hok⟩
  | ok text =>
      rw [runFrom_render_instantiated htext]
      have hreplaced := faithful_replaceTags none
        (fun tag progress hsound =>
          faithful_resolveWithin setting setting.library.templates.length [] tag.name _ progress
            hsound)
        (fun tag progress fragment? after hrun hsame => by cases hsame)
        (pieces (tagPattern .document) (protectComments text).1) progress hsound
      revert hreplaced
      generalize runFrom (replaceTags _ _) _ = run
      intro hreplaced
      obtain ⟨result, after⟩ := run
      cases result with
      | error error => exact ⟨hreplaced.sound, fun written hok => by cases hok⟩
      | ok replaced =>
          refine ⟨hreplaced.sound, fun written hok => ?_⟩
          obtain ⟨missing, hpieces, hnoted⟩ := hreplaced.expands rfl
          cases hrestored : restoreComments (protectComments text).2 replaced with
          | error fault => simp [hrestored, Except.mapError] at hok
          | ok restored =>
              simp only [andThen_ok, hrestored, Except.mapError, Except.ok.injEq] at hok
              subst hok
              exact ⟨missing, ⟨text, htext, .body hpieces hrestored⟩, hnoted⟩

end PageLoom.Component
