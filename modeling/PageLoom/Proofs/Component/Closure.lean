import PageLoom.Proofs.Component.Soundness

/-!
# Closure of the fragment cache

With a fragment the cache holds everything that the fragment is made of: an invocation is settled
if it has no template or its fragment is held, and the tags in the text of every held component are
settled. So a run that finds a fragment where another run had to expand it ends with a cache that
holds all that the other one made on the way. It follows that a run which ends with a result does so
from every larger cache as well.
-/

namespace PageLoom.Component

open Scan Markup

namespace Cache

def Within (cache other : Cache) : Prop :=
  ∀ key, cache.holds key = true → other.holds key = true

/-- Nothing has to be expanded for an invocation. -/
def Settles (library : Library) (cache : Cache) (name : Text) (props : Props) : Prop :=
  library.template? name = none ∨ cache.holds (cacheKey library.generation name props) = true

abbrev SettlesTag (library : Library) (cache : Cache) (tag : Tag) : Prop :=
  cache.Settles library tag.name (parseAttributes tag.attributes)

/-- Nothing has to be expanded for the tags in the text of any held component. -/
def Closed (library : Library) (cache : Cache) : Prop :=
  ∀ name props template text, cache.holds (cacheKey library.generation name props) = true →
    library.template? name = some template → instantiate template props = .ok text →
    ∀ tag ∈ findTags .template text, cache.SettlesTag library tag

variable {library : Library} {cache other third : Cache} {name : Text} {props : Props}

theorem Within.refl (cache : Cache) : cache.Within cache := fun _ hheld => hheld

theorem Within.trans (hfirst : cache.Within other) (hthen : other.Within third) :
    cache.Within third := fun key hheld => hthen key (hfirst key hheld)

theorem holds_of_find? {key : Text} {entry : Text × List Text}
    (hfound : cache.find? key = some entry) : cache.holds key = true := by
  rw [holds, hfound, Option.isSome_some]

theorem find?_of_not_holds {key : Text} (hheld : ¬cache.holds key = true) :
    cache.find? key = none := by
  rwa [holds, Option.not_isSome_iff_eq_none] at hheld

theorem holds_put (cache : Cache) (key fragment : Text) (missing : List Text) (other : Text) :
    (cache.put key fragment missing).2.holds other = true ↔
      other = key ∨ cache.holds other = true := by
  rw [holds, find?_put]
  by_cases hkey : other = key
  · subst hkey
    cases hfound : cache.find? other with
    | none => simp
    | some entry => simp
  · simp [hkey, holds]

theorem within_put (cache : Cache) (key fragment : Text) (missing : List Text) :
    cache.Within (cache.put key fragment missing).2 :=
  fun _ hheld => (holds_put ..).mpr (.inr hheld)

theorem Settles.of_within (hsettles : cache.Settles library name props)
    (hwithin : cache.Within other) : other.Settles library name props :=
  hsettles.imp_right (hwithin _)

theorem closed_empty (library : Library) : empty.Closed library := by
  intro name props template text hheld
  cases hheld

/-- A fragment may be stored once the tags in its component are settled. -/
theorem Closed.put {template text fragment : Text} {missing : List Text}
    (hclosed : cache.Closed library) (htemplate : library.template? name = some template)
    (htext : instantiate template props = .ok text)
    (htags : ∀ tag ∈ findTags .template text, cache.SettlesTag library tag) :
    (cache.put (cacheKey library.generation name props) fragment missing).2.Closed library := by
  intro other otherProps otherTemplate otherText hheld hotherTemplate hotherText tag hmem
  refine Settles.of_within ?_ (within_put cache _ _ _)
  rcases (holds_put ..).mp hheld with hkey | hheld
  · obtain ⟨-, hname, hprops⟩ := eq_of_cacheKey_eq hkey
    subst hname hprops
    rw [htemplate, Option.some.injEq] at hotherTemplate
    subst hotherTemplate
    rw [htext, Except.ok.injEq] at hotherText
    subst hotherText
    exact htags tag hmem
  · exact hclosed _ _ _ _ hheld hotherTemplate hotherText tag hmem

end Cache

/-! ## Growth -/

section Growth

/-- The cache has only grown, and is closed. -/
def Grown (library : Library) (before after : Progress) : Prop :=
  before.cache.Within after.cache ∧ after.cache.Closed library

theorem Grown.trans {library : Library} {before between after : Progress}
    (hfirst : Grown library before between) (hthen : Grown library between after) :
    Grown library before after :=
  ⟨Cache.Within.trans hfirst.1 hthen.1, hthen.2⟩

/-- A run keeps a closed cache closed, and settles an invocation if it ends with a result. -/
structure Settling (library : Library) (name : Text) (props : Props) (before : Progress)
    (run : Except RenderError (Option Text) × Progress) : Prop where
  grown : Grown library before run.2
  settles : ∀ {fragment?}, run.1 = .ok fragment? → run.2.cache.Settles library name props

variable {setting : Setting}

theorem settling_finish {name template text replaced : Text} {props : Props} {outer : List Text}
    {before progress : Progress} (hgrown : Grown setting.library before progress)
    (htemplate : setting.library.template? name = some template)
    (htext : instantiate template props = .ok text)
    (htags : ∀ tag ∈ findTags .template text, progress.cache.SettlesTag setting.library tag) :
    Settling setting.library name props before
      (finish setting name props (protectComments text).2 outer replaced progress) := by
  unfold finish
  cases restoreComments (protectComments text).2 replaced with
  | error fault => exact ⟨hgrown, fun hok => by cases hok⟩
  | ok restored =>
      exact ⟨⟨hgrown.1.trans (Cache.within_put progress.cache _ _ _),
          hgrown.2.put htemplate htext htags⟩,
        fun _ => .inr ((Cache.holds_put ..).mpr (.inl rfl))⟩

theorem settling_resolveWithin (setting : Setting) (room : Nat) (stack : List Text) (name : Text)
    (props : Props) (progress : Progress) (hclosed : progress.cache.Closed setting.library) :
    Settling setting.library name props progress
      (runFrom (resolveWithin setting room stack name props) progress) := by
  induction room using Nat.strongRecOn generalizing stack name props progress with
  | _ room ih =>
      apply resolveWithin_cases
      · exact fun _ => ⟨⟨.refl _, hclosed⟩, fun hok => by cases hok⟩
      · intro fragment missing _ hfound
        exact ⟨⟨.refl _, hclosed⟩, fun _ => .inr (Cache.holds_of_find? hfound)⟩
      · intro _ htemplate
        exact ⟨⟨.refl _, hclosed⟩, fun _ => .inl htemplate⟩
      · exact fun error _ => ⟨⟨.refl _, hclosed⟩, fun hok => by cases hok⟩
      · intro template text lower hlower _ _ htemplate htext
        have htag : ∀ tag (between : Progress), Grown setting.library progress between →
            Settling setting.library tag.name (parseAttributes tag.attributes) between
              (runFrom (resolveTag setting lower (stack ++ [name]) tag) between) :=
          fun tag between hbetween => ih lower (by omega) _ _ _ between hbetween.2
        have hstep : ∀ tag (between : Progress), Grown setting.library progress between →
            Grown setting.library progress
              (runFrom (resolveTag setting lower (stack ++ [name]) tag) between).2 :=
          fun tag between hbetween => hbetween.trans (htag tag between hbetween).grown
        have hentered : Grown setting.library progress progress.entered := ⟨.refl _, hclosed⟩
        cases hrun : runFrom (replaceTags (resolveTag setting lower (stack ++ [name]))
            (pieces (tagPattern .template) (protectComments text).1)) progress.entered with
        | mk result after =>
            have hafter : Grown setting.library progress (runFrom (replaceTags
                (resolveTag setting lower (stack ++ [name]))
                (pieces (tagPattern .template) (protectComments text).1)) progress.entered).2 :=
              replaceTags_invariant (fun tag _ between => hstep tag between) hentered
            rw [hrun] at hafter
            cases result with
            | error error => exact ⟨hafter, fun hok => by cases hok⟩
            | ok replaced =>
                refine settling_finish hafter htemplate htext ?_
                refine replaceTags_establishes
                  (Q := fun tag between => between.cache.SettlesTag setting.library tag)
                  hstep ?_ ?_ hentered hrun
                · intro tag between new? later hbetween hlater
                  have hsettling := htag tag between hbetween
                  rw [hlater] at hsettling
                  exact hsettling.settles rfl
                · intro tag other between hbetween hsettles
                  exact hsettles.of_within (htag other between hbetween).grown.1

/-- Below a closed cache nothing new is added for an invocation that it settles. -/
theorem within_resolveWithin (setting : Setting) (cache : Cache)
    (hclosed : cache.Closed setting.library) (room : Nat) (stack : List Text) (name : Text)
    (props : Props) (progress : Progress)
    (hsettles : cache.Settles setting.library name props)
    (hwithin : progress.cache.Within cache) :
    (runFrom (resolveWithin setting room stack name props) progress).2.cache.Within cache := by
  induction room using Nat.strongRecOn generalizing stack name props progress with
  | _ room ih =>
      apply resolveWithin_cases (motive := fun run => run.2.cache.Within cache)
      · exact fun _ => hwithin
      · exact fun _ _ _ _ => hwithin
      · exact fun _ _ => hwithin
      · exact fun _ _ => hwithin
      · intro template text lower hlower _ _ htemplate htext
        have hheld : cache.holds (cacheKey setting.library.generation name props) = true :=
          hsettles.resolve_left (by rw [htemplate]; exact Option.some_ne_none _)
        have hreplaced : (runFrom (replaceTags (resolveTag setting lower (stack ++ [name]))
            (pieces (tagPattern .template) (protectComments text).1))
            progress.entered).2.cache.Within cache :=
          replaceTags_invariant (I := fun between : Progress => between.cache.Within cache)
            (fun tag hmem between hbetween => ih lower (by omega) _ _ _ between
              (hclosed _ _ _ _ hheld htemplate htext tag hmem) hbetween) hwithin
        refine andThen_invariant
          (I := fun after : Progress => after.cache.Within cache) hreplaced ?_
        intro replaced after hrun
        rw [hrun] at hreplaced
        unfold finish
        cases restoreComments (protectComments text).2 replaced with
        | error fault => exact hreplaced
        | ok restored =>
            intro key hkey
            rcases (Cache.holds_put ..).mp hkey with rfl | hkey
            · exact hheld
            · exact hreplaced key hkey

end Growth

/-! ## Larger caches -/

section Larger

/-- The one cache is within the other, and all is in order with both. -/
structure Ahead (setting : Setting) (progress other : Progress) : Prop where
  sound : progress.cache.Sound setting.library setting.traced
  otherSound : other.cache.Sound setting.library setting.traced
  otherClosed : other.cache.Closed setting.library
  within : progress.cache.Within other.cache

variable {setting : Setting} {room : Nat} {stack : List Text} {name : Text} {props : Props}
variable {progress other after otherAfter : Progress} {fragment? other? : Option Text}

theorem expands_of_runFrom (hsound : progress.cache.Sound setting.library setting.traced)
    (hrun : runFrom (resolveWithin setting room stack name props) progress =
      (.ok fragment?, after)) :
    after.cache.Sound setting.library setting.traced ∧
      ∃ missing, Expands selfless setting.library.templates setting.traced
        (.invocation name props) fragment? missing := by
  have hfaithful := faithful_resolveWithin setting room stack name props progress hsound
  rw [hrun] at hfaithful
  obtain ⟨missing, hexpands, -⟩ := hfaithful.expands rfl
  exact ⟨hfaithful.sound, missing, hexpands⟩

/-- Two runs that both end with a result end with the same one, and all stays in order. -/
theorem Ahead.of_runs (hahead : Ahead setting progress other)
    (hrun : runFrom (resolveWithin setting room stack name props) progress =
      (.ok fragment?, after))
    (hother : runFrom (resolveWithin setting room stack name props) other =
      (.ok other?, otherAfter))
    (hwithin : after.cache.Within otherAfter.cache) :
    other? = fragment? ∧ Ahead setting after otherAfter := by
  obtain ⟨hsound, missing, hexpands⟩ := expands_of_runFrom hahead.sound hrun
  obtain ⟨hotherSound, others, hotherExpands⟩ := expands_of_runFrom hahead.otherSound hother
  have hsettling := settling_resolveWithin setting room stack name props other hahead.otherClosed
  rw [hother] at hsettling
  exact ⟨(hotherExpands.unique hexpands).1, hsound, hotherSound, hsettling.grown.2, hwithin⟩

/-- The last step of an expansion ends well with a larger cache if it does with a smaller one. -/
theorem finish_ahead {comments outer otherOuter : List Text} {replaced : Text}
    (hwithin : progress.cache.Within other.cache)
    (hfinish : finish setting name props comments outer replaced progress =
      (.ok fragment?, after)) :
    ∃ other? otherAfter, finish setting name props comments otherOuter replaced other =
      (.ok other?, otherAfter) ∧ after.cache.Within otherAfter.cache := by
  unfold finish at hfinish ⊢
  cases hrestored : restoreComments comments replaced with
  | error fault =>
      rw [hrestored] at hfinish
      cases hfinish
  | ok restored =>
      rw [hrestored] at hfinish
      cases hfinish
      refine ⟨_, _, rfl, fun key hheld => ?_⟩
      exact (Cache.holds_put ..).mpr (((Cache.holds_put ..).mp hheld).imp_right (hwithin key))

/-- A resolution that ends with a result ends with the same one from every larger cache. -/
theorem resolveWithin_ahead (hahead : Ahead setting progress other)
    (hrun : runFrom (resolveWithin setting room stack name props) progress =
      (.ok fragment?, after)) :
    ∃ otherAfter, runFrom (resolveWithin setting room stack name props) other =
      (.ok fragment?, otherAfter) ∧ Ahead setting after otherAfter := by
  induction room using Nat.strongRecOn generalizing stack name props progress other after
    fragment? with
  | _ room ih =>
      -- It is enough that the other run ends with any result, and with a larger cache.
      suffices hends : ∃ other? otherAfter,
          runFrom (resolveWithin setting room stack name props) other =
            (.ok other?, otherAfter) ∧ after.cache.Within otherAfter.cache by
        obtain ⟨other?, otherAfter, hother, hwithin⟩ := hends
        obtain ⟨hsame, hafter⟩ := hahead.of_runs hrun hother hwithin
        rw [hsame] at hother
        exact ⟨otherAfter, hother, hafter⟩
      have hstack := not_mem_of_runFrom_resolveWithin hrun
      by_cases hheld : other.cache.holds (cacheKey setting.library.generation name props) = true
      · -- The fragment is there, with all that it is made of.
        obtain ⟨⟨fragment, missing⟩, hfound⟩ := Option.isSome_iff_exists.mp hheld
        refine ⟨some fragment, _, runFrom_resolveWithin_hit hstack hfound, ?_⟩
        have hwithin := within_resolveWithin setting other.cache hahead.otherClosed room stack name
          props progress (.inr hheld) hahead.within
        rw [hrun] at hwithin
        exact hwithin
      · have hother := Cache.find?_of_not_holds hheld
        have hfound := Cache.find?_of_not_holds fun hheld' => hheld (hahead.within _ hheld')
        cases htemplate : setting.library.template? name with
        | none =>
            rw [runFrom_resolveWithin_absent hstack hfound htemplate] at hrun
            cases hrun
            exact ⟨none, _, runFrom_resolveWithin_absent hstack hother htemplate, hahead.within⟩
        | some template =>
            cases room with
            | zero =>
                rw [runFrom_resolveWithin_full hstack hfound htemplate] at hrun
                cases hrun
            | succ lower =>
                cases htext : instantiate template props with
                | error fault =>
                    rw [runFrom_resolveWithin_faulty hstack hfound htemplate htext] at hrun
                    cases hrun
                | ok text =>
                    rw [runFrom_resolveWithin_present hstack hfound htemplate htext,
                      andThen_eq_ok] at hrun
                    obtain ⟨replaced, between, hreplaced, hfinish⟩ := hrun
                    have hentered : Ahead setting progress.entered other.entered :=
                      ⟨hahead.sound.of_find? fun _ => rfl, hahead.otherSound.of_find? fun _ => rfl,
                        hahead.otherClosed, hahead.within⟩
                    obtain ⟨otherBetween, hotherReplaced, hbetween⟩ :=
                      replaceTags_simulation (fun tag progress other new? after hahead hrun =>
                        ih lower (Nat.lt_succ_self _) hahead hrun) hentered hreplaced
                    rw [runFrom_resolveWithin_present hstack hother htemplate htext,
                      hotherReplaced, andThen_ok]
                    exact finish_ahead hbetween.within hfinish

end Larger

/-! ## Documents -/

section Documents

variable {setting : Setting} {globals : Props} {document : Text} {progress other : Progress}

theorem grown_render (hclosed : progress.cache.Closed setting.library) :
    Grown setting.library progress (runFrom (render setting globals document) progress).2 := by
  cases htext : instantiate document globals with
  | error fault =>
      rw [runFrom_render_faulty htext]
      exact ⟨.refl _, hclosed⟩
  | ok text =>
      rw [runFrom_render_instantiated htext]
      have hreplaced : Grown setting.library progress (runFrom (replaceTags
          (resolveTag setting setting.library.templates.length [])
          (pieces (tagPattern .document) (protectComments text).1)) progress).2 :=
        replaceTags_invariant (I := Grown setting.library progress)
          (fun _ _ between hbetween =>
            hbetween.trans (settling_resolveWithin setting _ [] _ _ between hbetween.2).grown)
          ⟨.refl _, hclosed⟩
      exact andThen_invariant (I := Grown setting.library progress) hreplaced
        fun replaced after hrun => by rwa [hrun] at hreplaced

/-- A document that is written is written with every larger cache, and with the same text. -/
theorem render_ahead {written : Text} (hahead : Ahead setting progress other)
    (hrun : (runFrom (render setting globals document) progress).1 = .ok written) :
    (runFrom (render setting globals document) other).1 = .ok written := by
  cases htext : instantiate document globals with
  | error fault =>
      rw [runFrom_render_faulty htext] at hrun
      cases hrun
  | ok text =>
      rw [runFrom_render_instantiated htext] at hrun ⊢
      cases hreplaced : runFrom (replaceTags (resolveTag setting
          setting.library.templates.length [])
          (pieces (tagPattern .document) (protectComments text).1)) progress with
      | mk result after =>
          rw [hreplaced] at hrun
          cases result with
          | error error => cases hrun
          | ok replaced =>
              obtain ⟨otherAfter, hother, -⟩ := replaceTags_simulation
                (fun tag progress other new? after hahead hrun => resolveWithin_ahead hahead hrun)
                hahead hreplaced
              rw [hother]
              exact hrun

end Documents

end PageLoom.Component
