import Mathlib.Tactic.Common
import PageLoom.Component.Resolve

/-!
# Expansion without a cache

What a component or a document expands to is determined by the templates alone. The relation of
this module says it without a cache, a stack of components in progress or a bound on the nesting:
placeholders, conditionals and loops first, then every component tag outside comments in the same
way, a tag without template being kept. Beside the expanded text stand the names that had no
template, in the order in which they were met.

Which components the text of a component may invoke is left to a parameter. `unguarded` allows all
of them; `selfless` forbids only that the text of a component invokes that component itself.
-/

namespace PageLoom.Component

open Scan Markup

/-- What is expanded: an invocation, a text with tags in it, or the pieces of such a text. Texts and
pieces come with the name of the component that they are part of, if they are part of one. -/
inductive Expandable where
  | invocation (name : Text) (props : Props)
  | body (place : Place) (within? : Option Text) (text : Text)
  | pieces (within? : Option Text) (found : List (Piece Tag))

/-- Which components may be invoked in the text of a component, or of a document. -/
abbrev Admission := Option Text → Text → Prop

def unguarded : Admission := fun _ _ => True

def selfless : Admission := fun within? name => within? ≠ some name

/-- The fragment that is put in the place of a tag. -/
def framed (traced : Bool) (name expanded : Text) : Text :=
  if traced then Template.wrapFragment name expanded else expanded

section Relation

variable (admits : Admission) (templates : List (Text × Text)) (traced : Bool)

/-- `Expands admits templates traced part result? missing`: expanding `part` gives `result?`, which
is nothing only for an invocation without template, and `missing` are the names without template
that it met. -/
inductive Expands : Expandable → Option Text → List Text → Prop
  | absent {name props} (htemplate : templates.lookup name = none) :
      Expands (.invocation name props) none [name]
  | present {name props template text expanded missing}
      (htemplate : templates.lookup name = some template)
      (htext : instantiate template props = .ok text)
      (hbody : Expands (.body .template (some name) text) (some expanded) missing) :
      Expands (.invocation name props) (some (framed traced name expanded)) missing
  | body {place within? text replaced restored missing}
      (hpieces : Expands (.pieces within? (pieces (tagPattern place) (protectComments text).1))
        (some replaced) missing)
      (hrestored : restoreComments (protectComments text).2 replaced = .ok restored) :
      Expands (.body place within? text) (some restored) missing
  | nil {within?} : Expands (.pieces within? []) (some []) []
  | plain {within? c rest text missing}
      (hrest : Expands (.pieces within? rest) (some text) missing) :
      Expands (.pieces within? (.plain c :: rest)) (some (c :: text)) missing
  | void {within? source tag rest text missing} (hvoid : isVoidElement tag.name = true)
      (hrest : Expands (.pieces within? rest) (some text) missing) :
      Expands (.pieces within? (.found source tag :: rest)) (some (source ++ text)) missing
  | tag {within? source tag rest fragment? missing text others}
      (hvoid : isVoidElement tag.name = false) (hadmits : admits within? tag.name)
      (hfragment : Expands (.invocation tag.name (parseAttributes tag.attributes))
        fragment? missing)
      (hrest : Expands (.pieces within? rest) (some text) others) :
      Expands (.pieces within? (.found source tag :: rest))
        (some (fragment?.getD source ++ text)) (missing ++ others)

/-- The expansion of a document with global values. -/
def ExpandsDocument (globals : Props) (document expanded : Text) (missing : List Text) : Prop :=
  ∃ text, instantiate document globals = .ok text ∧
    Expands admits templates traced (.body .document none text) (some expanded) missing

end Relation

variable {admits weaker : Admission} {templates : List (Text × Text)} {traced : Bool}
variable {part : Expandable} {result? other? : Option Text} {missing others : List Text}

/-- An expansion is determined by what is expanded, even if the two are guarded differently. -/
theorem Expands.unique (hleft : Expands admits templates traced part result? missing)
    (hright : Expands weaker templates traced part other? others) :
    result? = other? ∧ missing = others := by
  induction hleft generalizing other? others with
  | absent htemplate =>
      cases hright with
      | absent => exact ⟨rfl, rfl⟩
      | present hother => simp [htemplate] at hother
  | present htemplate htext _ ih =>
      cases hright with
      | absent hother => simp [htemplate] at hother
      | present hother hotherText hbody =>
          rw [htemplate, Option.some.injEq] at hother
          subst hother
          rw [htext, Except.ok.injEq] at hotherText
          subst hotherText
          obtain ⟨hexpanded, hmissing⟩ := ih hbody
          rw [Option.some.inj hexpanded]
          exact ⟨rfl, hmissing⟩
  | body _ hrestored ih =>
      cases hright with
      | body hpieces hotherRestored =>
          obtain ⟨hreplaced, hmissing⟩ := ih hpieces
          rw [Option.some.inj hreplaced, hotherRestored, Except.ok.injEq] at hrestored
          exact ⟨by rw [hrestored], hmissing⟩
  | nil =>
      cases hright with
      | nil => exact ⟨rfl, rfl⟩
  | plain _ ih =>
      cases hright with
      | plain hrest =>
          obtain ⟨htext, hmissing⟩ := ih hrest
          rw [Option.some.inj htext]
          exact ⟨rfl, hmissing⟩
  | void hvoid _ ih =>
      cases hright with
      | void _ hrest =>
          obtain ⟨htext, hmissing⟩ := ih hrest
          rw [Option.some.inj htext]
          exact ⟨rfl, hmissing⟩
      | tag hother => simp [hvoid] at hother
  | tag hvoid _ _ _ ihFragment ihRest =>
      cases hright with
      | void hother => simp [hvoid] at hother
      | tag _ _ hfragment hrest =>
          obtain ⟨hsame, hmissing⟩ := ihFragment hfragment
          obtain ⟨htext, hothers⟩ := ihRest hrest
          rw [hsame, Option.some.inj htext, hmissing, hothers]
          exact ⟨rfl, rfl⟩

/-- A guard that admits more leaves every expansion as it is. -/
theorem Expands.mono (hweaker : ∀ within? name, admits within? name → weaker within? name)
    (hexpands : Expands admits templates traced part result? missing) :
    Expands weaker templates traced part result? missing := by
  induction hexpands with
  | absent htemplate => exact .absent htemplate
  | present htemplate htext _ ih => exact .present htemplate htext ih
  | body _ hrestored ih => exact .body ih hrestored
  | nil => exact .nil
  | plain _ ih => exact .plain ih
  | void hvoid _ ih => exact .void hvoid ih
  | tag hvoid hadmits _ _ ihFragment ihRest =>
      exact .tag hvoid (hweaker _ _ hadmits) ihFragment ihRest

theorem Expands.unguarded (hexpands : Expands admits templates traced part result? missing) :
    Expands unguarded templates traced part result? missing :=
  hexpands.mono fun _ _ _ => trivial

theorem ExpandsDocument.unique {globals : Props} {document expanded other : Text}
    (hleft : ExpandsDocument admits templates traced globals document expanded missing)
    (hright : ExpandsDocument weaker templates traced globals document other others) :
    expanded = other ∧ missing = others := by
  obtain ⟨text, htext, hbody⟩ := hleft
  obtain ⟨otherText, hotherText, hotherBody⟩ := hright
  rw [htext, Except.ok.injEq] at hotherText
  subst hotherText
  obtain ⟨hexpanded, hmissing⟩ := hbody.unique hotherBody
  exact ⟨Option.some.inj hexpanded, hmissing⟩

end PageLoom.Component
