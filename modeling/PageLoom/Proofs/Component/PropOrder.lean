import Mathlib.Tactic.Common
import PageLoom.Proofs.Component.Expansion
import PageLoom.Proofs.Template.Filling

/-!
# The order of props

Conditions and loops look props up by their names, so that all the order of distinct props can
matter to is how their placeholders are filled.
-/

namespace PageLoom

variable {props order : Props}

namespace Props

theorem get?_perm (horder : order.Perm props) (hdistinct : (props.map Prod.fst).Nodup)
    (name : Text) : order.get? name = props.get? name := by
  unfold get?
  induction horder with
  | nil => rfl
  | cons prop _ ih =>
      obtain ⟨other, value⟩ := prop
      rw [List.map_cons, List.nodup_cons] at hdistinct
      rw [List.lookup_cons, List.lookup_cons, ih hdistinct.2]
  | swap first second rest =>
      obtain ⟨firstName, firstValue⟩ := first
      obtain ⟨secondName, secondValue⟩ := second
      have hother : firstName ≠ secondName := by
        rintro rfl
        simp at hdistinct
      simp only [List.lookup_cons]
      grind
  | trans hfirst hsecond ihFirst ihSecond =>
      rw [ihFirst ((hsecond.map Prod.fst).nodup_iff.mpr hdistinct), ihSecond hdistinct]

end Props

/-! ## Lookups by name -/

section Lookup

variable (hscope : ∀ name, order.get? name = props.get? name)

include hscope

theorem Condition.parse_scope_congr (source : Text) : parse source order = parse source props := by
  have hsubstitute : substitute order = substitute props := by
    funext tokens
    simp only [substitute, hscope]
  rw [parse, hsubstitute, parse]

theorem Condition.holds_scope_congr (source : Text) : holds source order = holds source props := by
  rw [holds, parse_scope_congr hscope, holds]

theorem Template.chosenBody_scope_congr (sections : List Section) :
    chosenBody order sections = chosenBody props sections := by
  induction sections with
  | nil => rfl
  | cons first rest ih => rw [chosenBody, chosenBody, Condition.holds_scope_congr hscope, ih]

theorem Template.evaluateConditionals_scope_congr (text : Text) :
    evaluateConditionals order text = evaluateConditionals props text := by
  have hwithin : ∀ depth text,
      evaluateConditionalsWithin order depth text = evaluateConditionalsWithin props depth text := by
    intro depth
    induction depth with
    | zero => exact fun _ => rfl
    | succ depth ih =>
        intro text
        simp only [evaluateConditionalsWithin, chosenBody_scope_congr hscope, ih]
  exact hwithin text.length text

theorem Template.expandLoops_scope_congr (text : Text) :
    expandLoops order text = expandLoops props text := by
  have hexpand : expandLoop order = expandLoop props := by
    funext sections
    cases sections with
    | nil => rfl
    | cons first rest => simp only [expandLoop, loopItems, hscope]
  rw [expandLoops, hexpand, expandLoops]

end Lookup

namespace Component

open Template

/-- The text of a component depends on the order of props only by its placeholders. -/
theorem instantiate_perm (horder : order.Perm props) (hdistinct : (props.map Prod.fst).Nodup)
    {template : Text} (hfilled : substituteProps order template = substituteProps props template) :
    instantiate template order = instantiate template props := by
  have hscope := Props.get?_perm horder hdistinct
  simp only [instantiate, hfilled, evaluateConditionals_scope_congr hscope,
    expandLoops_scope_congr hscope]

variable {admits : Admission} {templates : List (Text × Text)} {traced : Bool} {name : Text}
variable {result? : Option Text} {missing : List Text}

theorem Expands.of_instantiate
    (hsame : ∀ template, templates.lookup name = some template →
      instantiate template order = instantiate template props)
    (hexpands : Expands admits templates traced (.invocation name order) result? missing) :
    Expands admits templates traced (.invocation name props) result? missing := by
  cases hexpands with
  | absent htemplate => exact .absent htemplate
  | present htemplate htext hbody =>
      rw [hsame _ htemplate] at htext
      exact .present htemplate htext hbody

/-- The order of props does not matter for any template exactly if the props are independent, and
does not matter for a well-braced template if no value opens a brace. Nothing else that happens to
a component depends on the order. -/
theorem expands_order_iff (props : Props) (hprops : Fillable props) :
    ((∀ order, order.Perm props → ∀ template,
      substituteProps order template = filled props template) ↔ Independent props) ∧
      (∀ order, order.Perm props → ∀ template, WellBraced template →
        (∀ prop ∈ props, '\x7b' ∉ prop.2.asText) →
          substituteProps order template = filled props template) ∧
      ∀ order, order.Perm props → ∀ admits templates traced name result? missing,
        (∀ template, templates.lookup name = some template →
          substituteProps order template = substituteProps props template) →
        (Expands admits templates traced (.invocation name order) result? missing ↔
          Expands admits templates traced (.invocation name props) result? missing) := by
  refine ⟨substituteProps_order_iff hprops, ?_, ?_⟩
  · intro order horder template htemplate hvalues
    exact substituteProps_of_wellBraced hprops hvalues htemplate horder
  · intro order horder admits templates traced name result? missing hfilled
    have hsame : ∀ template, templates.lookup name = some template →
        instantiate template order = instantiate template props :=
      fun template htemplate =>
        instantiate_perm horder hprops.distinct (hfilled template htemplate)
    exact ⟨.of_instantiate hsame, .of_instantiate fun template htemplate =>
      (hsame template htemplate).symm⟩

/-- A value may have braces, as long as they do not go with the other name. -/
theorem substituteProps_braces_swapped :
    Fillable [("a".toList, .scalar "\x7b\x7bx\x7d\x7d".toList), ("b".toList, .scalar "1".toList)] ∧
      ∀ template, substituteProps [("b".toList, .scalar "1".toList),
          ("a".toList, .scalar "\x7b\x7bx\x7d\x7d".toList)] template =
        filled [("a".toList, .scalar "\x7b\x7bx\x7d\x7d".toList), ("b".toList, .scalar "1".toList)]
          template := by
  have hprops : Fillable
      [("a".toList, .scalar "\x7b\x7bx\x7d\x7d".toList), ("b".toList, .scalar "1".toList)] := by decide
  exact ⟨hprops, (expands_order_iff _ hprops).1.mpr (by decide) _ (List.Perm.swap ..)⟩

/-- A value with the placeholder of another prop in it is filled only if that prop comes later. -/
theorem substituteProps_placeholder_swapped :
    ¬∀ props order : Props, (props.map Prod.fst).Nodup → order.Perm props → ∀ template,
      substituteProps order template = filled props template := by
  intro hsame
  have hfilled := hsame
    [("a".toList, .scalar "\x7b\x7bb\x7d\x7d".toList), ("b".toList, .scalar "x".toList)] _ (by decide)
    (List.Perm.refl _) "\x7b\x7ba\x7d\x7d".toList
  revert hfilled
  decide

end Component

end PageLoom
