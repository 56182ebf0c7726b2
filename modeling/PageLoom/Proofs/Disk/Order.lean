import Mathlib.Data.Char
import Mathlib.Data.List.Nodup
import PageLoom.Disk.Path

/-!
# The order of names

Texts are ordered by the code points of their characters, and paths below a directory by their
names: both orders are lexicographic and total, and only equals are alike in them. A list without
duplicates is therefore strictly ascending once it is sorted.
-/

namespace PageLoom

open Std (ReflCmp OrientedCmp TransCmp LawfulEqCmp)

theorem Text.compare_eq_compareLex :
    Text.compare = List.compareLex (Ord.compare (α := Char)) := by
  funext left
  induction left with
  | nil => funext right; cases right <;> rfl
  | cons c left ih =>
      funext right
      cases right with
      | nil => rfl
      | cons d right =>
          rw [Text.compare, ih, List.compareLex_cons_cons]
          change (if c < d then Ordering.lt else if d < c then Ordering.gt else _) = _
          rcases lt_trichotomy c d with hless | hsame | hgreater
          · rw [if_pos hless, compare_lt_iff_lt.mpr hless]
            rfl
          · subst hsame
            rw [if_neg (lt_irrefl c), if_neg (lt_irrefl c), compare_eq_iff_eq.mpr rfl]
            rfl
          · rw [if_neg (lt_asymm hgreater), if_pos hgreater, compare_gt_iff_gt.mpr hgreater]
            rfl

theorem compareNames_eq_compareLex : compareNames = List.compareLex Text.compare := by
  funext left
  induction left with
  | nil => funext right; cases right <;> rfl
  | cons name left ih =>
      funext right
      cases right with
      | nil => rfl
      | cons other right => rw [compareNames, ih, List.compareLex_cons_cons]

instance : TransCmp Text.compare := by
  rw [Text.compare_eq_compareLex]
  infer_instance

instance : LawfulEqCmp Text.compare := by
  rw [Text.compare_eq_compareLex]
  infer_instance

instance : TransCmp compareNames := by
  rw [compareNames_eq_compareLex]
  infer_instance

instance : LawfulEqCmp compareNames := by
  rw [compareNames_eq_compareLex]
  infer_instance

section Sorted

variable {κ : Type} {cmp : κ → κ → Ordering} [TransCmp cmp] [LawfulEqCmp cmp]

theorem not_lt_iff_eq_or_lt {left right : κ} :
    ¬cmp left right = .lt ↔ right = left ∨ cmp right left = .lt := by
  have hswap : cmp right left = (cmp left right).swap := OrientedCmp.eq_swap
  have hsame : cmp left right = .eq ↔ right = left :=
    ⟨fun heq => (LawfulEqCmp.eq_of_compare heq).symm, fun heq => heq ▸ ReflCmp.compare_self⟩
  rw [← hsame, hswap]
  cases cmp left right <;> simp

/-- What is sorted by keys that are all different ascends strictly. -/
theorem pairwise_lt_mergeSort {α : Type} (key : α → κ) {values : List α}
    (hnodup : (values.map key).Nodup) :
    (values.mergeSort fun left right => cmp (key left) (key right) != .gt).Pairwise
      fun left right => cmp (key left) (key right) = .lt := by
  have hle : (fun left right => cmp (key left) (key right) != .gt) =
      fun left right => (cmp (key left) (key right)).isLE := by
    funext left right
    cases cmp (key left) (key right) <;> rfl
  rw [hle]
  have htrans : ∀ a b c, (cmp (key a) (key b)).isLE = true → (cmp (key b) (key c)).isLE = true →
      (cmp (key a) (key c)).isLE = true := fun a b c => TransCmp.isLE_trans
  have htotal : ∀ a b, ((cmp (key a) (key b)).isLE || (cmp (key b) (key a)).isLE) = true := by
    intro a b
    have hswap : cmp (key b) (key a) = (cmp (key a) (key b)).swap := OrientedCmp.eq_swap
    rw [hswap]
    cases cmp (key a) (key b) <;> rfl
  have hsorted := List.pairwise_mergeSort htrans htotal values
  have hkeys : ((values.mergeSort fun left right =>
      (cmp (key left) (key right)).isLE).map key).Nodup :=
    ((List.mergeSort_perm values _).map key).nodup_iff.mpr hnodup
  refine hsorted.imp₂ (fun left right hle hne => ?_) (List.pairwise_map.mp hkeys)
  cases hcompare : cmp (key left) (key right) with
  | lt => rfl
  | eq => exact absurd (LawfulEqCmp.eq_of_compare hcompare) hne
  | gt => rw [hcompare] at hle; cases hle

end Sorted

end PageLoom
