import Mathlib.Data.List.Find
import Mathlib.Data.List.TakeWhile
import Mathlib.Tactic.Common
import PageLoom.Condition.Evaluation
import PageLoom.Proofs.Text.Blank
import PageLoom.Proofs.Text.Scan

/-!
# Blanks around a condition

Blanks separate tokens and are none themselves. So a condition holds with blanks around it if it
holds without them: those in front of it only move the positions that a refusal reports, and those
after it belong to no token.
-/

namespace PageLoom.Condition

variable {α β : Type} {blank : Char} {scope : Props}

/-! ## What matters of a failure -/

/-- A value, or nothing if there is none because of the condition, or a fault. -/
def settled : Except Failure α → Except NumberFault (Option α)
  | .ok value => .ok (some value)
  | .error (.refused _) => .ok none
  | .error .tooDeep => .ok none
  | .error (.fault fault) => .error fault

theorem settled_bind (first : Except Failure α) (next : α → Except Failure β) :
    settled (first >>= next) =
      settled first >>= fun value? => value?.elim (.ok none) fun value => settled (next value) := by
  cases first with
  | ok value => rfl
  | error failure => cases failure <;> rfl

/-- Two ways to the same tokens decide a condition alike. -/
theorem settled_bind_congr {first second : Except Failure α} (next : α → Except Failure β)
    (hsame : settled first = settled second) :
    settled (first >>= next) = settled (second >>= next) := by
  rw [settled_bind, settled_bind, hsame]

theorem holds_congr {source other : Text}
    (hsame : settled (tokens source) = settled (tokens other)) :
    holds source scope = holds other scope := by
  have hholds : ∀ source, holds source scope = do
      let truth? ← settled do
        let value ← evaluate (← parse source scope)
        arithmetic value.isTruthy
      return truth?.getD false := by
    intro source
    rw [holds]
    generalize (do arithmetic (← evaluate (← parse source scope)).isTruthy) = result
    cases result with
    | ok value => rfl
    | error failure => cases failure <;> rfl
  have hparse : settled (parse source scope) = settled (parse other scope) :=
    settled_bind_congr _ hsame
  rw [hholds, hholds, settled_bind_congr _ hparse]

/-! ## Blanks in front -/

theorem settled_tokenAt (position other : Nat) (c : Char) (text : Text) :
    settled (tokenAt position c text) = settled (tokenAt other c text) := by
  unfold tokenAt
  dsimp only
  grind [settled]

/-- Where a text stands matters only to what a refusal reports. -/
theorem settled_tokensFrom (skip position other : Nat) (text : Text) :
    settled (tokensFrom skip position text) = settled (tokensFrom skip other text) := by
  induction text generalizing skip position other with
  | nil => cases skip <;> rfl
  | cons c text ih =>
      cases skip with
      | succ skip => exact ih ..
      | zero =>
          rw [tokensFrom, tokensFrom, settled_bind, settled_bind, settled_tokenAt position other]
          congr 1
          funext token?
          cases token? with
          | none => rfl
          | some token => exact settled_bind_congr _ (ih ..)

theorem settled_tokens_append {before text : Text} (hbefore : ∀ c ∈ before, Text.isBlank c = true) :
    settled (tokens (before ++ text)) = settled (tokens text) := by
  induction before with
  | nil => rfl
  | cons blank before ih =>
      have hblank := hbefore blank (List.mem_cons_self ..)
      have hfirst : tokens (blank :: (before ++ text)) = tokensFrom 0 1 (before ++ text) := by
        rw [tokens, tokensFrom, tokenAt, if_pos hblank]
        exact bind_pure (tokensFrom 0 1 (before ++ text))
      rw [List.cons_append, hfirst, settled_tokensFrom 0 1 0]
      exact ih fun c hmem => hbefore c (List.mem_cons_of_mem _ hmem)

/-! ## Blanks at the end -/

theorem startsWith_concat (hblank : Text.isBlank blank = true) (text : Text) :
    ∀ entry ∈ spellings,
      Text.startsWith entry.1 (text ++ [blank]) = Text.startsWith entry.1 text := by
  have hsymbols := @Text.of_isBlank blank (fun c => spellings.any fun entry => entry.1.contains c)
    (by decide +kernel) hblank
  intro entry hmem
  have hentry : blank ∉ entry.1 := by
    have hnone := List.any_eq_false.mp hsymbols entry hmem
    simpa using hnone
  rw [Text.startsWith, Text.startsWith, Text.afterStart?_append_stop hentry, Option.isSome_map]

theorem tokenAt_concat (hblank : Text.isBlank blank = true) (position : Nat) (c : Char)
    (text : Text) : tokenAt position c (text ++ [blank]) = tokenAt position c text := by
  have hdigit : Text.isDigit blank = false := Text.of_isBlank (by decide +kernel) hblank
  have hpart : isNamePart blank = false := Text.of_isBlank (by decide +kernel) hblank
  have hpoint : blank ≠ '.' := by
    rintro rfl
    cases hblank
  unfold tokenAt
  dsimp only
  rw [Text.takeWhile_concat text hdigit, Text.takeWhile_concat text hpart]
  split
  · rfl
  split
  · rw [Text.dropWhile_concat text hdigit]
    cases text.dropWhile Text.isDigit with
    | nil => grind
    | cons next rest =>
        by_cases hnext : next = '.'
        · subst hnext
          simp only [List.cons_append, Text.takeWhile_concat rest hdigit]
        · grind
  split
  · rfl
  split
  · next hquote =>
    have hother : blank ∉ [c] := by
      have hnone := @Text.of_isBlank blank (fun c => c = '"' || c = '\'') (by decide) hblank
      grind
    rw [Text.cutAt?_append_stop (by simp) hother]
    cases Text.cutAt? [c] text with
    | some cut => rfl
    | none => rfl
  split
  · rfl
  split
  · rfl
  split
  · rfl
  · have hfind : (spellings.find? fun entry => Text.startsWith entry.1 (c :: (text ++ [blank]))) =
        spellings.find? fun entry => Text.startsWith entry.1 (c :: text) := by
      apply List.find?_congr
      exact startsWith_concat hblank (c :: text)
    rw [hfind]

theorem tokensFrom_concat (hblank : Text.isBlank blank = true) (skip position : Nat) (text : Text) :
    tokensFrom skip position (text ++ [blank]) = tokensFrom skip position text := by
  induction text generalizing skip position with
  | nil =>
      cases skip with
      | zero =>
          have hfirst : tokenAt position blank [] = .ok (none, 0) := if_pos hblank
          simp only [List.nil_append, tokensFrom, hfirst]
          rfl
      | succ skip => cases skip <;> rfl
  | cons c text ih =>
      cases skip with
      | zero =>
          rw [List.cons_append, tokensFrom, tokensFrom, tokenAt_concat hblank]
          simp only [ih]
      | succ skip => exact ih ..

theorem tokens_append {text after : Text} (hafter : ∀ c ∈ after, Text.isBlank c = true) :
    tokens (text ++ after) = tokens text := by
  induction after using List.reverseRecOn with
  | nil => rw [List.append_nil]
  | append_singleton after blank ih =>
      rw [← List.append_assoc, tokens, tokensFrom_concat (hafter blank (by simp))]
      exact ih fun c hmem => hafter c (List.mem_append_left _ hmem)

/-- Blanks around a condition do not matter. -/
theorem holds_append {before source after : Text} (hbefore : ∀ c ∈ before, Text.isBlank c = true)
    (hafter : ∀ c ∈ after, Text.isBlank c = true) :
    holds (before ++ source ++ after) scope = holds source scope := by
  apply holds_congr
  rw [tokens_append hafter]
  exact settled_tokens_append hbefore

theorem holds_trim (source : Text) (scope : Props) :
    holds (Text.trim source) scope = holds source scope := by
  obtain ⟨before, after, hsource, hbefore, hafter⟩ := Text.trim_spec source
  calc holds (Text.trim source) scope
      = holds (before ++ Text.trim source ++ after) scope := (holds_append hbefore hafter).symm
    _ = holds source scope := by rw [← hsource]

end PageLoom.Condition
