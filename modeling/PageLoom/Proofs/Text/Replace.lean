import Mathlib.Data.List.Infix
import Mathlib.Tactic.Common
import PageLoom.Proofs.Text.Scan

/-!
# Replacing a text in a text

Where the old text stands, replacing goes on after it; everywhere else it goes on after one
character. A text stays as it is exactly if the old text does not stand in it, or is replaced by
itself.
-/

namespace PageLoom.Scan

variable {α : Type} {pattern : Pattern α} {change : Text → α → Text} {c : Char}
variable {text before after : Text}

theorem replaceWith_cons (hpattern : ContextFree pattern)
    (hnone : pattern none (c :: text) = none) :
    replaceWith pattern change (c :: text) = c :: replaceWith pattern change text := by
  rw [replaceWith, pieces_cons_plain hpattern hnone]
  rfl

theorem replaceWith_found (hpattern : ContextFree pattern) {value : α} {more : Nat}
    (hsome : pattern none (c :: text) = some (value, more)) :
    replaceWith pattern change (c :: text) =
      change (c :: text.take more) value ++ replaceWith pattern change (text.drop more) := by
  rw [replaceWith, pieces_cons_found hpattern hsome]
  rfl

/-- As long as the pattern does not begin, nothing changes. -/
theorem replaceWith_append (hpattern : ContextFree pattern)
    (hnone : ∀ c rest, c :: rest <:+ before → pattern none (c :: rest ++ after) = none) :
    replaceWith pattern change (before ++ after) = before ++ replaceWith pattern change after := by
  rw [replaceWith, pieces_append_plain hpattern hnone, List.flatMap_append, List.flatMap_map,
    List.flatMap_singleton']
  rfl

end PageLoom.Scan

namespace PageLoom.Text

open Scan

/-- A text is read by its marks: where one of them stands, what follows it is read, and elsewhere
what follows the first character. -/
theorem induction_marks (marks : List Text) (hmarks : ∀ mark ∈ marks, mark ≠ [])
    {property : Text → Prop} (nil : property [])
    (mark : ∀ mark ∈ marks, ∀ rest, property rest → property (mark ++ rest))
    (plain : ∀ c rest, (∀ mark ∈ marks, ¬mark <+: c :: rest) → property rest → property (c :: rest))
    (text : Text) : property text := by
  induction hlength : text.length using Nat.strongRecOn generalizing text with
  | _ length ih =>
      by_cases hfound : ∃ found ∈ marks, found <+: text
      · obtain ⟨found, hmem, rest, rfl⟩ := hfound
        have hpos := List.length_pos_of_ne_nil (hmarks found hmem)
        rw [List.length_append] at hlength
        exact mark found hmem rest (ih rest.length (by omega) rest rfl)
      · cases text with
        | nil => exact nil
        | cons c rest =>
            have hless : rest.length < length := hlength ▸ Nat.lt_succ_self _
            exact plain c rest (fun found hmem hstart => hfound ⟨found, hmem, hstart⟩)
              (ih rest.length hless rest rfl)

variable {old new text : Text} {c : Char}

theorem contextFree_literal (expected : Text) : ContextFree (literal expected) := fun _ _ _ => rfl

theorem literal_eq_none (habsent : ¬old <+: text) (before : Option Char) :
    literal old before text = none := by
  have hstart : startsWith old text = false := by
    rw [startsWith, afterStart?_eq_none.mpr habsent]
    rfl
  rw [literal, hstart]
  split <;> rfl

theorem replaceAll_cons (habsent : ¬old <+: c :: text) :
    replaceAll old new (c :: text) = c :: replaceAll old new text :=
  replaceWith_cons (contextFree_literal old) (literal_eq_none habsent none)

theorem replaceAll_append_passed {before : Text}
    (habsent : ∀ c rest, c :: rest <:+ before → ¬old <+: c :: rest ++ text) :
    replaceAll old new (before ++ text) = before ++ replaceAll old new text :=
  replaceWith_append (contextFree_literal old) fun c rest hsuffix =>
    literal_eq_none (habsent c rest hsuffix) none

theorem replaceAll_append (hold : old ≠ []) :
    replaceAll old new (old ++ text) = new ++ replaceAll old new text := by
  obtain ⟨c, others, rfl⟩ := List.exists_cons_of_ne_nil hold
  have hsome : literal (c :: others) none (c :: (others ++ text)) = some ((), others.length) := by
    have hstart : startsWith (c :: others) (c :: (others ++ text)) = true := by
      rw [startsWith, ← List.cons_append, afterStart?_append]
      rfl
    rw [literal, hstart]
    rfl
  have hfound := @replaceWith_found Unit _ (fun _ _ => new) _ _ (contextFree_literal _) _ _ hsome
  rwa [List.drop_left] at hfound

theorem replaceAll_of_not_infix (habsent : ¬old <:+: text) : replaceAll old new text = text := by
  induction text with
  | nil => rfl
  | cons c text ih =>
      rw [List.infix_cons_iff, not_or] at habsent
      rw [replaceAll_cons habsent.1, ih habsent.2]

theorem replaceAll_self (hold : old ≠ []) (text : Text) : replaceAll old old text = text := by
  induction text using induction_marks [old] (by simpa using hold) with
  | nil => rfl
  | mark found hmem rest ih =>
      obtain rfl := List.mem_singleton.mp hmem
      rw [replaceAll_append hold, ih]
  | plain c rest habsent ih =>
      rw [replaceAll_cons (habsent old (List.mem_singleton_self old)), ih]

/-- What a text gains in length tells how often the old text was replaced. -/
theorem length_replaceAll (hold : old ≠ []) (new text : Text) :
    ∃ count, (replaceAll old new text).length + count * old.length =
      text.length + count * new.length := by
  induction text using induction_marks [old] (by simpa using hold) with
  | nil => exact ⟨0, by simp [replaceAll, replaceWith, pieces, piecesFrom]⟩
  | mark found hmem rest ih =>
      obtain rfl := List.mem_singleton.mp hmem
      obtain ⟨count, hcount⟩ := ih
      refine ⟨count + 1, ?_⟩
      rw [replaceAll_append hold, List.length_append, List.length_append, Nat.succ_mul, Nat.succ_mul]
      omega
  | plain c rest habsent ih =>
      obtain ⟨count, hcount⟩ := ih
      refine ⟨count, ?_⟩
      rw [replaceAll_cons (habsent old (List.mem_singleton_self old)), List.length_cons,
        List.length_cons]
      omega

/-- A text that starts with the old text is changed, as nothing later makes up for that. -/
theorem eq_of_append_replaceAll (hold : old ≠ [])
    (hsame : new ++ replaceAll old new text = old ++ text) : new = old := by
  obtain ⟨count, hcount⟩ := length_replaceAll hold new text
  have hlength := congrArg List.length hsame
  rw [List.length_append, List.length_append] at hlength
  apply (List.append_inj hsame _).1
  rcases Nat.le_total new.length old.length with hle | hle
  · have hproduct := Nat.mul_le_mul_left count hle
    omega
  · have hproduct := Nat.mul_le_mul_left count hle
    omega

theorem replaceAll_eq_self_iff (hold : old ≠ []) :
    replaceAll old new text = text ↔ new = old ∨ ¬old <:+: text := by
  constructor
  · intro hsame
    rw [← imp_iff_or_not]
    intro hcontained
    induction text using induction_marks [old] (by simpa using hold) with
    | nil => exact absurd (List.infix_nil.mp hcontained) hold
    | mark found hmem rest =>
        obtain rfl := List.mem_singleton.mp hmem
        rw [replaceAll_append hold] at hsame
        exact eq_of_append_replaceAll hold hsame
    | plain c rest habsent ih =>
        have hstart := habsent old (List.mem_singleton_self old)
        rw [replaceAll_cons hstart] at hsame
        exact ih (List.cons.inj hsame).2 ((List.infix_cons_iff.mp hcontained).resolve_left hstart)
  · rintro (rfl | habsent)
    · exact replaceAll_self hold text
    · exact replaceAll_of_not_infix habsent

end PageLoom.Text
