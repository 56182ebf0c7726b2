import Mathlib.Data.List.TakeWhile
import Mathlib.Tactic.Common
import PageLoom.Text.Classes

/-!
# Blanks

There are finitely many blanks, so that what a blank is not is checked code by code. Trimming takes
blanks away at the ends of a text and nothing else, and can be followed part by part.
-/

namespace PageLoom.Text

def blankCodes : List Nat :=
  [9, 10, 11, 12, 13, 28, 29, 30, 31, 32, 133, 160, 5760, 8192, 8193, 8194, 8195, 8196, 8197, 8198,
    8199, 8200, 8201, 8202, 8232, 8233, 8239, 8287, 12288]

variable {blank : Char}

theorem mem_blankCodes (hblank : isBlank blank = true) : blank.toNat ∈ blankCodes := by
  simp only [blankCodes, List.mem_cons, List.not_mem_nil, or_false]
  unfold isBlank at hblank
  dsimp only at hblank
  split at hblank
  · simp at hblank
    omega
  · simp at hblank
    omega

/-- What no code of a blank has, no blank has. -/
theorem of_isBlank {property : Char → Bool}
    (hcodes : ∀ code ∈ blankCodes, property (Char.ofNat code) = false)
    (hblank : isBlank blank = true) : property blank = false := by
  have hblank := hcodes blank.toNat (mem_blankCodes hblank)
  rwa [Char.ofNat_toNat] at hblank

theorem isBlank_eq_false {property : Char → Bool}
    (hcodes : ∀ code ∈ blankCodes, property (Char.ofNat code) = false)
    (hproperty : property blank = true) : isBlank blank = false := by
  rw [Bool.eq_false_iff]
  intro hblank
  rw [of_isBlank hcodes hblank] at hproperty
  cases hproperty

theorem dropWhile_concat {stops : Char → Bool} (text : Text) (hblank : stops blank = false) :
    (text ++ [blank]).dropWhile stops = text.dropWhile stops ++ [blank] := by
  induction text with
  | nil => simp [hblank]
  | cons c text ih =>
      cases hc : stops c with
      | true =>
          rw [List.cons_append, List.dropWhile_cons_of_pos hc, List.dropWhile_cons_of_pos hc, ih]
      | false => simp [hc]

theorem takeWhile_concat {stops : Char → Bool} (text : Text) (hblank : stops blank = false) :
    (text ++ [blank]).takeWhile stops = text.takeWhile stops := by
  induction text with
  | nil => simp [hblank]
  | cons c text ih =>
      cases hc : stops c with
      | true =>
          rw [List.cons_append, List.takeWhile_cons_of_pos hc, List.takeWhile_cons_of_pos hc, ih]
      | false => simp [hc]

/-- Trimming takes away blanks at both ends. -/
theorem trim_spec (text : Text) :
    ∃ before after, text = before ++ trim text ++ after ∧
      (∀ c ∈ before, isBlank c = true) ∧ ∀ c ∈ after, isBlank c = true := by
  have htaken : ∀ text : Text, ∀ c ∈ text.takeWhile isBlank, isBlank c = true := by
    intro text c hmem
    exact List.mem_takeWhile_imp hmem
  have hend : ∀ text : Text, text =
      trimEndWhile isBlank text ++ (text.reverse.takeWhile isBlank).reverse := by
    intro text
    rw [trimEndWhile, ← List.reverse_append, List.takeWhile_append_dropWhile, List.reverse_reverse]
  refine ⟨text.takeWhile isBlank,
    ((text.dropWhile isBlank).reverse.takeWhile isBlank).reverse, ?_, htaken text, ?_⟩
  · rw [trim, trimWhile, List.append_assoc, ← hend, List.takeWhile_append_dropWhile]
  · intro c hmem
    exact htaken _ c (List.mem_reverse.mp hmem)

/-! ## Trimming part by part -/

variable {c : Char} {left right text : Text}

theorem trimEnd_append (hright : trimEnd right ≠ []) :
    trimEnd (left ++ right) = left ++ trimEnd right := by
  simp only [trimEnd, trimEndWhile, List.reverse_append, List.dropWhile_append] at hright ⊢
  split
  · next hnone => simp [List.isEmpty_iff.mp hnone] at hright
  · rw [List.reverse_append, List.reverse_reverse]

theorem trimEnd_append_cons (hc : isBlank c = false) :
    trimEnd (left ++ c :: text) = left ++ c :: trimEnd text := by
  have hcons : trimEnd (c :: text) = c :: trimEnd text := by
    simp only [trimEnd, trimEndWhile, List.reverse_cons, List.dropWhile_append]
    split
    · next hnone => simp [List.isEmpty_iff.mp hnone, hc]
    · simp
  rw [trimEnd_append (by rw [hcons]; exact List.cons_ne_nil c _), hcons]

theorem trimStart_suffix (text : Text) : trimStart text <:+ text := List.dropWhile_suffix _

theorem trimEnd_prefix (text : Text) : trimEnd text <+: text := by
  have hsuffix := List.dropWhile_suffix (l := text.reverse) isBlank
  rwa [← List.reverse_prefix, List.reverse_reverse] at hsuffix

/-! ## Texts without blanks at their ends -/

structure Trimmed (text : Text) : Prop where
  first : ∀ c ∈ text.head?, isBlank c = false
  last : ∀ c ∈ text.getLast?, isBlank c = false

theorem dropWhile_of_head? {stops : Char → Bool} (hfirst : ∀ c ∈ text.head?, stops c = false) :
    text.dropWhile stops = text := by
  cases text with
  | nil => rfl
  | cons c rest =>
      apply List.dropWhile_cons_of_neg
      rw [hfirst c rfl]
      exact Bool.false_ne_true

theorem head?_dropWhile {stops : Char → Bool} (text : Text) :
    ∀ c ∈ (text.dropWhile stops).head?, stops c = false := by
  intro c hfirst
  have hhead := List.head?_dropWhile_not stops text
  rw [Option.mem_def.mp hfirst] at hhead
  exact hhead

theorem Trimmed.trim_eq (htext : Trimmed text) : trim text = text := by
  rw [trim, trimWhile, dropWhile_of_head? htext.first, trimEndWhile, dropWhile_of_head?,
    List.reverse_reverse]
  rw [List.head?_reverse]
  exact htext.last

theorem trimmed_trim (text : Text) : Trimmed (trim text) where
  first c hfirst := by
    obtain ⟨after, hafter⟩ := trimEnd_prefix (text.dropWhile isBlank)
    apply head?_dropWhile text c
    rw [← hafter, List.head?_append]
    exact Option.or_eq_some_iff.mpr (.inl hfirst)
  last c hlast := by
    rw [trim, trimWhile, trimEndWhile, List.getLast?_reverse] at hlast
    exact head?_dropWhile _ c hlast

end PageLoom.Text
