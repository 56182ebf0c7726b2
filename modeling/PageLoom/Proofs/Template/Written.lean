import PageLoom.Proofs.Text.Scan
import PageLoom.Template.Directive

/-!
# Directives as they are written

A directive that is written with its keyword and what belongs to it is found as one piece, and text
without the opening mark is no directive. So a text that is put together from both is scanned part
by part.
-/

namespace PageLoom.Template

open Scan

/-- A directive with single blanks at its marks. -/
def written (keyword : Keyword) (inside : Text) : Text :=
  "\x7b% ".toList ++ keyword.spelling ++ inside ++ " %\x7d".toList

def directiveOf (keyword : Keyword) (inside : Text) : Directive :=
  ⟨keyword, Text.trim (inside ++ [' '])⟩

/-- What can stand after a keyword: nothing that continues it, and no end of the line or of the
directive. -/
structure Writable (inside : Text) : Prop where
  apart : inside.head?.any Text.isWord = false
  line : '\n' ∉ inside
  unclosed : ¬closing <:+: inside

variable {keyword : Keyword} {inside content after : Text}

theorem contextFree_directivePattern : ContextFree directivePattern := fun _ _ _ => rfl

/-! ## Directives -/

/-- The spelling of a keyword begins no other keyword. -/
theorem findSome?_afterKeyword? (hrest : after.head?.any Text.isWord = false) :
    keywords.findSome? (afterKeyword? (keyword.spelling ++ after)) = some (keyword, after) := by
  cases keyword <;> simp [keywords, afterKeyword?, Text.afterStart?, Keyword.spelling, hrest]

theorem length_written :
    (written keyword inside).length = keyword.spelling.length + inside.length + 6 := by
  simp [written]
  omega

theorem directivePattern_written (hinside : Writable inside) (after : Text) :
    directivePattern none (written keyword inside ++ after) =
      some (directiveOf keyword inside, (written keyword inside).length - 1) := by
  have hopening : Text.afterStart? opening (written keyword inside ++ after) =
      some (' ' :: (keyword.spelling ++ (inside ++ ' ' :: (closing ++ after)))) := by
    rw [Text.afterStart?_eq_some]
    simp [written, opening, closing]
  have hblanks : (' ' :: (keyword.spelling ++ (inside ++ ' ' :: (closing ++ after)))).takeWhile
      Text.isBlank = [' '] := by
    cases keyword <;> rfl
  have hafterBlanks : (' ' :: (keyword.spelling ++ (inside ++ ' ' :: (closing ++ after)))).dropWhile
      Text.isBlank = keyword.spelling ++ (inside ++ ' ' :: (closing ++ after)) := by
    cases keyword <;> rfl
  have hrest : (inside ++ ' ' :: (closing ++ after)).head?.any Text.isWord = false := by
    cases hhead : inside with
    | nil => rfl
    | cons c rest =>
        have hapart := hinside.apart
        rw [hhead] at hapart
        exact hapart
  have hcut : Text.cutAt? closing (inside ++ ' ' :: (closing ++ after)) =
      some (inside ++ [' '], after) := by
    rw [Text.cutAt?_append_stop (by decide) (by decide), Text.cutAt?_eq_none.mpr hinside.unclosed]
    have hnone := @Text.cutAt?_append '%' ['\x7d'] [] after (by simp)
    rw [List.nil_append] at hnone
    rw [closing, hnone]
    rfl
  have hline : (inside ++ [' ']).contains '\n' = false := by
    simpa using hinside.line
  unfold directivePattern
  simp only [hopening, hblanks, hafterBlanks, findSome?_afterKeyword? hrest, hcut, hline]
  rw [length_written]
  simp [directiveOf]
  omega

/-- A written directive is one piece. -/
theorem directives_written (hinside : Writable inside) (after : Text) :
    directives (written keyword inside ++ after) =
      .found (written keyword inside) (directiveOf keyword inside) :: directives after := by
  obtain ⟨c, rest, hwritten⟩ : ∃ c rest, written keyword inside = c :: rest := ⟨_, _, rfl⟩
  have hpattern := @directivePattern_written keyword inside hinside after
  rw [hwritten, List.cons_append] at hpattern ⊢
  have hlength : (c :: rest).length - 1 = rest.length := rfl
  rw [hlength] at hpattern
  rw [directives, pieces_cons_found contextFree_directivePattern hpattern, List.take_left,
    List.drop_left]
  rfl

/-! ## Text -/

/-- Text without the opening mark is found character by character, unless the mark begins with its
last one. -/
theorem directives_append (hcontent : ¬opening <:+: content) (hafter : after.head? ≠ some '%') :
    directives (content ++ after) = content.map .plain ++ directives after := by
  apply pieces_append_plain contextFree_directivePattern
  intro c rest hsuffix
  have hopening : Text.afterStart? opening (c :: rest ++ after) = none := by
    rw [Text.afterStart?_eq_none]
    rintro ⟨following, hfollowing⟩
    cases rest with
    | nil =>
        cases after with
        | nil => simp [opening] at hfollowing
        | cons next after =>
            simp only [opening, List.cons_append, List.nil_append, List.cons.injEq] at hfollowing
            exact hafter (congrArg some hfollowing.2.1.symm)
    | cons next rest =>
        simp only [opening, List.cons_append, List.nil_append, List.cons.injEq] at hfollowing
        obtain ⟨rfl, rfl, -⟩ := hfollowing
        exact hcontent (List.IsInfix.trans ⟨[], rest, rfl⟩ hsuffix.isInfix)
  unfold directivePattern
  rw [hopening]

end PageLoom.Template
