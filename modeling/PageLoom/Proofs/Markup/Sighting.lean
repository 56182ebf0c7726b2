import PageLoom.Proofs.Markup.Numbering

/-!
# Texts that bring placeholders along

A text can hold what looks like a placeholder by itself, or digits after a NUL right before a
comment, which the placeholder of that comment then seems to close. Such a text is not told apart
from its protected form: putting the comments back gives the text again exactly if every placeholder
that it brought along has a number that can be read and that no comment has, and no digits are left
open before a comment.
-/

namespace PageLoom.Markup

open Scan

/-- A comment, or what restoring could take for the placeholder of one. -/
inductive Sighting where
  | comment
  | placeholder (digits : Text)
  | unclosed (digits : Text)
deriving Repr, DecidableEq

/-- Digits after a NUL are closed by another NUL, or left open if a comment begins. -/
def sightingPattern : Pattern Sighting := fun before text =>
  match text with
  | '\x00' :: rest =>
    let digits := rest.takeWhile Text.isDigit
    let after := rest.dropWhile Text.isDigit
    if digits.isEmpty then none
    else if after.head? = some '\x00' then some (.placeholder digits, digits.length + 1)
    else if (commentPattern none after).isSome then some (.unclosed digits, digits.length)
    else none
  | _ => (commentPattern before text).map fun found => (.comment, found.2)

def sightings (text : Text) : List Sighting := values (pieces sightingPattern text)

/-- Among some comments, a sighting is harmless if it is not taken for the placeholder of one. -/
def Sighting.IsHarmless (count : Nat) : Sighting → Prop
  | .comment => True
  | .placeholder digits => ∃ number ∈ Number.readWhole? digits, count ≤ number
  | .unclosed _ => False

/-- A text that is told apart from its protected form. Without comments nothing is put back, so that
everything is harmless. -/
structure Unmistakable (text : Text) : Prop where
  few : (protectComments text).2.length ≤ Number.powerOfTen Number.digitLimit
  harmless : (protectComments text).2 ≠ [] →
    ∀ sighting ∈ sightings text, sighting.IsHarmless (protectComments text).2.length

/-! ## Scanning for sightings -/

theorem contextFree_sightingPattern : ContextFree sightingPattern := fun _ _ text => by
  unfold sightingPattern
  split <;> rfl

variable {c : Char} {text rest digits : Text} {more number : Nat}

theorem sightings_cons_none (hnone : sightingPattern none (c :: text) = none) :
    sightings (c :: text) = sightings text := by
  rw [sightings, pieces_cons_plain contextFree_sightingPattern hnone]
  rfl

theorem sightings_cons_some {sighting : Sighting}
    (hsome : sightingPattern none (c :: text) = some (sighting, more)) :
    sightings (c :: text) = sighting :: sightings (text.drop more) := by
  rw [sightings, pieces_cons_found contextFree_sightingPattern hsome]
  rfl

theorem exists_of_commentPattern (hsome : commentPattern none text = some ((), more)) :
    ∃ inside, text = '<' :: inside := by
  cases text with
  | nil => cases hsome
  | cons c inside =>
      by_cases hfirst : c = '<'
      · exact ⟨inside, by rw [hfirst]⟩
      · rw [commentPattern_of_ne hfirst] at hsome
        cases hsome

/-- Text without `<` is scanned for comments character by character. -/
theorem pieces_comment_append {before : Text} (habsent : '<' ∉ before) (after : Text) :
    pieces commentPattern (before ++ after) =
      before.map .plain ++ pieces commentPattern after :=
  pieces_append_of_not_mem contextFree_commentPattern (fun _ _ => commentPattern_of_ne) habsent after

/-- A placeholder of the text's own has no part in its comments. -/
theorem commentsOf_pieces_placeholder (habsent : '<' ∉ digits) (after : Text) :
    commentsOf (pieces commentPattern ('\x00' :: (digits ++ '\x00' :: after))) =
      commentsOf (pieces commentPattern after) := by
  have hpieces := pieces_comment_append
    (show '<' ∉ '\x00' :: digits ++ ['\x00'] by simpa using habsent) after
  rw [List.append_assoc, List.singleton_append, List.cons_append] at hpieces
  rw [hpieces, commentsOf_append, commentsOf_plain, List.nil_append]

/-- A protected text begins with what the text begins with, unless that is a comment. -/
theorem head?_numberComments (hcomment : commentPattern none rest = none) :
    (numberComments number (pieces commentPattern rest)).head? = rest.head? := by
  cases rest with
  | nil => rfl
  | cons c text =>
      rw [pieces_cons_plain contextFree_commentPattern hcomment]
      rfl

/-! ## Digits -/

section Digits

variable (hdigits : ∀ c ∈ digits, Text.isDigit c = true)

include hdigits

theorem not_mem_digits (hother : Text.isDigit c = false) : c ∉ digits := fun hmem => by
  rw [hdigits c hmem] at hother
  cases hother

section Run

variable (hhead : ∀ c ∈ rest.head?, Text.isDigit c = false)

include hhead

theorem takeWhile_digits : (digits ++ rest).takeWhile Text.isDigit = digits := by
  rw [List.takeWhile_append_of_pos hdigits]
  cases rest with
  | nil => exact List.append_nil digits
  | cons c text =>
      have hother := hhead c rfl
      rw [List.takeWhile_cons_of_neg (by rw [hother]; exact Bool.false_ne_true), List.append_nil]

theorem dropWhile_digits : (digits ++ rest).dropWhile Text.isDigit = rest := by
  rw [List.dropWhile_append_of_pos hdigits]
  cases rest with
  | nil => rfl
  | cons c text =>
      have hother := hhead c rfl
      exact List.dropWhile_cons_of_neg (by rw [hother]; exact Bool.false_ne_true)

theorem sightingPattern_digits :
    sightingPattern none ('\x00' :: (digits ++ rest)) =
      if digits.isEmpty then none
      else if rest.head? = some '\x00' then some (.placeholder digits, digits.length + 1)
      else if (commentPattern none rest).isSome then some (.unclosed digits, digits.length)
      else none := by
  simp only [sightingPattern, takeWhile_digits hdigits hhead, dropWhile_digits hdigits hhead]

theorem placeholderPattern_digits (hopen : digits = [] ∨ rest.head? ≠ some '\x00') :
    placeholderPattern none ('\x00' :: (digits ++ rest)) = none := by
  simp only [placeholderPattern, takeWhile_digits hdigits hhead, dropWhile_digits hdigits hhead]
  split
  · rename_i hrest
    exact absurd rfl (hopen.resolve_left (List.cons_ne_nil _ _))
  · rfl

end Run

variable (hpositive : 0 < digits.length)

include hpositive

theorem sightings_placeholder :
    sightings ('\x00' :: (digits ++ '\x00' :: rest)) = .placeholder digits :: sightings rest := by
  have hnonempty : digits.isEmpty = false :=
    List.isEmpty_eq_false_iff.mpr (List.ne_nil_of_length_pos hpositive)
  have hsome : sightingPattern none ('\x00' :: (digits ++ '\x00' :: rest)) =
      some (.placeholder digits, digits.length + 1) := by
    rw [sightingPattern_digits hdigits, hnonempty, if_neg Bool.false_ne_true]
    · exact if_pos rfl
    · rintro c hhead
      cases hhead
      decide
  rw [sightings_cons_some hsome, List.drop_length_add_append 1]
  rfl

theorem unclosed_mem_sightings (hcomment : commentPattern none rest = some ((), more)) :
    .unclosed digits ∈ sightings ('\x00' :: (digits ++ rest)) := by
  obtain ⟨inside, rfl⟩ := exists_of_commentPattern hcomment
  have hnonempty : digits.isEmpty = false :=
    List.isEmpty_eq_false_iff.mpr (List.ne_nil_of_length_pos hpositive)
  have hsome : sightingPattern none ('\x00' :: (digits ++ '<' :: inside)) =
      some (.unclosed digits, digits.length) := by
    rw [sightingPattern_digits hdigits, hnonempty, if_neg Bool.false_ne_true, hcomment]
    · rfl
    · rintro c hhead
      cases hhead
      decide
  rw [sightings_cons_some hsome]
  exact List.mem_cons_self ..

end Digits

/-- A text up to its first character that is no digit. -/
theorem exists_digits (text : Text) :
    ∃ digits rest, text = digits ++ rest ∧ (∀ c ∈ digits, Text.isDigit c = true) ∧
      ∀ c ∈ rest.head?, Text.isDigit c = false := by
  refine ⟨text.takeWhile Text.isDigit, text.dropWhile Text.isDigit,
    List.takeWhile_append_dropWhile.symm, fun c hmem => List.mem_takeWhile_imp hmem, ?_⟩
  intro c hhead
  have hnot := List.head?_dropWhile_not Text.isDigit text
  rw [Option.mem_def.mp hhead] at hnot
  exact hnot

/-! ## How a text begins -/

/-- The ways a text can begin: with a comment, with a placeholder of its own, with digits that a
comment seems to close, or with a character that is only itself. -/
inductive Beginning : Text → Prop
  | nil : Beginning []
  | comment (inside : Text) (more : Nat)
      (hcomment : commentPattern none ('<' :: inside) = some ((), more)) :
      Beginning ('<' :: inside)
  | placeholder (digits rest : Text) (hdigits : ∀ c ∈ digits, Text.isDigit c = true)
      (hpositive : 0 < digits.length) :
      Beginning ('\x00' :: (digits ++ '\x00' :: rest))
  | unclosed (digits rest : Text) (more : Nat) (hdigits : ∀ c ∈ digits, Text.isDigit c = true)
      (hpositive : 0 < digits.length) (hcomment : commentPattern none rest = some ((), more)) :
      Beginning ('\x00' :: (digits ++ rest))
  | plain (c : Char) (text : Text) (hsighting : sightingPattern none (c :: text) = none)
      (hcomment : commentPattern none (c :: text) = none)
      (hplaceholder : ∀ number,
        placeholderPattern none (c :: numberComments number (pieces commentPattern text)) = none) :
      Beginning (c :: text)

/-- Digits that neither a NUL nor a comment closes are only themselves. -/
theorem beginning_open (hdigits : ∀ c ∈ digits, Text.isDigit c = true)
    (hhead : ∀ c ∈ rest.head?, Text.isDigit c = false)
    (hopen : digits = [] ∨ rest.head? ≠ some '\x00' ∧ commentPattern none rest = none) :
    Beginning ('\x00' :: (digits ++ rest)) := by
  refine .plain _ _ ?_ (commentPattern_of_ne (by decide)) fun number => ?_
  · rw [sightingPattern_digits hdigits hhead]
    rcases hopen with rfl | ⟨hclosed, hcomment⟩
    · rfl
    · rw [if_neg hclosed, hcomment]
      split <;> rfl
  · rw [pieces_comment_append (not_mem_digits hdigits (by decide)), numberComments_plain_append]
    rcases hopen with rfl | ⟨hclosed, hcomment⟩
    · apply placeholderPattern_digits hdigits _ (.inl rfl)
      cases hfound : commentPattern none rest with
      | none => rwa [head?_numberComments hfound]
      | some found =>
          obtain ⟨inside, rfl⟩ := exists_of_commentPattern hfound
          rw [pieces_cons_found contextFree_commentPattern hfound]
          rintro other hother
          cases hother
          decide
    · apply placeholderPattern_digits hdigits
      · rwa [head?_numberComments hcomment]
      · rw [head?_numberComments hcomment]
        exact .inr hclosed

theorem beginning_cons (c : Char) (text : Text) : Beginning (c :: text) := by
  cases hcomment : commentPattern none (c :: text) with
  | some found =>
      obtain ⟨inside, hinside⟩ := exists_of_commentPattern hcomment
      rw [hinside] at hcomment ⊢
      exact .comment inside found.2 hcomment
  | none =>
      by_cases hnul : c = '\x00'
      · subst hnul
        obtain ⟨digits, rest, rfl, hdigits, hhead⟩ := exists_digits text
        by_cases hempty : digits = []
        · exact beginning_open hdigits hhead (.inl hempty)
        have hpositive : 0 < digits.length := List.length_pos_iff.mpr hempty
        by_cases hclosed : rest.head? = some '\x00'
        · obtain ⟨others, rfl⟩ := List.head?_eq_some_iff.mp hclosed
          exact .placeholder digits others hdigits hpositive
        cases hfound : commentPattern none rest with
        | none => exact beginning_open hdigits hhead (.inr ⟨hclosed, hfound⟩)
        | some found => exact .unclosed digits rest found.2 hdigits hpositive hfound
      · refine .plain c text ?_ hcomment fun number => placeholderPattern_of_ne none hnul
        unfold sightingPattern
        split
        · rename_i hsame
          exact absurd (List.cons.inj hsame).1 hnul
        · rw [hcomment]
          rfl

theorem beginning : ∀ text : Text, Beginning text
  | [] => .nil
  | c :: text => beginning_cons c text

/-! ## Putting the comments back -/

theorem map_eq_ok_iff {ε α β : Type} {f : α → β} (hinjective : Function.Injective f)
    {result : Except ε α} {value : α} : result.map f = .ok (f value) ↔ result = .ok value := by
  cases result with
  | error error =>
      constructor
      · intro hsame
        cases hsame
      · intro hsame
        cases hsame
  | ok found => rw [Except.map, Except.ok.injEq, Except.ok.injEq, hinjective.eq_iff]

section Restoring

variable {comments : List Text} (hcomments : comments ≠ [])
variable (hbegin : ∀ comment ∈ comments, comment.head? = some '<')

include hcomments hbegin

/-- Digits between two NULs stay exactly if they spell a number that no comment has. -/
theorem restoreComments_digits_eq_ok {other : Text} (hdigits : ∀ c ∈ digits, Text.isDigit c = true)
    (hpositive : 0 < digits.length) :
    restoreComments comments ('\x00' :: (digits ++ '\x00' :: text)) =
        .ok ('\x00' :: (digits ++ other)) ↔
      (Sighting.placeholder digits).IsHarmless comments.length ∧
        ∃ restored, other = '\x00' :: restored ∧ restoreComments comments text = .ok restored := by
  rw [restoreComments_digits hcomments hdigits hpositive, restorePiece, Sighting.IsHarmless]
  cases hread : Number.readWhole? digits with
  | none =>
      constructor
      · intro hsame
        cases hsame
      · rintro ⟨⟨number, hnumber, -⟩, -⟩
        cases hnumber
  | some number =>
      change Except.map _ (restoreComments comments text) = _ ↔ _
      by_cases hcount : comments.length ≤ number
      · rw [List.getElem?_eq_none hcount, Option.getD_none]
        constructor
        · intro hsame
          cases hrestored : restoreComments comments text with
          | error error =>
              rw [hrestored] at hsame
              cases hsame
          | ok restored =>
              rw [hrestored, Except.map, Except.ok.injEq] at hsame
              simp only [List.cons_append, List.append_assoc, List.cons.injEq, true_and,
                List.append_cancel_left_eq, List.nil_append] at hsame
              exact ⟨⟨number, rfl, hcount⟩, restored, hsame.symm, rfl⟩
        · rintro ⟨-, restored, rfl, hrestored⟩
          rw [hrestored, Except.map]
          simp
      · obtain ⟨comment, hcomment⟩ : ∃ comment, comments[number]? = some comment :=
          ⟨_, List.getElem?_eq_getElem (Nat.not_le.mp hcount)⟩
        obtain ⟨inside, rfl⟩ :=
          List.head?_eq_some_iff.mp (hbegin comment (List.mem_of_getElem? hcomment))
        rw [hcomment, Option.getD_some]
        constructor
        · intro hsame
          cases hrestored : restoreComments comments text with
          | error error =>
              rw [hrestored] at hsame
              cases hsame
          | ok restored =>
              rw [hrestored, Except.map, Except.ok.injEq, List.cons_append] at hsame
              exact absurd (List.cons.inj hsame).1 (by decide)
        · rintro ⟨⟨other, hother, hleast⟩, -⟩
          cases hother
          exact absurd hleast hcount

end Restoring

/-- A text comes back from its protected form, with its comments numbered from some number on. -/
def Returns (comments : List Text) (number : Nat) (text : Text) : Prop :=
  restoreComments comments (numberComments number (pieces commentPattern text)) = .ok text

section Returning

variable {comments : List Text} (hcomments : comments ≠ [])

include hcomments

theorem returns_nil (number : Nat) : Returns comments number [] := by
  rw [Returns, pieces, piecesFrom, numberComments, restoreComments, if_neg (by simpa using hcomments)]
  rfl

omit hcomments in
/-- A character that is only itself stays. -/
theorem returns_cons_plain (hcomment : commentPattern none (c :: text) = none)
    (hplaceholder : placeholderPattern none
      (c :: numberComments number (pieces commentPattern text)) = none) :
    Returns comments number (c :: text) ↔ Returns comments number text := by
  rw [Returns, pieces_cons_plain contextFree_commentPattern hcomment, numberComments,
    restoreComments_cons_of_none hplaceholder]
  exact map_eq_ok_iff List.cons_injective

/-- A comment comes back if its number can be read. -/
theorem returns_comment (hcomment : commentPattern none (c :: text) = some ((), more))
    (hown : comments[number]? = some (c :: text.take more)) :
    Returns comments number (c :: text) ↔
      number < Number.powerOfTen Number.digitLimit ∧
        Returns comments (number + 1) (text.drop more) := by
  rw [Returns, pieces_cons_found contextFree_commentPattern hcomment, numberComments]
  by_cases hread : number < Number.powerOfTen Number.digitLimit
  · have hsplit : c :: text = (c :: text.take more) ++ text.drop more := by
      rw [List.cons_append, List.take_append_drop]
    rw [restoreComments_placeholder hcomments hread, hown, Option.getD_some, hsplit,
      map_eq_ok_iff (List.append_right_injective _), Returns, and_iff_right hread]
  · rw [restoreComments_placeholder_unread hcomments (Nat.not_lt.mp hread)]
    constructor
    · intro hsame
      cases hsame
    · exact fun hboth => absurd hboth.1 hread

variable (hbegin : ∀ comment ∈ comments, comment.head? = some '<')
variable (hdigits : ∀ c ∈ digits, Text.isDigit c = true) (hpositive : 0 < digits.length)

include hbegin hdigits hpositive

/-- A placeholder of the text stays if it is harmless. -/
theorem returns_placeholder :
    Returns comments number ('\x00' :: (digits ++ '\x00' :: rest)) ↔
      (Sighting.placeholder digits).IsHarmless comments.length ∧ Returns comments number rest := by
  have habsent : '<' ∉ '\x00' :: digits ++ ['\x00'] := by
    simpa using not_mem_digits hdigits (by decide)
  have hpieces := pieces_comment_append habsent rest
  rw [List.append_assoc, List.singleton_append, List.cons_append] at hpieces
  rw [Returns, hpieces, numberComments_plain_append, List.append_assoc, List.singleton_append,
    List.cons_append, restoreComments_digits_eq_ok hcomments hbegin hdigits hpositive]
  refine and_congr_right fun _ => ?_
  constructor
  · rintro ⟨restored, hsame, hrestored⟩
    obtain ⟨-, rfl⟩ := List.cons.inj hsame
    exact hrestored
  · exact fun hreturns => ⟨rest, rfl, hreturns⟩

/-- Digits that the placeholder of a comment seems to close do not come back. -/
theorem not_returns_unclosed (hcomment : commentPattern none rest = some ((), more)) :
    ¬Returns comments number ('\x00' :: (digits ++ rest)) := by
  obtain ⟨inside, rfl⟩ := exists_of_commentPattern hcomment
  have habsent : '<' ∉ '\x00' :: digits := by
    simpa using not_mem_digits hdigits (by decide)
  have hpieces := pieces_comment_append habsent ('<' :: inside)
  rw [List.cons_append] at hpieces
  rw [Returns, hpieces, numberComments_plain_append,
    pieces_cons_found contextFree_commentPattern hcomment, numberComments, placeholder_append,
    List.cons_append, restoreComments_digits_eq_ok hcomments hbegin hdigits hpositive]
  rintro ⟨-, restored, hsame, -⟩
  cases hsame

/-! ## What is told apart -/

omit hdigits hpositive in
/-- From a number on, a text comes back from its protected form exactly if the numbers of its
comments can be read and nothing in it is taken for a placeholder of them. -/
theorem returns_iff (hown : comments.drop number = commentsOf (pieces commentPattern text)) :
    Returns comments number text ↔
      (comments.length ≤ Number.powerOfTen Number.digitLimit ∨ comments.length ≤ number) ∧
        ∀ sighting ∈ sightings text, sighting.IsHarmless comments.length := by
  -- A comment or a placeholder is passed over at once, so the induction is on the length.
  induction hlength : text.length using Nat.strongRecOn generalizing text number with
  | _ length ih =>
      cases beginning text with
      | nil =>
          have hall : comments.length ≤ number := List.drop_eq_nil_iff.mp hown
          exact iff_of_true (returns_nil hcomments number)
            ⟨.inr hall, fun _ hmem => by cases hmem⟩
      | comment inside more hcomment =>
          rw [List.length_cons] at hlength
          have hsighting : sightingPattern none ('<' :: inside) = some (.comment, more) := by
            simp [sightingPattern, hcomment]
          rw [pieces_cons_found contextFree_commentPattern hcomment] at hown
          have hfirst : comments[number]? = some ('<' :: inside.take more) := by
            rw [← List.head?_drop, hown]
            rfl
          have hrest : comments.drop (number + 1) =
              commentsOf (pieces commentPattern (inside.drop more)) := by
            rw [← List.tail_drop, hown]
            rfl
          have hnumber : number < comments.length := (List.getElem?_eq_some_iff.mp hfirst).1
          have hshorter : (inside.drop more).length < length := by
            rw [List.length_drop]
            omega
          have hroom : ∀ most, number < most ∧
              (comments.length ≤ most ∨ comments.length ≤ number + 1) ↔
                (comments.length ≤ most ∨ comments.length ≤ number) := fun most => by omega
          rw [returns_comment hcomments hcomment hfirst, sightings_cons_some hsighting,
            List.forall_mem_cons, ih _ hshorter hrest rfl, ← and_assoc, hroom,
            Sighting.IsHarmless, true_and]
      | placeholder digits rest hdigits hpositive =>
          have hshorter : rest.length < length := by
            rw [List.length_cons, List.length_append, List.length_cons] at hlength
            omega
          rw [commentsOf_pieces_placeholder (not_mem_digits hdigits (by decide))] at hown
          rw [returns_placeholder hcomments hbegin hdigits hpositive,
            sightings_placeholder hdigits hpositive, List.forall_mem_cons,
            ih _ hshorter hown rfl, and_left_comm]
      | unclosed digits rest more hdigits hpositive hcomment =>
          refine iff_of_false (not_returns_unclosed hcomments hbegin hdigits hpositive hcomment)
            fun hharmless => hharmless.2 (.unclosed digits) ?_
          exact unclosed_mem_sightings hdigits hpositive hcomment
      | plain c rest hsighting hcomment hplaceholder =>
          rw [List.length_cons] at hlength
          rw [returns_cons_plain hcomment (hplaceholder number), sightings_cons_none hsighting]
          rw [pieces_cons_plain contextFree_commentPattern hcomment] at hown
          exact ih rest.length (by omega) hown rfl

end Returning

theorem head?_of_mem_comments {comment : Text} (hmem : comment ∈ (protectComments text).2) :
    comment.head? = some '<' := by
  rw [protectComments] at hmem
  induction hlength : text.length using Nat.strongRecOn generalizing text with
  | _ length ih =>
      cases text with
      | nil => cases hmem
      | cons c text =>
          rw [List.length_cons] at hlength
          cases hcomment : commentPattern none (c :: text) with
          | none =>
              rw [pieces_cons_plain contextFree_commentPattern hcomment] at hmem
              exact ih text.length (by omega) hmem rfl
          | some found =>
              obtain ⟨inside, hinside⟩ := exists_of_commentPattern hcomment
              obtain ⟨rfl, rfl⟩ := List.cons.inj hinside
              rw [pieces_cons_found contextFree_commentPattern hcomment] at hmem
              rcases List.mem_cons.mp hmem with rfl | hmem
              · rfl
              · refine ih (text.drop found.2).length ?_ hmem rfl
                rw [List.length_drop]
                omega

/-- Putting back the comments of a protected text gives the text exactly if it is told apart. -/
theorem restoreComments_protectComments_iff (text : Text) :
    restoreComments (protectComments text).2 (protectComments text).1 = .ok text ↔
      Unmistakable text := by
  by_cases hcomments : (protectComments text).2 = []
  · refine iff_of_true ?_ ⟨?_, fun hsome => absurd hcomments hsome⟩
    · rw [hcomments, protectComments_of_nil hcomments]
      rfl
    · rw [hcomments]
      exact Nat.zero_le _
  · have hpositive : ¬(protectComments text).2.length ≤ 0 := by
      rwa [Nat.le_zero, List.length_eq_zero_iff]
    have hreturns : Returns (protectComments text).2 0 text ↔ _ :=
      returns_iff hcomments (fun _ => head?_of_mem_comments) rfl
    rw [or_iff_left hpositive] at hreturns
    exact hreturns.trans ⟨fun hboth => ⟨hboth.1, fun _ => hboth.2⟩,
      fun hunmistakable => ⟨hunmistakable.few, hunmistakable.harmless hcomments⟩⟩

end PageLoom.Markup
