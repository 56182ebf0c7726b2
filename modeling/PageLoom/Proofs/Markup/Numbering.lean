import PageLoom.Proofs.Markup.Restoration
import PageLoom.Proofs.Text.Scan

/-!
# Putting comments back by their numbers

Restoring works from left to right, text without NUL staying as it is and each placeholder giving
way to the comment with its number. A list of comments need not be the one that the placeholders
were made for; if it is, the protected text becomes the text again.
-/

namespace PageLoom.Markup

open Scan

variable {comments : List Text} {before text : Text}

theorem contextFree_placeholderPattern : ContextFree placeholderPattern := fun _ _ _ => rfl

theorem contextFree_commentPattern : ContextFree commentPattern := fun _ _ _ => rfl

theorem contextFree_tagPattern (place : Place) : ContextFree (tagPattern place) := fun _ _ _ => rfl

theorem commentPattern_of_ne {c : Char} (hother : c ≠ '<') :
    commentPattern none (c :: text) = none := by
  have hstart : Text.afterStart? "<!--".toList (c :: text) = none := by
    rw [Text.afterStart?_eq_none]
    rintro ⟨rest, hsplit⟩
    exact hother (List.cons.inj hsplit).1.symm
  rw [commentPattern, hstart]

/-! ## Restoring from left to right -/

@[simp]
theorem restoreComments_nil (comments : List Text) : restoreComments comments [] = .ok [] := by
  unfold restoreComments
  split <;> rfl

theorem restoreComments_cons_of_none {c : Char}
    (hnone : placeholderPattern none (c :: text) = none) :
    restoreComments comments (c :: text) = (restoreComments comments text).map (c :: ·) := by
  unfold restoreComments
  split
  · rfl
  · rw [pieces_cons_plain contextFree_placeholderPattern hnone, List.mapM_cons]
    cases (pieces placeholderPattern text).mapM (restorePiece comments) <;> rfl

theorem restoreComments_cons {c : Char} (hplain : c ≠ '\x00') :
    restoreComments comments (c :: text) = (restoreComments comments text).map (c :: ·) :=
  restoreComments_cons_of_none (placeholderPattern_of_ne none hplain)

/-- Text without NUL stays. -/
theorem restoreComments_append (habsent : '\x00' ∉ before) :
    restoreComments comments (before ++ text) =
      (restoreComments comments text).map (before ++ ·) := by
  induction before with
  | nil => cases h : restoreComments comments text <;> exact h
  | cons c before ih =>
      rw [List.mem_cons, not_or] at habsent
      rw [List.cons_append, restoreComments_cons (Ne.symm habsent.1), ih habsent.2]
      cases restoreComments comments text <;> rfl

theorem restoreComments_digits (hcomments : comments ≠ []) {digits : Text}
    (hdigits : ∀ c ∈ digits, Text.isDigit c = true) (hpositive : 0 < digits.length) :
    restoreComments comments ('\x00' :: (digits ++ '\x00' :: text)) = (do
      let new ← restorePiece comments (.found ('\x00' :: digits ++ ['\x00']) digits)
      (restoreComments comments text).map (new ++ ·)) := by
  have hsource : (digits ++ '\x00' :: text).take (digits.length + 1) = digits ++ ['\x00'] :=
    List.take_length_add_append 1
  have hrest : (digits ++ '\x00' :: text).drop (digits.length + 1) = text :=
    List.drop_length_add_append 1
  unfold restoreComments
  rw [if_neg (by simpa using hcomments), if_neg (by simpa using hcomments),
    pieces_cons_found contextFree_placeholderPattern
      (placeholderPattern_of_digits none hdigits hpositive text), hsource, hrest, List.mapM_cons,
    List.cons_append]
  cases restorePiece comments (.found ('\x00' :: (digits ++ ['\x00'])) digits) with
  | error fault => rfl
  | ok new => cases (pieces placeholderPattern text).mapM (restorePiece comments) <;> rfl

/-! ## Numbered placeholders -/

variable {number : Nat}

theorem placeholder_append (number : Nat) (text : Text) :
    placeholder number ++ text = '\x00' :: (Text.ofNat number ++ '\x00' :: text) := by
  simp [placeholder]

theorem restoreComments_placeholder (hcomments : comments ≠ [])
    (hnumber : number < Number.powerOfTen Number.digitLimit) :
    restoreComments comments (placeholder number ++ text) =
      (restoreComments comments text).map ((comments[number]?.getD (placeholder number)) ++ ·) := by
  rw [placeholder_append, restoreComments_digits hcomments (fun _ => Number.isDigit_of_mem_ofNat)
    Nat.length_toDigits_pos, restorePiece, Number.readWhole?_ofNat hnumber]
  rfl

theorem restoreComments_placeholder_unread (hcomments : comments ≠ [])
    (hnumber : Number.powerOfTen Number.digitLimit ≤ number) :
    restoreComments comments (placeholder number ++ text) = .error .tooManyDigits := by
  rw [placeholder_append, restoreComments_digits hcomments (fun _ => Number.isDigit_of_mem_ofNat)
    Nat.length_toDigits_pos, restorePiece, Number.readWhole?_ofNat_eq_none hnumber]
  rfl

theorem length_commentsOf_found (source : Text) (value : Unit) (found : List (Piece Unit)) :
    (commentsOf (.found source value :: found)).length = (commentsOf found).length + 1 := rfl

/-- Some pieces with the comments from a number on in the place of those that were found. -/
def renumbered (comments : List Text) : Nat → List (Piece Unit) → Text
  | _, [] => []
  | number, .plain c :: rest => c :: renumbered comments number rest
  | number, .found _ _ :: rest =>
    comments[number]?.getD (placeholder number) ++ renumbered comments (number + 1) rest

theorem restoreComments_numberComments_append (hcomments : comments ≠ [])
    {found : List (Piece Unit)} (hplain : .plain '\x00' ∉ found)
    (hnumber : number + (commentsOf found).length ≤ Number.powerOfTen Number.digitLimit) :
    restoreComments comments (numberComments number found ++ text) =
      (restoreComments comments text).map (renumbered comments number found ++ ·) := by
  induction found generalizing number with
  | nil => cases h : restoreComments comments text <;> exact h
  | cons piece rest ih =>
      rw [List.mem_cons, not_or] at hplain
      cases piece with
      | plain c =>
          have hother : c ≠ '\x00' := by
            rintro rfl
            exact hplain.1 rfl
          rw [numberComments, List.cons_append, restoreComments_cons hother, ih hplain.2 hnumber]
          cases restoreComments comments text <;> rfl
      | found source value =>
          rw [length_commentsOf_found] at hnumber
          rw [numberComments, List.append_assoc, restoreComments_placeholder hcomments (by omega),
            ih hplain.2 (by omega), renumbered]
          cases restoreComments comments text with
          | error fault => rfl
          | ok text => exact congrArg Except.ok (List.append_assoc ..).symm

theorem restoreComments_numberComments (hcomments : comments ≠ []) {found : List (Piece Unit)}
    (hplain : .plain '\x00' ∉ found)
    (hnumber : number + (commentsOf found).length ≤ Number.powerOfTen Number.digitLimit) :
    restoreComments comments (numberComments number found) =
      .ok (renumbered comments number found) := by
  rw [← List.append_nil (numberComments number found),
    restoreComments_numberComments_append hcomments hplain hnumber, restoreComments_nil]
  exact congrArg Except.ok (List.append_nil _)

theorem renumbered_plain_append (text : Text) (found : List (Piece Unit)) :
    renumbered comments number (text.map .plain ++ found) =
      text ++ renumbered comments number found := by
  induction text with
  | nil => rfl
  | cons c text ih => exact congrArg (c :: ·) ih

/-- Numbers beyond the comments keep their placeholders. -/
theorem renumbered_of_length_le {found : List (Piece Unit)} (hnumber : comments.length ≤ number) :
    renumbered comments number found = numberComments number found := by
  induction found generalizing number with
  | nil => rfl
  | cons piece rest ih =>
      cases piece with
      | plain c => exact congrArg (c :: ·) (ih hnumber)
      | found source value =>
          rw [renumbered, numberComments, List.getElem?_eq_none hnumber, Option.getD_none,
            ih (Nat.le_succ_of_le hnumber)]

/-- Pieces renumbered by their own comments are the text that they came from. -/
theorem renumbered_of_prefix {found : List (Piece Unit)}
    (hcomments : commentsOf found <+: comments.drop number) :
    renumbered comments number found = sourceOf found := by
  induction found generalizing number with
  | nil => rfl
  | cons piece rest ih =>
      cases piece with
      | plain c => rw [renumbered, ih hcomments]; rfl
      | found source value =>
          obtain ⟨others, hdropped⟩ := hcomments
          have hfirst : comments[number]? = some source := by
            rw [← List.head?_drop, ← hdropped]
            rfl
          have hrest : comments.drop (number + 1) = commentsOf rest ++ others := by
            rw [← List.tail_drop, ← hdropped]
            rfl
          rw [renumbered, hfirst, ih ⟨others, hrest.symm⟩]
          rfl

theorem renumbered_commentsOf {found : List (Piece Unit)}
    (hcomments : comments.drop number = commentsOf found) :
    renumbered comments number found = sourceOf found :=
  renumbered_of_prefix (hcomments ▸ List.prefix_rfl)

theorem numberComments_of_nil {found : List (Piece Unit)} (hnone : commentsOf found = []) :
    numberComments number found = sourceOf found := by
  induction found with
  | nil => rfl
  | cons piece rest ih =>
      cases piece with
      | plain c => rw [numberComments, ih hnone]; rfl
      | found source value => cases hnone

theorem not_mem_placeholder {c : Char} (hmark : IsMark c) : c ∉ placeholder number := by
  intro hmem
  rcases List.mem_cons.mp hmem with hnul | hmem
  · exact hmark.1 hnul
  · rcases List.mem_append.mp hmem with hdigit | hnul
    · exact Bool.false_ne_true (hmark.2.symm.trans (Number.isDigit_of_mem_ofNat hdigit))
    · exact hmark.1 (List.mem_singleton.mp hnul)

theorem plain_mem_pieces {α : Type} {pattern : Pattern α} {c : Char}
    (hmem : .plain c ∈ pieces pattern text) : c ∈ text := by
  rw [← sourceOf_pieces pattern text, sourceOf, List.mem_flatMap]
  exact ⟨.plain c, hmem, List.mem_singleton_self c⟩

/-- The marks of a protected text are those outside of comments. -/
theorem mem_numberComments {c : Char} (hmark : IsMark c) {found : List (Piece Unit)} :
    c ∈ numberComments number found ↔ .plain c ∈ found := by
  induction found generalizing number with
  | nil => simp [numberComments]
  | cons piece rest ih =>
      cases piece with
      | plain other => simp [numberComments, ih]
      | found source value => simp [numberComments, ih, not_mem_placeholder hmark]

theorem mem_of_mem_protectComments {c : Char} (hmark : IsMark c)
    (hmem : c ∈ (protectComments text).1) : c ∈ text :=
  plain_mem_pieces ((mem_numberComments hmark).mp hmem)

theorem numberComments_plain_append (text : Text) (found : List (Piece Unit)) :
    numberComments number (text.map .plain ++ found) = text ++ numberComments number found := by
  induction text with
  | nil => rfl
  | cons c text ih => exact congrArg (c :: ·) ih

@[simp]
theorem numberComments_plain (text : Text) : numberComments number (text.map .plain) = text := by
  simpa [numberComments] using @numberComments_plain_append number text []

/-- The second of two texts is numbered on from the first. -/
theorem numberComments_append (found others : List (Piece Unit)) :
    numberComments number (found ++ others) =
      numberComments number found ++
        numberComments (number + (commentsOf found).length) others := by
  induction found generalizing number with
  | nil => rfl
  | cons piece rest ih =>
      cases piece with
      | plain c => exact congrArg (c :: ·) ih
      | found source value =>
          rw [List.cons_append, numberComments, ih, numberComments, List.append_assoc,
            length_commentsOf_found, Nat.add_right_comm, Nat.add_assoc]

theorem numberComments_append_plain (found : List (Piece Unit)) (text : Text) :
    numberComments number (found ++ text.map .plain) = numberComments number found ++ text := by
  rw [numberComments_append, numberComments_plain]

theorem commentsOf_append (found others : List (Piece Unit)) :
    commentsOf (found ++ others) = commentsOf found ++ commentsOf others :=
  List.filterMap_append

@[simp]
theorem commentsOf_plain (text : Text) : commentsOf (text.map .plain) = [] := by
  simp [commentsOf]

/-- A text without comments stays. -/
theorem protectComments_of_nil (hnone : (protectComments text).2 = []) :
    (protectComments text).1 = text :=
  (numberComments_of_nil hnone).trans (sourceOf_pieces commentPattern text)

/-- Protecting the comments of a text and putting them back gives the text. -/
theorem restoreComments_protectComments (habsent : '\x00' ∉ text)
    (hfew : (protectComments text).2.length ≤ Number.powerOfTen Number.digitLimit) :
    restoreComments (protectComments text).2 (protectComments text).1 = .ok text := by
  have hsource : renumbered (protectComments text).2 0 (pieces commentPattern text) = text :=
    (renumbered_commentsOf rfl).trans (sourceOf_pieces commentPattern text)
  cases hcomments : (protectComments text).2 with
  | nil =>
      rw [protectComments_of_nil hcomments]
      rfl
  | cons first others =>
      rw [← hcomments]
      nth_rewrite 3 [← hsource]
      exact restoreComments_numberComments (by rw [hcomments]; exact List.cons_ne_nil _ _)
        (fun hmem => habsent (plain_mem_pieces hmem)) (by rwa [Nat.zero_add])

end PageLoom.Markup
