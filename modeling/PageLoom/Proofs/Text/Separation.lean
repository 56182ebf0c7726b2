import PageLoom.Proofs.Text.Replace

/-!
# Texts and the pieces between marks

A mark separates a text into pieces if it stands between any two of them and in none. Every text is
separated by every mark, and only in one way if no proper end of the mark begins it. Cutting at a
character gives the pieces that the character separates, and replacing a mark puts the new text
between the pieces in its place.
-/

namespace PageLoom.Text

/-- Between the pieces the mark stands, and in none of them. -/
structure Separates (mark text : Text) (pieces : List Text) : Prop where
  exists_piece : pieces ≠ []
  joined : joinWith mark pieces = text
  apart : ∀ piece ∈ pieces, ¬mark <:+: piece

/-- A mark that begins nowhere inside of itself. -/
structure Unbordered (mark : Text) : Prop where
  ne_nil : mark ≠ []
  whole : ∀ {inside rest : Text}, inside ≠ [] → inside <:+ mark → mark <+: inside ++ rest →
    inside = mark

variable {mark new text piece : Text} {pieces : List Text} {separator : Char}

theorem joinWith_cons (separator part : Text) (parts : List Text) :
    joinWith separator (part :: parts) = part ++ parts.flatMap (separator ++ ·) := by
  induction parts generalizing part with
  | nil => simp [joinWith]
  | cons next parts ih => simp [joinWith, ih]

theorem joinWith_cons_of_ne_nil (mark piece : Text) (hpieces : pieces ≠ []) :
    joinWith mark (piece :: pieces) = piece ++ mark ++ joinWith mark pieces := by
  obtain ⟨next, others, rfl⟩ := List.exists_cons_of_ne_nil hpieces
  rfl

/-! ## Separation -/

theorem separates_singleton (habsent : ¬mark <:+: text) : Separates mark text [text] where
  exists_piece := List.cons_ne_nil _ _
  joined := rfl
  apart := by simpa using habsent

theorem Separates.cons (hpiece : ¬mark <:+: piece) (htext : Separates mark text pieces) :
    Separates mark (piece ++ mark ++ text) (piece :: pieces) where
  exists_piece := List.cons_ne_nil _ _
  joined := by rw [joinWith_cons_of_ne_nil mark piece htext.exists_piece, htext.joined]
  apart := List.forall_mem_cons.mpr ⟨hpiece, htext.apart⟩

/-- A character in front of the text belongs to the first piece, unless the mark begins there. -/
theorem Separates.extend {c : Char} (hstart : ¬mark <+: c :: text)
    (htext : Separates mark text (piece :: pieces)) :
    Separates mark (c :: text) ((c :: piece) :: pieces) := by
  have hjoined := htext.joined
  rw [joinWith_cons] at hjoined
  refine ⟨List.cons_ne_nil _ _, ?_, List.forall_mem_cons.mpr ⟨?_, ?_⟩⟩
  · rw [joinWith_cons, List.cons_append, hjoined]
  · rw [List.infix_cons_iff, not_or]
    refine ⟨fun hprefixed => hstart ?_, htext.apart piece (List.mem_cons_self ..)⟩
    rw [← hjoined]
    exact hprefixed.trans (List.prefix_append (c :: piece) _)
  · exact fun other hmem => htext.apart other (List.mem_cons_of_mem _ hmem)

theorem exists_separates (hmark : mark ≠ []) (text : Text) :
    ∃ pieces, Separates mark text pieces := by
  induction text using induction_marks [mark] (by simpa using hmark) with
  | nil => exact ⟨[[]], separates_singleton (by simpa using hmark)⟩
  | mark found hmem rest ih =>
      obtain rfl := List.mem_singleton.mp hmem
      obtain ⟨pieces, hpieces⟩ := ih
      exact ⟨[] :: pieces, hpieces.cons fun hinside => hmark (List.infix_nil.mp hinside)⟩
  | plain c rest habsent ih =>
      obtain ⟨pieces, hpieces⟩ := ih
      obtain ⟨piece, others, rfl⟩ := List.exists_cons_of_ne_nil hpieces.exists_piece
      exact ⟨(c :: piece) :: others,
        hpieces.extend (habsent mark (List.mem_singleton_self mark))⟩

/-! ## Replacing a mark -/

/-- A mark without borders does not begin in a piece that it is not in, even if it follows it. -/
theorem Unbordered.not_prefix (hmark : Unbordered mark) (hpiece : ¬mark <:+: piece) (after : Text) :
    ∀ c rest, c :: rest <:+ piece → ¬mark <+: c :: rest ++ (mark ++ after) := by
  rintro c rest hsuffix ⟨following, hfollowing⟩
  rcases List.append_eq_append_iff.mp hfollowing with ⟨others, hsame, -⟩ | ⟨inside, hsame, hlater⟩
  · exact hpiece (List.IsInfix.trans ⟨[], others, hsame.symm⟩ hsuffix.isInfix)
  · have hne : inside ≠ [] := by
      rintro rfl
      rw [List.append_nil] at hsame
      exact hpiece (hsame ▸ hsuffix.isInfix)
    have hlength := congrArg List.length hsame
    rw [List.length_append, List.length_cons] at hlength
    obtain ⟨others, hothers⟩ : inside <+: mark :=
      List.prefix_of_prefix_length_le ⟨following, hlater.symm⟩ (List.prefix_append mark after)
        (by omega)
    have hstart : mark <+: inside ++ others := ⟨[], by rw [List.append_nil, hothers]⟩
    rw [hmark.whole hne ⟨c :: rest, hsame.symm⟩ hstart] at hlength
    omega

/-- Replacing a mark puts the new text where the mark stood, and leaves the pieces alone. -/
theorem Separates.replaceAll (hmark : Unbordered mark) (htext : Separates mark text pieces)
    (new : Text) : replaceAll mark new text = joinWith new pieces := by
  obtain ⟨-, rfl, hapart⟩ := htext
  induction pieces with
  | nil => rfl
  | cons piece others ih =>
      rw [List.forall_mem_cons] at hapart
      cases others with
      | nil => exact replaceAll_of_not_infix hapart.1
      | cons next others =>
          rw [joinWith_cons_of_ne_nil mark piece (List.cons_ne_nil _ _),
            joinWith_cons_of_ne_nil new piece (List.cons_ne_nil _ _), List.append_assoc,
            replaceAll_append_passed (hmark.not_prefix hapart.1 _), replaceAll_append hmark.ne_nil,
            ih hapart.2, List.append_assoc]

/-! ## Cutting at a character -/

theorem not_mem_of_mem_splitOn (hmem : piece ∈ splitOn separator text) : separator ∉ piece := by
  induction text generalizing piece with
  | nil =>
      cases List.mem_singleton.mp hmem
      exact List.not_mem_nil
  | cons c text ih =>
      rw [splitOn] at hmem
      split at hmem
      · rcases List.mem_cons.mp hmem with rfl | hmem
        · exact List.not_mem_nil
        · exact ih hmem
      · next hother =>
        cases hparts : splitOn separator text with
        | nil => exact absurd hparts (splitOn_ne_nil separator text)
        | cons part parts =>
            rw [hparts] at hmem ih
            rcases List.mem_cons.mp hmem with rfl | hmem
            · rw [List.mem_cons, not_or]
              exact ⟨Ne.symm hother, ih (List.mem_cons_self ..)⟩
            · exact ih (List.mem_cons_of_mem _ hmem)

/-- Joining the pieces that a text is cut into gives that text. -/
theorem joinWith_splitOn (separator : Char) (text : Text) :
    joinWith [separator] (splitOn separator text) = text := by
  induction text with
  | nil => rfl
  | cons c text ih =>
      rw [splitOn]
      split
      · next hsame =>
        rw [joinWith_cons_of_ne_nil _ _ (splitOn_ne_nil separator text), ih, hsame]
        rfl
      · cases hparts : splitOn separator text with
        | nil => exact absurd hparts (splitOn_ne_nil separator text)
        | cons part parts =>
            rw [hparts, joinWith_cons] at ih
            change joinWith [separator] ((c :: part) :: parts) = c :: text
            rw [joinWith_cons, List.cons_append, ih]

theorem separates_splitOn (separator : Char) (text : Text) :
    Separates [separator] text (splitOn separator text) where
  exists_piece := splitOn_ne_nil separator text
  joined := joinWith_splitOn separator text
  apart piece hmem := by
    rw [List.singleton_infix_iff]
    exact not_mem_of_mem_splitOn hmem

theorem splitOn_of_not_mem (hnone : separator ∉ text) : splitOn separator text = [text] := by
  induction text with
  | nil => rfl
  | cons c text ih =>
      rw [List.mem_cons, not_or] at hnone
      rw [splitOn, if_neg (Ne.symm hnone.1), ih hnone.2]

theorem splitOn_append (hpiece : separator ∉ piece) (text : Text) :
    splitOn separator (piece ++ separator :: text) = piece :: splitOn separator text := by
  induction piece with
  | nil => rw [List.nil_append, splitOn, if_pos rfl]
  | cons c piece ih =>
      rw [List.mem_cons, not_or] at hpiece
      rw [List.cons_append, splitOn, if_neg (Ne.symm hpiece.1), ih hpiece.2]

/-- A character separates a text in one way only. -/
theorem Separates.splitOn_eq (htext : Separates [separator] text pieces) :
    splitOn separator text = pieces := by
  obtain ⟨hsome, rfl, hapart⟩ := htext
  induction pieces with
  | nil => exact absurd rfl hsome
  | cons piece others ih =>
      rw [List.forall_mem_cons, List.singleton_infix_iff] at hapart
      cases others with
      | nil => exact splitOn_of_not_mem hapart.1
      | cons next others =>
          rw [joinWith_cons_of_ne_nil _ _ (List.cons_ne_nil _ _), List.append_assoc,
            List.singleton_append, splitOn_append hapart.1,
            ih (List.cons_ne_nil _ _) hapart.2]

end PageLoom.Text
