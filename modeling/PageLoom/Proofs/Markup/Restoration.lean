import Mathlib.Data.List.TakeWhile
import PageLoom.Markup.Attribute
import PageLoom.Markup.Tag
import PageLoom.Proofs.Markup.Grammar
import PageLoom.Proofs.Markup.Sealed
import PageLoom.Proofs.Number.Numeral
import PageLoom.Proofs.Table

/-!
# Comments, tags and attributes of sealed texts

Placeholders seal the comments that they stand for, and comments can always be put back into a
sealed text of which all numbers can be read. The attributes of a tag in a sealed text are sealed,
as a tag, its attributes and their values all stand between marks.
-/

namespace PageLoom.Markup

open Scan

variable {limit start finish : Option Nat} {text : Text}

/-! ## Placeholders for comments -/

theorem marked_commentPattern : Marked commentPattern := by
  intro before c text value more hfound
  unfold commentPattern at hfound
  split at hfound
  · cases hfound
  · rename_i inside hopening
    split at hfound
    · rename_i comment rest hclosing
      cases hfound
      have hopened := Text.eq_append_of_afterStart? hopening
      have hclosed := Text.eq_append_of_cutAt? hclosing
      rw [show "<!--".toList = ['<', '!', '-', '-'] from rfl] at hopened
      rw [show "-->".toList = ['-', '-', '>'] from rfl] at hclosed
      obtain ⟨rfl, rfl⟩ := List.cons.inj hopened
      refine ⟨by decide, '!' :: '-' :: '-' :: comment ++ ['-', '-'], '>', rest, ?_, by decide, ?_⟩
      · rw [hclosed]
        simp
      · simp
    · cases hfound

theorem leads_digits {digits : Text} (hdigits : ∀ c ∈ digits, Text.isDigit c = true) {count : Nat}
    (hcount : ∀ most ∈ limit, count + digits.length ≤ most) :
    Leads limit (some count) digits (some (count + digits.length)) := by
  induction digits generalizing count with
  | nil => exact leads_nil.mpr rfl
  | cons c digits ih =>
      have hdigit := hdigits c (List.mem_cons_self ..)
      have hother : c ≠ '\x00' := by
        rintro rfl
        cases hdigit
      have hlength : count + (c :: digits).length = count + 1 + digits.length := by
        rw [List.length_cons]
        omega
      rw [hlength] at hcount ⊢
      refine leads_cons.mpr ⟨some (count + 1), ?_, ?_⟩
      · have hroom : limit.all (count < ·) = true := by
          rw [Option.all_eq_true]
          intro most hmost
          have hleast := hcount most hmost
          exact decide_eq_true (by omega)
        rw [advance?, if_neg hother, if_pos (by simp [hdigit, hroom])]
      · exact ih (fun other hmem => hdigits other (List.mem_cons_of_mem _ hmem)) hcount

theorem sealed_of_digits {digits : Text} (hdigits : ∀ c ∈ digits, Text.isDigit c = true)
    (hpositive : 0 < digits.length) (hlimit : ∀ most ∈ limit, digits.length ≤ most) :
    Sealed limit ('\x00' :: digits ++ ['\x00']) := by
  refine leads_cons.mpr ⟨some 0, rfl, leads_append.mpr ⟨some (0 + digits.length), ?_, ?_⟩⟩
  · apply leads_digits hdigits
    rwa [Nat.zero_add]
  refine leads_cons.mpr ⟨none, ?_, leads_nil.mpr rfl⟩
  rw [advance?, if_pos rfl, if_neg (by omega)]

/-- A limit to the digits leaves room for the numbers below some count. -/
def LeavesRoom (limit : Option Nat) (count : Nat) : Prop :=
  ∀ most ∈ limit, 0 < most ∧ count ≤ Number.powerOfTen most

theorem LeavesRoom.of_le {count other : Nat} (hroom : LeavesRoom limit count)
    (hle : other ≤ count) : LeavesRoom limit other :=
  fun most hmost => ⟨(hroom most hmost).1, hle.trans (hroom most hmost).2⟩

theorem leavesRoom_none (count : Nat) : LeavesRoom none count := fun most hmost => by cases hmost

theorem leavesRoom_digitLimit {count : Nat}
    (hcount : count ≤ Number.powerOfTen Number.digitLimit) :
    LeavesRoom (some Number.digitLimit) count := by
  intro most hmost
  rw [← Option.some.inj (Option.mem_def.mp hmost)]
  exact ⟨by decide, hcount⟩

theorem sealed_placeholder {number : Nat} (hroom : LeavesRoom limit (number + 1)) :
    Sealed limit (placeholder number) := by
  apply sealed_of_digits
  · exact fun c => Number.isDigit_of_mem_ofNat
  · exact Nat.length_toDigits_pos
  · exact fun most hmost => (Number.length_ofNat_le_iff (hroom most hmost).1).mpr (hroom most hmost).2

/-- Every comment gives way to a sealed placeholder, if there are not too many of them. -/
theorem leads_numberComments {found : List (Piece Unit)} {number : Nat}
    (hroom : LeavesRoom limit (number + (commentsOf found).length))
    (hfound : Threads limit start found finish) :
    Leads limit start (numberComments number found) finish := by
  induction found generalizing start number with
  | nil => exact leads_nil.mpr hfound
  | cons piece rest ih =>
      cases piece with
      | plain c =>
          obtain ⟨between, hadvance, hrest⟩ := hfound
          exact leads_cons.mpr ⟨between, hadvance, ih hroom hrest⟩
      | found source value =>
          obtain ⟨rfl, -, hrest⟩ := hfound
          have hlength : (commentsOf (.found source value :: rest)).length =
              (commentsOf rest).length + 1 := rfl
          rw [hlength] at hroom
          refine leads_append.mpr ⟨none, sealed_placeholder ?_, ih ?_ hrest⟩
          · exact hroom.of_le (by omega)
          · exact hroom.of_le (by omega)

theorem sealed_protectComments (htext : Sealed limit text)
    (hroom : LeavesRoom limit (protectComments text).2.length) :
    Sealed limit (protectComments text).1 ∧
      ∀ comment ∈ (protectComments text).2, Sealed limit comment := by
  have hfound := threads_pieces marked_commentPattern htext
  constructor
  · apply leads_numberComments ?_ hfound
    rwa [Nat.zero_add]
  · intro comment hmem
    obtain ⟨piece, hpiece, hcomment⟩ := List.mem_filterMap.mp hmem
    cases piece with
    | plain c => cases hcomment
    | found source value =>
        cases hcomment
        exact hfound.sealed_of_mem hpiece

/-! ## Putting comments back -/

/-- From inside a placeholder a sealed text goes on to the end of it. -/
theorem leads_inside {count : Nat} (hcount : ∀ most ∈ limit, count ≤ most)
    (htext : Leads limit (some count) text none) :
    ∃ digits rest, text = digits ++ '\x00' :: rest ∧ (∀ c ∈ digits, Text.isDigit c = true) ∧
      0 < count + digits.length ∧ (∀ most ∈ limit, count + digits.length ≤ most) ∧
      Sealed limit rest := by
  induction text generalizing count with
  | nil => cases leads_nil.mp htext
  | cons c text ih =>
      obtain ⟨between, hadvance, hrest⟩ := leads_cons.mp htext
      rw [advance?] at hadvance
      split at hadvance
      · rename_i hnul
        subst hnul
        split at hadvance
        · cases hadvance
        · cases hadvance
          exact ⟨[], text, rfl, by simp, by simp; omega, by simpa using hcount, hrest⟩
      · split at hadvance
        · rename_i hdigit
          cases hadvance
          simp only [Bool.and_eq_true, Option.all_eq_true, decide_eq_true_eq] at hdigit
          obtain ⟨digits, rest, rfl, hdigits, hpositive, hlimit, hrest⟩ := ih hdigit.2 hrest
          refine ⟨c :: digits, rest, rfl, ?_, ?_, ?_, hrest⟩
          · intro other hmem
            rcases List.mem_cons.mp hmem with rfl | hmem
            · exact hdigit.1
            · exact hdigits other hmem
          · rw [List.length_cons]
            omega
          · intro most hmost
            have hleast := hlimit most hmost
            rw [List.length_cons]
            omega
        · cases hadvance

theorem placeholderPattern_of_digits {digits : Text} (before : Option Char)
    (hdigits : ∀ c ∈ digits, Text.isDigit c = true) (hpositive : 0 < digits.length) (rest : Text) :
    placeholderPattern before ('\x00' :: (digits ++ '\x00' :: rest)) =
      some (digits, digits.length + 1) := by
  have htake : (digits ++ '\x00' :: rest).takeWhile Text.isDigit = digits := by
    rw [List.takeWhile_append_of_pos hdigits, List.takeWhile_cons_of_neg (by decide),
      List.append_nil]
  have hdrop : (digits ++ '\x00' :: rest).dropWhile Text.isDigit = '\x00' :: rest := by
    rw [List.dropWhile_append_of_pos hdigits, List.dropWhile_cons_of_neg (by decide)]
  obtain ⟨first, others, rfl⟩ := List.exists_cons_of_length_pos hpositive
  simp only [placeholderPattern, htake, hdrop]

theorem placeholderPattern_of_ne {c : Char} (before : Option Char) (hother : c ≠ '\x00') :
    placeholderPattern before (c :: text) = none := by
  unfold placeholderPattern
  split
  · rename_i hsame
    exact absurd (List.cons.inj hsame).1 hother
  · rfl

/-- A text of which all numbers can be read. -/
abbrev Readable (text : Text) : Prop := Sealed (some Number.digitLimit) text

theorem restorePieces_ok {comments : List Text} (hcomments : ∀ comment ∈ comments, Readable comment)
    {skip : Nat} {before : Option Char} (htext : Readable (text.drop skip)) :
    ∃ restored, (piecesFrom placeholderPattern skip before text).mapM (restorePiece comments) =
      .ok restored ∧ Readable restored.flatten := by
  induction text generalizing skip before with
  | nil => exact ⟨[], rfl, sealed_nil⟩
  | cons c text ih =>
      cases skip with
      | succ skip => exact ih htext
      | zero =>
          obtain ⟨between, hadvance, hrest⟩ := leads_cons.mp htext
          by_cases hnul : c = '\x00'
          · subst hnul
            cases hadvance
            obtain ⟨digits, rest, rfl, hdigits, hpositive, hlimit, hafter⟩ :=
              leads_inside (fun _ _ => Nat.zero_le _) hrest
            simp only [Nat.zero_add] at hpositive hlimit
            have hshort := hlimit _ rfl
            have hdrop : (digits ++ '\x00' :: rest).drop (digits.length + 1) = rest :=
              List.drop_length_add_append 1
            obtain ⟨restored, hrun, hrestored⟩ :=
              @ih (digits.length + 1) (some '\x00') (by rwa [hdrop])
            have hread : Number.readWhole? digits =
                some (Number.digitsValue (digits.map Number.plainDigit)) := by
              rw [Number.readWhole?, if_neg (by omega)]
            have hsource : '\x00' :: (digits ++ '\x00' :: rest).take (digits.length + 1) =
                '\x00' :: digits ++ ['\x00'] := by
              rw [List.take_length_add_append, List.take_succ_cons, List.take_zero,
                List.cons_append]
            simp only [piecesFrom, placeholderPattern_of_digits before hdigits hpositive]
            rw [List.mapM_cons, restorePiece, hread, hrun, hsource]
            refine ⟨_, rfl, Sealed.append ?_ hrestored⟩
            cases hcomment : comments[Number.digitsValue (digits.map Number.plainDigit)]? with
            | none => exact sealed_of_digits hdigits hpositive hlimit
            | some comment => exact hcomments comment (List.mem_of_getElem? hcomment)
          · rw [advance?, if_neg hnul] at hadvance
            cases hadvance
            obtain ⟨restored, hrun, hrestored⟩ := @ih 0 (some c) hrest
            simp only [piecesFrom, placeholderPattern_of_ne before hnul]
            rw [List.mapM_cons, hrun]
            refine ⟨_, rfl, leads_cons.mpr ⟨none, ?_, hrestored⟩⟩
            rw [advance?, if_neg hnul]

/-- Comments can be put back into a text of which all numbers can be read. -/
theorem restoreComments_ok {comments : List Text}
    (hcomments : ∀ comment ∈ comments, Readable comment) (htext : Readable text) :
    ∃ restored, restoreComments comments text = .ok restored ∧ Readable restored := by
  unfold restoreComments
  split
  · exact ⟨text, rfl, htext⟩
  · obtain ⟨restored, hrun, hrestored⟩ :=
      @restorePieces_ok text comments hcomments 0 none htext
    exact ⟨restored.flatten, by rw [pieces, hrun]; rfl, hrestored⟩

/-! ## Tags -/

/-- What names are made of. -/
def IsNamePart (c : Char) : Prop := isIdentifierPart c = true ∨ c = '/'

theorem IsComponentName.isNamePart {place : Place} {name : Text}
    (hname : IsComponentName place name) : ∀ c ∈ name, IsNamePart c := by
  obtain ⟨first, others, parts, rfl, hfirst, hothers, hparts, -⟩ := hname
  intro c hmem
  rcases List.mem_append.mp hmem with hidentifier | hmem
  · rcases List.mem_cons.mp hidentifier with rfl | hother
    · rw [Text.isIdentifierStart, Bool.or_eq_true] at hfirst
      rw [IsNamePart, isIdentifierPart, Bool.or_eq_true, Bool.or_eq_true]
      exact .inl (hfirst.imp_left .inl)
    · exact .inl (hothers c hother)
  · obtain ⟨part, hpart, hmem⟩ := List.mem_flatMap.mp hmem
    rcases List.mem_cons.mp hmem with rfl | hmem
    · exact .inr rfl
    · exact .inl ((hparts part hpart).2 c hmem)

theorem not_isNamePart_nul : ¬IsNamePart '\x00' := by
  unfold IsNamePart
  decide

theorem tagPattern_spec {place : Place} {before : Option Char} {c : Char} {tag : Tag} {more : Nat}
    (hfound : tagPattern place before (c :: text) = some (tag, more)) :
    c = '<' ∧ (∀ part ∈ tag.name, IsNamePart part) ∧ ∃ written rest,
      text = tag.name ++ written ++ '/' :: '>' :: rest ∧
      more = tag.name.length + written.length + 2 ∧
      (tag.attributes = [] ∨ ∃ blank inner, Text.isBlank blank = true ∧ written = blank :: inner ∧
        tag.attributes = blank :: Text.trimEnd inner) := by
  obtain ⟨name, inside, rest, hname, hinside, rfl, htext, rfl⟩ := tagPattern_eq_some_iff.mp hfound
  obtain ⟨rfl, rfl⟩ := List.cons.inj htext
  refine ⟨rfl, hname.isNamePart, inside, rest, by simp [Tag.written], rfl, ?_⟩
  cases inside with
  | nil => exact .inl rfl
  | cons blank inner => exact .inr ⟨blank, inner, hinside.2 blank rfl, rfl, rfl⟩

theorem marked_tagPattern (place : Place) : Marked (tagPattern place) := by
  intro before c text tag more hfound
  obtain ⟨rfl, -, written, rest, rfl, rfl, -⟩ := tagPattern_spec hfound
  refine ⟨by decide, tag.name ++ written ++ ['/'], '>', rest, by simp, by decide, ?_⟩
  rw [List.length_append, List.length_append, List.length_singleton]

/-- The attribute text of a tag in a sealed text is sealed. -/
theorem sealed_attributes {place : Place} {tag : Tag} (htext : Sealed limit text)
    (hmem : tag ∈ values (pieces (tagPattern place) text)) : Sealed limit tag.attributes := by
  obtain ⟨piece, hpiece, hvalue⟩ := List.mem_filterMap.mp hmem
  cases piece with
  | plain c => cases hvalue
  | found source found =>
      cases hvalue
      have hsource := (threads_pieces (marked_tagPattern place) htext).sealed_of_mem hpiece
      obtain ⟨before, c, rest, more, hfound, rfl⟩ := found_of_mem hpiece
      obtain ⟨rfl, hparts, written, rest, rfl, rfl, hattributes⟩ := tagPattern_spec hfound
      have habsent : '\x00' ∉ tag.name := fun hnul => not_isNamePart_nul (hparts _ hnul)
      have htake : (tag.name ++ written ++ '/' :: '>' :: rest).take
          (tag.name.length + written.length + 2) = tag.name ++ (written ++ '/' :: ['>']) := by
        rw [← List.length_append, List.take_length_add_append, List.append_assoc]
        rfl
      rw [htake, sealed_cons (by decide), Sealed, leads_append_of_not_mem habsent] at hsource
      have hwritten := ((sealed_append_mark (by decide)).mp hsource).1
      rcases hattributes with hnone | ⟨blank, inner, hblank, rfl, hsome⟩
      · rw [hnone]
        exact sealed_nil
      · have hmark := isMark_of_isBlank hblank
        rw [hsome, sealed_cons hmark]
        exact ((sealed_cons hmark).mp hwritten).trimEnd

theorem isNamePart_of_mem {place : Place} {tag : Tag}
    (hmem : tag ∈ values (pieces (tagPattern place) text)) : ∀ c ∈ tag.name, IsNamePart c := by
  obtain ⟨piece, hpiece, hvalue⟩ := List.mem_filterMap.mp hmem
  cases piece with
  | plain c => cases hvalue
  | found source found =>
      cases hvalue
      obtain ⟨before, c, rest, more, hfound, -⟩ := found_of_mem hpiece
      exact (tagPattern_spec hfound).2.1

theorem not_mem_name {place : Place} {tag : Tag}
    (hmem : tag ∈ values (pieces (tagPattern place) text)) : '\x00' ∉ tag.name :=
  fun hnul => not_isNamePart_nul (isNamePart_of_mem hmem _ hnul)

/-! ## Attributes -/

theorem attributeValue?_spec {value : Text} {more : Nat}
    (hvalue : attributeValue? text = some (value, more)) :
    ∃ before after, text = before ++ '"' :: value ++ '"' :: after ∧
      more = before.length + value.length + 2 := by
  unfold attributeValue? at hvalue
  dsimp only at hvalue
  split at hvalue
  · rename_i afterEquals hequals
    split at hvalue
    · rename_i inside hquote
      split at hvalue
      · rename_i found after hclosing
        cases hvalue
        have hclosed := Text.eq_append_of_cutAt? hclosing
        refine ⟨text.takeWhile Text.isBlank ++ '=' :: afterEquals.takeWhile Text.isBlank, after,
          ?_, ?_⟩
        · have houter := (List.takeWhile_append_dropWhile (p := Text.isBlank) (l := text)).symm
          have hinner :=
            (List.takeWhile_append_dropWhile (p := Text.isBlank) (l := afterEquals)).symm
          rw [hquote, hclosed] at hinner
          rw [hequals] at houter
          nth_rewrite 1 [houter]
          nth_rewrite 1 [hinner]
          simp
        · simp
          omega
      · cases hvalue
    · cases hvalue
  · cases hvalue

theorem isMark_of_isIdentifierStart {c : Char} (hstart : Text.isIdentifierStart c = true) :
    IsMark c := by
  have hcodes : ∀ code ∈ List.range' 65 26 ++ List.range' 97 26 ++ [95],
      IsMark (Char.ofNat code) := by
    decide
  have hmem : c.toNat ∈ List.range' 65 26 ++ List.range' 97 26 ++ [95] := by
    simp only [Text.isIdentifierStart, Text.isAsciiLetter, Bool.or_eq_true, Bool.and_eq_true,
      decide_eq_true_eq, beq_iff_eq, Char.le_def, UInt32.le_iff_toNat_le] at hstart
    simp only [List.mem_append, List.mem_range'_1, List.mem_singleton]
    rcases hstart with (⟨hleast, hmost⟩ | ⟨hleast, hmost⟩) | rfl
    · exact .inl (.inr ⟨hleast, Nat.lt_succ_of_le hmost⟩)
    · exact .inl (.inl ⟨hleast, Nat.lt_succ_of_le hmost⟩)
    · exact .inr rfl
  rw [← Char.ofNat_toNat c]
  exact hcodes _ hmem

theorem attributePattern_spec {before : Option Char} {c : Char} {found : Text × Text}
    {more : Nat} (hfound : attributePattern before (c :: text) = some (found, more)) :
    IsMark c ∧ ∃ inside after, text = inside ++ '"' :: found.2 ++ '"' :: after ∧
      more = inside.length + found.2.length + 2 := by
  simp only [attributePattern] at hfound
  split at hfound
  · cases hfound
  · rename_i hstart
    rw [Bool.not_eq_true, Bool.or_eq_false_iff, Bool.not_eq_false'] at hstart
    rw [Option.map_eq_some_iff] at hfound
    obtain ⟨⟨value, length⟩, hvalue, hsame⟩ := hfound
    cases hsame
    dsimp only
    obtain ⟨inside, after, hrest, rfl⟩ := attributeValue?_spec hvalue
    have hsplit := (List.take_append_drop (text.takeWhile isAttributePart).length text).symm
    rw [hrest] at hsplit
    have hname : (text.take (text.takeWhile isAttributePart).length).length =
        (text.takeWhile isAttributePart).length := by
      rw [List.length_take]
      exact Nat.min_eq_left (List.takeWhile_prefix _).length_le
    refine ⟨isMark_of_isIdentifierStart hstart.2,
      text.take (text.takeWhile isAttributePart).length ++ inside, after, ?_, ?_⟩
    · rw [List.append_assoc, List.append_assoc, ← List.append_assoc inside]
      exact hsplit
    · rw [List.length_append, hname]
      omega

theorem marked_attributePattern : Marked attributePattern := by
  intro before c text found more hfound
  obtain ⟨hmark, inside, after, rfl, rfl⟩ := attributePattern_spec hfound
  refine ⟨hmark, inside ++ '"' :: found.2, '"', after, rfl, by decide, ?_⟩
  rw [List.length_append, List.length_cons]
  omega

/-- A tag passes sealed values on. -/
theorem sealed_parseAttributes (htext : Sealed limit text) :
    SealedProps limit (parseAttributes text) := by
  intro pair hpair
  obtain ⟨⟨name, value⟩, hmem, rfl⟩ := List.mem_map.mp (Table.mem_ofEntries hpair)
  obtain ⟨piece, hpiece, hvalue⟩ := List.mem_filterMap.mp hmem
  cases piece with
  | plain c => cases hvalue
  | found source found =>
      cases hvalue
      have hsource := (threads_pieces marked_attributePattern htext).sealed_of_mem hpiece
      obtain ⟨before, c, rest, more, hfound, rfl⟩ := found_of_mem hpiece
      obtain ⟨hmark, inside, after, rfl, rfl⟩ := attributePattern_spec hfound
      have htake : (inside ++ '"' :: value ++ '"' :: after).take
          (inside.length + value.length + 2) = inside ++ '"' :: (value ++ '"' :: []) := by
        rw [show inside.length + value.length + 2 = (inside ++ '"' :: value).length + 1 by
          simp; omega, List.take_length_add_append, List.append_assoc]
        rfl
      rw [htake, sealed_cons hmark, sealed_append_mark (by decide)] at hsource
      exact ((sealed_append_mark (by decide)).mp hsource.2).1

end PageLoom.Markup
