import PageLoom.Proofs.Markup.Attributes
import PageLoom.Proofs.Markup.Numbering

/-!
# Tags with one attribute

The text of a tag that invokes a component with one attribute, and how it is read back. Comments in
the value of the attribute give way to placeholders before the tag is read; all else is read as it
was written.
-/

namespace PageLoom.Markup

open Scan

variable {place : Place} {text : Text}

/-! ## Texts without closing marks -/

theorem tagPattern_of_not_mem (habsent : '>' ∉ text) (before : Option Char) :
    tagPattern place before text = none := by
  cases hfound : tagPattern place before text with
  | none => rfl
  | some answer =>
      cases text with
      | nil => cases hfound
      | cons c text =>
          obtain ⟨-, -, written, rest, rfl, -⟩ := tagPattern_spec hfound
          simp at habsent

theorem tagPattern_of_ne {c : Char} (hother : c ≠ '<') :
    tagPattern place none (c :: text) = none := by
  cases hfound : tagPattern place none (c :: text) with
  | none => rfl
  | some answer => exact absurd (tagPattern_spec hfound).1 hother

theorem pieces_commentPattern_of_not_mem (habsent : '>' ∉ text) :
    pieces commentPattern text = text.map .plain := by
  refine pieces_eq_plain contextFree_commentPattern fun c rest hsuffix => ?_
  cases hfound : commentPattern none (c :: rest) with
  | none => rfl
  | some answer =>
      exfalso
      apply habsent
      rw [commentPattern] at hfound
      split at hfound
      · cases hfound
      · rename_i inside hopening
        split at hfound
        · rename_i comment others hclosing
          apply hsuffix.subset
          rw [Text.eq_append_of_afterStart? hopening, Text.eq_append_of_cutAt? hclosing]
          simp
        · cases hfound

theorem pieces_tagPattern_of_not_mem (habsent : '>' ∉ text) :
    pieces (tagPattern place) text = text.map .plain := by
  refine pieces_eq_plain (contextFree_tagPattern place) fun c rest hsuffix => ?_
  exact tagPattern_of_not_mem (fun hmem => habsent (hsuffix.subset hmem)) none

/-! ## Reading a tag -/

variable {component name inside value : Text}

/-- A tag that is written is found, whatever stands after it. -/
theorem pieces_written (hname : IsComponentName place name) (hinside : IsInside inside)
    (rest : Text) :
    pieces (tagPattern place) ((Tag.written name inside).source ++ rest) =
      .found (Tag.written name inside).source (Tag.written name inside) ::
        pieces (tagPattern place) rest := by
  have hfound : tagPattern place none ((Tag.written name inside).source ++ rest) =
      some (Tag.written name inside, name.length + inside.length + 2) :=
    tagPattern_eq_some_iff.mpr ⟨name, inside, rest, hname, hinside, rfl, rfl, rfl⟩
  have hlength : name.length + inside.length + 2 = (name ++ inside ++ ['/', '>']).length := by
    simp only [List.length_append, List.length_cons, List.length_nil]
  rw [hlength] at hfound
  rw [show (Tag.written name inside).source ++ rest =
    '<' :: (name ++ inside ++ ['/', '>'] ++ rest) from rfl] at hfound ⊢
  rw [pieces_cons_found (contextFree_tagPattern place) hfound, List.take_left, List.drop_left]
  rfl

/-- A tag that invokes a component with one attribute. -/
def tagOf (component name value : Text) : Text :=
  '<' :: component ++ ' ' :: name ++ '=' :: '"' :: value ++ ['"', '/', '>']

theorem identifier_spec (hcomponent : nameAt? .document component = some component) :
    ∃ c rest, component = c :: rest ∧ Text.isIdentifierStart c = true ∧
      ∀ other ∈ rest, isIdentifierPart other = true := by
  cases component with
  | nil => cases hcomponent
  | cons c rest =>
      rw [nameAt?] at hcomponent
      split at hcomponent
      · rename_i hstart
        rw [Option.some.injEq, List.cons.injEq, List.takeWhile_eq_self_iff] at hcomponent
        exact ⟨c, rest, rfl, hstart, hcomponent.2⟩
      · cases hcomponent

/-- Characters that belong to no name. -/
def IsOutsideNames (c : Char) : Prop :=
  Text.isIdentifierStart c = false ∧ isIdentifierPart c = false ∧ isAttributePart c = false

instance (c : Char) : Decidable (IsOutsideNames c) := inferInstanceAs (Decidable (_ ∧ _))

theorem not_mem_component {c : Char} (hcomponent : nameAt? .document component = some component)
    (houtside : IsOutsideNames c) : c ∉ component := by
  obtain ⟨first, rest, rfl, hstart, hrest⟩ := identifier_spec hcomponent
  intro hmem
  rcases List.mem_cons.mp hmem with rfl | hmem
  · exact Bool.false_ne_true (houtside.1.symm.trans hstart)
  · exact Bool.false_ne_true (houtside.2.1.symm.trans (hrest c hmem))

theorem not_mem_attributeName {c : Char} (hname : isAttributeName name = true)
    (houtside : IsOutsideNames c) : c ∉ name := by
  obtain ⟨first, rest, rfl, hstart, hrest⟩ := attributeName_spec hname
  intro hmem
  rcases List.mem_cons.mp hmem with rfl | hmem
  · exact Bool.false_ne_true (houtside.1.symm.trans hstart)
  · exact Bool.false_ne_true (houtside.2.2.symm.trans (hrest c hmem))

/-- The attribute of such a tag is read back. -/
theorem parseAttributes_written (hname : isAttributeName name = true) (hvalue : '"' ∉ value) :
    parseAttributes (' ' :: name ++ '=' :: '"' :: value ++ ['"']) = [(name, .scalar value)] := by
  let entry : WrittenAttribute := ⟨[' '], name, [], [], value⟩
  have hblank : Text.isBlank ' ' = true := by decide
  have hentry : entry.WellFormed :=
    ⟨by simp [entry], by simpa [entry] using hblank, hname, nofun, nofun, hvalue⟩
  have htext : ' ' :: name ++ '=' :: '"' :: value ++ ['"'] =
      [entry].flatMap WrittenAttribute.print := by
    simp [entry, WrittenAttribute.print]
  rw [htext, parseAttributes_print (by simpa using hentry)]
  rfl

/-- Such a tag is all that is found in its text. -/
theorem pieces_tagOf (hcomponent : nameAt? .document component = some component)
    (hname : isAttributeName name = true) (hvalue : '>' ∉ value) :
    pieces (tagPattern .document) (tagOf component name value) =
      [.found (tagOf component name value)
        ⟨component, ' ' :: name ++ '=' :: '"' :: value ++ ['"'], tagOf component name value⟩] := by
  obtain ⟨inside, hinside⟩ : ∃ inside, inside = ' ' :: name ++ '=' :: '"' :: value ++ ['"'] :=
    ⟨_, rfl⟩
  have hwell : IsInside inside := by
    rw [hinside]
    refine ⟨?_, by simp; decide⟩
    simp [hvalue, not_mem_attributeName hname (c := '>') (by decide)]
  have hattributes : attributesOf inside = inside := by
    have hnone : ∀ blank ∈ ([] : Text), Text.isBlank blank = true := nofun
    rw [hinside]
    exact attributesOf_append (by decide) hnone _
  have htext : tagOf component name value = (Tag.written component inside).source ++ [] := by
    rw [hinside]
    simp [tagOf, Tag.written]
  rw [htext, pieces_written (isComponentName_of_nameAt? hcomponent).1 hwell, Tag.written,
    hattributes, List.append_nil, hinside]
  rfl

/-- No comment of a value reaches the end of its tag. -/
theorem pieces_commentPattern_value (value : Text) :
    pieces commentPattern (value ++ ['"', '/', '>']) =
      pieces commentPattern value ++ ['"', '/', '>'].map .plain := by
  apply pieces_append contextFree_commentPattern
  · intro c rest _
    have hend : Text.cutAt? "-->".toList ['/', '>'] = none := by decide
    rw [commentPattern, commentPattern, Text.afterStart?_append_stop (by decide)]
    cases Text.afterStart? "<!--".toList (c :: rest) with
    | none => rfl
    | some inside =>
        rw [Option.map_some]
        dsimp only
        rw [Text.cutAt?_append_stop (by decide) (by decide), hend]
        cases Text.cutAt? "-->".toList inside <;> rfl
  · intro c rest value more hfound
    obtain ⟨-, inside, last, others, rfl, -, rfl⟩ :=
      marked_commentPattern none c rest value more hfound
    simp

/-- The comments of such a tag are those of its value. -/
theorem protectComments_tagOf (hcomponent : nameAt? .document component = some component)
    (hname : isAttributeName name = true) :
    protectComments (tagOf component name value) =
      (tagOf component name (protectComments value).1, (protectComments value).2) := by
  obtain ⟨front, hfront⟩ : ∃ front, front = component ++ ' ' :: name ++ ['='] := ⟨_, rfl⟩
  have htext : ∀ value, tagOf component name value =
      ('<' :: front) ++ '"' :: (value ++ '"' :: ['/', '>']) := fun value => by
    rw [hfront]
    simp [tagOf]
  have hpieces : pieces commentPattern (tagOf component name value) =
      ('<' :: front ++ ['"']).map .plain ++
        (pieces commentPattern value ++ ['"', '/', '>'].map .plain) := by
    have hnone : ∀ c rest, c :: rest <:+ '<' :: front ++ ['"'] →
        commentPattern none (c :: rest ++ (value ++ ['"', '/', '>'])) = none := by
      intro c rest hsuffix
      rcases List.suffix_cons_iff.mp hsuffix with hwhole | hsuffix
      · obtain ⟨first, others, hcons, hstart, -⟩ := identifier_spec hcomponent
        have hother : first ≠ '!' := by
          rintro rfl
          cases hstart
        rw [hwhole, hfront, hcons]
        simp [commentPattern, Text.afterStart?, hother.symm]
      · apply commentPattern_of_ne
        rintro rfl
        have hmem := hsuffix.subset (List.mem_cons_self ..)
        rw [hfront] at hmem
        simp [not_mem_component hcomponent (c := '<') (by decide),
          not_mem_attributeName hname (c := '<') (by decide)] at hmem
    rw [htext, ← pieces_commentPattern_value,
      ← pieces_append_plain contextFree_commentPattern hnone]
    simp
  have hnumbered : numberComments 0 (pieces commentPattern (tagOf component name value)) =
      tagOf component name (numberComments 0 (pieces commentPattern value)) := by
    rw [hpieces, numberComments_plain_append, numberComments_append_plain, htext]
    simp
  have hcomments : commentsOf (pieces commentPattern (tagOf component name value)) =
      commentsOf (pieces commentPattern value) := by
    rw [hpieces, commentsOf_append, commentsOf_append, commentsOf_plain, commentsOf_plain,
      List.nil_append, List.append_nil]
  exact Prod.ext hnumbered hcomments

end PageLoom.Markup
