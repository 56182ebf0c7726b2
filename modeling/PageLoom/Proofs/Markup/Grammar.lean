import PageLoom.Markup.Tag
import PageLoom.Proofs.Text.Blank

/-!
# The grammar of tags

A component tag is an opening mark, a name, an inside and the closing mark. The inside is empty or
begins with a blank, and the first `>` after the name is the one that ends the tag. These are all
the tags that are found, and each is found wherever it stands.
-/

namespace PageLoom.Markup

variable {place : Place} {name inside text rest : Text} {c : Char}

/-! ## Names -/

/-- An identifier, and in templates any number of further parts behind slashes. -/
def IsComponentName (place : Place) (name : Text) : Prop :=
  ∃ (first : Char) (others : Text) (parts : List Text),
    name = first :: others ++ parts.flatMap ('/' :: ·) ∧ Text.isIdentifierStart first = true ∧
      (∀ c ∈ others, isIdentifierPart c = true) ∧
      (∀ part ∈ parts, part ≠ [] ∧ ∀ c ∈ part, isIdentifierPart c = true) ∧
      (place = .document → parts = [])

/-- What can stand after the name of a tag. -/
def EndsName (rest : Text) : Prop :=
  (∃ after, rest = '/' :: '>' :: after) ∨
    ∃ blank after, rest = blank :: after ∧ Text.isBlank blank = true

theorem isIdentifierPart_of_isBlank (hblank : Text.isBlank c = true) :
    isIdentifierPart c = false := Text.of_isBlank (by decide) hblank

theorem EndsName.takeWhile (hrest : EndsName rest) : rest.takeWhile isIdentifierPart = [] := by
  rcases hrest with ⟨after, rfl⟩ | ⟨blank, after, rfl, hblank⟩
  · exact List.takeWhile_cons_of_neg (by decide)
  · exact List.takeWhile_cons_of_neg (by simp [isIdentifierPart_of_isBlank hblank])

theorem qualifiedRest_cons (hpart : isIdentifierPart c = true) :
    qualifiedRest (c :: text) = c :: qualifiedRest text := by
  have hother : c ≠ '/' := by
    rintro rfl
    exact absurd hpart (by decide)
  cases text <;> simp [qualifiedRest, hpart, hother]

theorem qualifiedRest_slash (hpart : isIdentifierPart c = true) :
    qualifiedRest ('/' :: c :: text) = '/' :: c :: qualifiedRest text := by
  rw [qualifiedRest, if_pos hpart]

theorem qualifiedRest_append {others : Text} (hothers : ∀ c ∈ others, isIdentifierPart c = true) :
    qualifiedRest (others ++ text) = others ++ qualifiedRest text := by
  induction others with
  | nil => rfl
  | cons c others ih =>
      rw [List.forall_mem_cons] at hothers
      rw [List.cons_append, qualifiedRest_cons hothers.1, ih hothers.2, List.cons_append]

theorem EndsName.qualifiedRest (hrest : EndsName rest) : qualifiedRest rest = [] := by
  rcases hrest with ⟨after, rfl⟩ | ⟨blank, after, rfl, hblank⟩
  · simp [Markup.qualifiedRest, show isIdentifierPart '>' = false by decide]
  · have hpart := isIdentifierPart_of_isBlank hblank
    have hother : blank ≠ '/' := by
      rintro rfl
      exact absurd hblank (by decide)
    cases after <;> simp [Markup.qualifiedRest, hpart, hother]

theorem qualifiedRest_parts {parts : List Text} (hrest : EndsName rest)
    (hparts : ∀ part ∈ parts, part ≠ [] ∧ ∀ c ∈ part, isIdentifierPart c = true) :
    qualifiedRest (parts.flatMap ('/' :: ·) ++ rest) = parts.flatMap ('/' :: ·) := by
  induction parts with
  | nil => exact hrest.qualifiedRest
  | cons part parts ih =>
      rw [List.forall_mem_cons] at hparts
      obtain ⟨⟨hsome, hpart⟩, hparts⟩ := hparts
      obtain ⟨c, others, rfl⟩ := List.exists_cons_of_ne_nil hsome
      rw [List.forall_mem_cons] at hpart
      rw [List.flatMap_cons, List.append_assoc, List.cons_append, List.cons_append,
        qualifiedRest_slash hpart.1, qualifiedRest_append hpart.2, ih hparts]
      rfl

/-- A name is read as a whole where it ends. -/
theorem nameAt?_append (hname : IsComponentName place name) (hrest : EndsName rest) :
    nameAt? place (name ++ rest) = some name := by
  obtain ⟨first, others, parts, rfl, hfirst, hothers, hparts, hplace⟩ := hname
  cases place with
  | document =>
      rw [hplace rfl, List.flatMap_nil, List.append_nil, List.cons_append, nameAt?, if_pos hfirst,
        List.takeWhile_append_of_pos hothers, hrest.takeWhile, List.append_nil]
  | template =>
      rw [List.append_assoc, List.cons_append, nameAt?, if_pos hfirst,
        qualifiedRest_append hothers, qualifiedRest_parts hrest hparts, List.cons_append]

theorem qualifiedRest_eq (text : Text) : ∃ (others : Text) (parts : List Text) (rest : Text),
    qualifiedRest text = others ++ parts.flatMap ('/' :: ·) ∧ text = qualifiedRest text ++ rest ∧
      (∀ c ∈ others, isIdentifierPart c = true) ∧
      ∀ part ∈ parts, part ≠ [] ∧ ∀ c ∈ part, isIdentifierPart c = true := by
  fun_induction qualifiedRest text with
  | case1 c text hpart ih =>
      obtain ⟨others, parts, rest, heq, hsplit, hothers, hparts⟩ := ih
      refine ⟨[], (c :: others) :: parts, rest, by rw [heq]; simp, by simpa using hsplit, nofun, ?_⟩
      rw [List.forall_mem_cons, List.forall_mem_cons]
      exact ⟨⟨List.cons_ne_nil _ _, hpart, hothers⟩, hparts⟩
  | case2 c text hpart => exact ⟨[], [], _, rfl, rfl, nofun, nofun⟩
  | case3 c text hslash hpart ih =>
      obtain ⟨others, parts, rest, heq, hsplit, hothers, hparts⟩ := ih
      refine ⟨c :: others, parts, rest, by rw [heq, List.cons_append], by simpa using hsplit, ?_,
        hparts⟩
      rw [List.forall_mem_cons]
      exact ⟨hpart, hothers⟩
  | case4 c text hslash hpart => exact ⟨[], [], _, rfl, rfl, nofun, nofun⟩
  | case5 => exact ⟨[], [], [], rfl, rfl, nofun, nofun⟩

/-- Only names are read, and what is read stands at the head of the text. -/
theorem isComponentName_of_nameAt? (hname : nameAt? place text = some name) :
    IsComponentName place name ∧ ∃ rest, text = name ++ rest := by
  cases text with
  | nil => cases hname
  | cons c text =>
      cases hfirst : Text.isIdentifierStart c with
      | false => simp [nameAt?, hfirst] at hname
      | true =>
          cases place with
          | document =>
              rw [nameAt?, if_pos hfirst, Option.some.injEq] at hname
              subst hname
              refine ⟨⟨c, _, [], (List.append_nil _).symm, hfirst, fun _ => List.mem_takeWhile_imp,
                nofun, fun _ => rfl⟩, text.dropWhile isIdentifierPart, ?_⟩
              rw [List.cons_append, List.takeWhile_append_dropWhile]
          | template =>
              rw [nameAt?, if_pos hfirst, Option.some.injEq] at hname
              subst hname
              obtain ⟨others, parts, rest, heq, hsplit, hothers, hparts⟩ := qualifiedRest_eq text
              refine ⟨⟨c, others, parts, by rw [heq, List.cons_append], hfirst, hothers, hparts,
                nofun⟩, rest, ?_⟩
              rw [List.cons_append, ← hsplit]

/-! ## Insides -/

/-- What can stand between the name of a tag and its end. -/
def IsInside (inside : Text) : Prop :=
  '>' ∉ inside ∧ ∀ c ∈ inside.head?, Text.isBlank c = true

/-- The attribute text in an inside: of the blanks at its end, only one that is also its beginning
belongs to it. -/
def attributesOf : Text → Text
  | [] => []
  | c :: inner => c :: Text.trimEnd inner

/-- Blanks at the end of an inside belong to no attribute. -/
theorem attributesOf_append (hlast : Text.isBlank c = false) {blanks : Text}
    (hblanks : ∀ blank ∈ blanks, Text.isBlank blank = true) (text : Text) :
    attributesOf (text ++ c :: blanks) = text ++ [c] := by
  have hdropped : Text.trimEnd blanks = [] := by
    rw [Text.trimEnd, Text.trimEndWhile, List.reverse_eq_nil_iff, List.dropWhile_eq_nil_iff]
    simpa using hblanks
  cases text with
  | nil => exact congrArg (c :: ·) hdropped
  | cons first text =>
      rw [List.cons_append, attributesOf, Text.trimEnd_append_cons hlast, hdropped,
        List.cons_append]

theorem IsInside.endsName (hinside : IsInside inside) (rest : Text) :
    EndsName (inside ++ '/' :: '>' :: rest) := by
  cases inside with
  | nil => exact .inl ⟨rest, rfl⟩
  | cons blank inner => exact .inr ⟨blank, _, rfl, hinside.2 blank rfl⟩

theorem takeWhile_ne_append (habsent : '>' ∉ inside) (rest : Text) :
    (inside ++ '>' :: rest).takeWhile (· ≠ '>') = inside := by
  rw [List.takeWhile_append_of_pos, List.takeWhile_cons_of_neg (by decide), List.append_nil]
  intro c hmem
  simpa using fun hsame : c = '>' => habsent (hsame ▸ hmem)

theorem attributesAt?_append (hinside : IsInside inside) (rest : Text) :
    attributesAt? (inside ++ '/' :: '>' :: rest) =
      some (attributesOf inside, inside.length + 2) := by
  have habsent : '>' ∉ inside ++ ['/'] := by simp [hinside.1]
  have htext : inside ++ '/' :: '>' :: rest = (inside ++ ['/']) ++ '>' :: rest := by simp
  have hlength : (inside ++ ['/']).length ≠ ((inside ++ ['/']) ++ '>' :: rest).length := by simp
  have hreverse : (inside ++ ['/']).reverse = '/' :: inside.reverse := by simp
  simp only [htext, attributesAt?, takeWhile_ne_append habsent, hlength, if_false, hreverse,
    List.reverse_reverse]
  cases inside with
  | nil => rfl
  | cons blank inner =>
      have hblank := hinside.2 blank rfl
      simp [hblank, attributesOf]

/-- Nothing else can stand there. -/
theorem isInside_of_attributesAt? {attributes : Text} {more : Nat}
    (hattributes : attributesAt? text = some (attributes, more)) :
    ∃ inside rest, text = inside ++ '/' :: '>' :: rest ∧ IsInside inside ∧
      attributes = attributesOf inside ∧ more = inside.length + 2 := by
  by_cases hend : '>' ∈ text
  · obtain ⟨front, rest, rfl, habsent⟩ := List.eq_append_cons_of_mem hend
    have hlength : front.length ≠ (front ++ '>' :: rest).length := by simp
    simp only [attributesAt?, takeWhile_ne_append habsent, hlength, if_false] at hattributes
    split at hattributes
    · next reversed hreversed =>
      have hfront : front = reversed.reverse ++ ['/'] := by
        rw [← List.reverse_cons, ← hreversed, List.reverse_reverse]
      have hinner : '>' ∉ reversed.reverse := fun hmem => habsent (by rw [hfront]; simp_all)
      refine ⟨reversed.reverse, rest, by rw [hfront]; simp, ?_⟩
      split at hattributes
      · next hnothing =>
        cases hattributes
        rw [hnothing]
        exact ⟨⟨nofun, nofun⟩, rfl, rfl⟩
      · next blank inner hwritten =>
        split at hattributes
        · next hblank =>
          cases hattributes
          rw [hwritten] at hinner ⊢
          refine ⟨⟨hinner, ?_⟩, rfl, by rw [hfront, hwritten]; simp⟩
          rintro c ⟨⟩
          exact hblank
        · cases hattributes
    · cases hattributes
  · have htaken : text.takeWhile (· ≠ '>') = text := by
      rw [List.takeWhile_eq_self_iff]
      intro c hmem
      simpa using fun hsame : c = '>' => hend (hsame ▸ hmem)
    simp only [attributesAt?, htaken, if_true] at hattributes
    cases hattributes

/-! ## Tags -/

/-- The tag with a name and an inside. -/
def Tag.written (name inside : Text) : Tag :=
  ⟨name, attributesOf inside, '<' :: name ++ inside ++ ['/', '>']⟩

theorem take_written (name inside rest : Text) :
    (name ++ (inside ++ '/' :: '>' :: rest)).take (name.length + (inside.length + 2)) =
      name ++ inside ++ ['/', '>'] := by
  rw [List.take_length_add_append, List.take_length_add_append, List.append_assoc]
  rfl

/-- A tag is found exactly where one is written. -/
theorem tagPattern_eq_some_iff {before : Option Char} {tag : Tag} {more : Nat} :
    tagPattern place before text = some (tag, more) ↔
      ∃ name inside rest, IsComponentName place name ∧ IsInside inside ∧
        tag = Tag.written name inside ∧ text = tag.source ++ rest ∧
        more = name.length + inside.length + 2 := by
  constructor
  · intro hfound
    unfold tagPattern at hfound
    split at hfound
    · next text =>
      split at hfound
      · cases hfound
      · next name hname =>
        split at hfound
        · cases hfound
        · next attributes length hattributes =>
          cases hfound
          obtain ⟨hcomponent, following, rfl⟩ := isComponentName_of_nameAt? hname
          rw [List.drop_left] at hattributes
          obtain ⟨inside, rest, rfl, hinside, rfl, rfl⟩ := isInside_of_attributesAt? hattributes
          refine ⟨name, inside, rest, hcomponent, hinside, ?_, ?_, rfl⟩
          · rw [take_written, Tag.written]
            rfl
          · rw [take_written]
            simp
    · cases hfound
  · rintro ⟨name, inside, rest, hcomponent, hinside, rfl, rfl, rfl⟩
    have htext : (Tag.written name inside).source ++ rest =
        '<' :: (name ++ (inside ++ '/' :: '>' :: rest)) := by
      simp [Tag.written]
    rw [htext]
    simp only [tagPattern, nameAt?_append hcomponent (hinside.endsName rest), List.drop_left,
      attributesAt?_append hinside, take_written]
    rfl

end PageLoom.Markup
