import PageLoom.Proofs.Markup.Invocation

/-!
# Expanding tags where they stand

With its comments for letters, a text is read from left to right: as a tag where one begins, and
letter by letter elsewhere. Expanding the tags of a text without NUL asks for a replacement once for
every tag that is not void, one after the other, and puts it where the tag stands. All else stays,
comments in tags without replacement included.
-/

namespace PageLoom.Markup

open Scan

/-- A character outside of comments, or a comment. -/
abbrev Letter := Piece Unit

inductive Part where
  | letter (value : Letter)
  | tag (name : Text) (inside : List Letter)
deriving Repr, DecidableEq

namespace Part

def letters : Part → List Letter
  | .letter value => [value]
  | .tag name inside => ('<' :: name).map .plain ++ (inside ++ ['/', '>'].map .plain)

def comments (part : Part) : List Text := commentsOf part.letters

def source (part : Part) : Text := sourceOf part.letters

/-- The name and the text of a tag that invokes a component. -/
def invocation? : Part → Option (Text × Text)
  | .letter _ => none
  | .tag name inside => if isVoidElement name then none else some (name, (tag name inside).source)

end Part

/-- Comments in a tag are passed over, whatever is in them. -/
structure IsTag (place : Place) (name : Text) (inside : List Letter) : Prop where
  name : IsComponentName place name
  closed : .plain '>' ∉ inside
  apart : ∀ letter ∈ inside.head?, ∃ c, letter = .plain c ∧ Text.isBlank c = true

/-- How letters are read: a tag goes before the letter that it begins with. -/
inductive Reads (place : Place) : List Letter → List Part → Prop
  | nil : Reads place [] []
  | letter {letter : Letter} {letters : List Letter} {parts : List Part}
      (hnone : ∀ name inside rest, letter :: letters = (Part.tag name inside).letters ++ rest →
        ¬IsTag place name inside)
      (hrest : Reads place letters parts) : Reads place (letter :: letters) (.letter letter :: parts)
  | tag {name : Text} {inside letters : List Letter} {parts : List Part}
      (htag : IsTag place name inside) (hrest : Reads place letters parts) :
      Reads place ((Part.tag name inside).letters ++ letters) (.tag name inside :: parts)

variable {place : Place} {name text : Text} {inside letters : List Letter} {parts : List Part}
variable {comments : List Text} {number : Nat} {c : Char}

theorem exists_reads (place : Place) (letters : List Letter) : ∃ parts, Reads place letters parts := by
  induction hlength : letters.length using Nat.strongRecOn generalizing letters with
  | _ length ih =>
      by_cases htag : ∃ name inside rest, letters = (Part.tag name inside).letters ++ rest ∧
          IsTag place name inside
      · obtain ⟨name, inside, rest, rfl, htag⟩ := htag
        obtain ⟨parts, hparts⟩ := ih rest.length (by simp [← hlength, Part.letters]; omega) rest rfl
        exact ⟨_, .tag htag hparts⟩
      · cases letters with
        | nil => exact ⟨[], .nil⟩
        | cons letter rest =>
            obtain ⟨parts, hparts⟩ := ih rest.length (by simp [← hlength]) rest rfl
            refine ⟨_, .letter (fun name inside rest hletters hread => ?_) hparts⟩
            exact htag ⟨name, inside, rest, hletters, hread⟩

/-- Reading loses nothing. -/
theorem Reads.letters_eq (hreads : Reads place letters parts) :
    parts.flatMap Part.letters = letters := by
  induction hreads with
  | nil => rfl
  | letter hnone hrest ih => rw [List.flatMap_cons, ih]; rfl
  | tag htag hrest ih => rw [List.flatMap_cons, ih]

/-! ## Letters behind their numbers -/

/-- Text without NUL comes from letters outside of comments. -/
theorem exists_of_numberComments_append {before after : Text} (habsent : '\x00' ∉ before)
    (hsplit : numberComments number letters = before ++ after) :
    ∃ rest, letters = before.map .plain ++ rest ∧ numberComments number rest = after := by
  induction before generalizing letters with
  | nil => exact ⟨letters, rfl, hsplit⟩
  | cons c before ih =>
      rw [List.mem_cons, not_or] at habsent
      cases letters with
      | nil => cases hsplit
      | cons letter letters =>
          cases letter with
          | found source value =>
              rw [numberComments, placeholder_append] at hsplit
              exact absurd (List.cons.inj hsplit).1 habsent.1
          | plain other =>
              rw [numberComments] at hsplit
              obtain ⟨rfl, hothers⟩ := List.cons.inj hsplit
              obtain ⟨rest, rfl, hrest⟩ := ih habsent.2 hothers
              exact ⟨rest, rfl, hrest⟩

/-- A mark comes from a letter outside of comments. -/
theorem exists_of_numberComments_mark {before after : Text} (hmark : IsMark c)
    (hsplit : numberComments number letters = before ++ c :: after) :
    ∃ left right, letters = left ++ .plain c :: right ∧ numberComments number left = before ∧
      numberComments (number + (commentsOf left).length) right = after := by
  induction letters generalizing number before with
  | nil => simp [numberComments] at hsplit
  | cons letter letters ih =>
      cases letter with
      | plain other =>
          rw [numberComments] at hsplit
          cases before with
          | nil =>
              obtain ⟨rfl, rfl⟩ := List.cons.inj hsplit
              exact ⟨[], letters, rfl, rfl, rfl⟩
          | cons first before =>
              obtain ⟨rfl, hrest⟩ := List.cons.inj hsplit
              obtain ⟨left, right, rfl, rfl, rfl⟩ := ih hrest
              exact ⟨.plain other :: left, right, rfl, rfl, rfl⟩
      | found source value =>
          rw [numberComments, List.append_eq_append_iff] at hsplit
          rcases hsplit with ⟨between, rfl, hrest⟩ | ⟨between, hplaceholder, hrest⟩
          · obtain ⟨left, right, rfl, rfl, rfl⟩ := ih hrest
            refine ⟨.found source value :: left, right, rfl, rfl, ?_⟩
            rw [length_commentsOf_found, Nat.add_right_comm, Nat.add_assoc]
          · cases between with
            | nil =>
                have hothers : numberComments (number + 1) letters = [] ++ c :: after := hrest.symm
                obtain ⟨left, right, rfl, hleft, rfl⟩ := ih hothers
                refine ⟨.found source value :: left, right, rfl, ?_, ?_⟩
                · rw [numberComments, hleft, hplaceholder]
                  simp
                · rw [length_commentsOf_found, Nat.add_right_comm, Nat.add_assoc]
            | cons first between =>
                obtain rfl := (List.cons.inj hrest).1
                have hmem : c ∈ placeholder number := by
                  rw [hplaceholder]
                  simp
                exact absurd hmem (not_mem_placeholder hmark)

/-! ## Tags behind placeholders -/

theorem source_written (number : Nat) (name : Text) (inside : List Letter) :
    (Tag.written name (numberComments number inside)).source =
      numberComments number (Part.tag name inside).letters := by
  rw [Part.letters, numberComments_plain_append, numberComments_append_plain, Tag.written,
    List.append_assoc]

theorem IsTag.isInside (htag : IsTag place name inside) (number : Nat) :
    IsInside (numberComments number inside) := by
  refine ⟨fun hmem => htag.closed ((mem_numberComments (by decide)).mp hmem), ?_⟩
  cases inside with
  | nil => nofun
  | cons letter inside =>
      obtain ⟨c, rfl, hblank⟩ := htag.apart letter rfl
      rintro other ⟨⟩
      exact hblank

/-- A tag is found behind placeholders only where one is written before them. -/
theorem exists_tag_of_tagPattern {tag : Tag} {more : Nat}
    (hfound : tagPattern place none (numberComments number letters) = some (tag, more)) :
    ∃ name inside rest, letters = (Part.tag name inside).letters ++ rest ∧
      IsTag place name inside := by
  obtain ⟨name, inside, rest, hname, hinside, rfl, htext, -⟩ := tagPattern_eq_some_iff.mp hfound
  have habsent : '\x00' ∉ '<' :: name := by
    rw [List.mem_cons, not_or]
    exact ⟨by decide, fun hmem => not_isNamePart_nul (hname.isNamePart _ hmem)⟩
  have hsplit : numberComments number letters =
      ('<' :: name) ++ (inside ++ '/' :: ('>' :: rest)) := by
    rw [htext]
    simp [Tag.written]
  obtain ⟨others, rfl, hothers⟩ := exists_of_numberComments_append habsent hsplit
  obtain ⟨left, right, rfl, rfl, hright⟩ := exists_of_numberComments_mark (by decide) hothers
  have hclosing : '\x00' ∉ ['>'] := by decide
  obtain ⟨right, rfl, -⟩ := exists_of_numberComments_append hclosing hright
  refine ⟨name, left, right, by simp [Part.letters], hname, fun hmem => ?_, ?_⟩
  · exact hinside.1 ((mem_numberComments (by decide)).mpr hmem)
  · rintro letter hhead
    obtain ⟨left, rfl⟩ := List.head?_eq_some_iff.mp hhead
    cases letter with
    | plain c => exact ⟨c, rfl, hinside.2 c rfl⟩
    | found source value =>
        have hblank := hinside.2 '\x00' (by rw [numberComments, placeholder_append]; rfl)
        exact absurd hblank (by decide)

namespace Part

/-- The pieces of a part whose comments are numbered from a number on. -/
def pieces (number : Nat) : Part → List (Piece Tag)
  | .letter value => (numberComments number [value]).map .plain
  | .tag name inside =>
    let tag := Tag.written name (numberComments number inside)
    [.found tag.source tag]

end Part

def piecesOf : Nat → List Part → List (Piece Tag)
  | _, [] => []
  | number, part :: parts => part.pieces number ++ piecesOf (number + part.comments.length) parts

/-- Placeholders change nothing in how a text is read. -/
theorem Reads.pieces_numberComments (hreads : Reads place letters parts) :
    pieces (tagPattern place) (numberComments number letters) = piecesOf number parts := by
  induction hreads generalizing number with
  | nil => rfl
  | @letter letter letters parts hnone hrest ih =>
      cases letter with
      | plain c =>
          have hplain : tagPattern place none (c :: numberComments number letters) = none := by
            rw [Option.eq_none_iff_forall_ne_some]
            rintro ⟨tag, more⟩ hfound
            obtain ⟨name, inside, rest, hletters, htag⟩ :=
              @exists_tag_of_tagPattern place (.plain c :: letters) number tag more hfound
            exact hnone name inside rest hletters htag
          rw [numberComments, pieces_cons_plain (contextFree_tagPattern place) hplain, ih]
          rfl
      | found source value =>
          rw [numberComments, pieces_append_of_not_mem (contextFree_tagPattern place)
            (fun _ _ => tagPattern_of_ne) (not_mem_placeholder (by decide)), ih, piecesOf,
            Part.pieces, numberComments, numberComments, List.append_nil]
          rfl
  | @tag name inside letters parts htag hrest ih =>
      rw [numberComments_append, ← source_written, pieces_written htag.name (htag.isInside number),
        ih]
      rfl

/-! ## Putting comments back -/

/-- Letters whose comments are those of a list from a number on. -/
structure Restorable (comments : List Text) (number : Nat) (letters : List Letter) : Prop where
  plain : .plain '\x00' ∉ letters
  held : commentsOf letters <+: comments.drop number
  few : number + (commentsOf letters).length ≤ Number.powerOfTen Number.digitLimit

theorem Restorable.split {others : List Letter}
    (hboth : Restorable comments number (letters ++ others)) :
    Restorable comments number letters ∧
      Restorable comments (number + (commentsOf letters).length) others := by
  obtain ⟨hplain, hheld, hfew⟩ := hboth
  rw [List.mem_append, not_or] at hplain
  rw [commentsOf_append] at hheld hfew
  rw [List.length_append] at hfew
  refine ⟨⟨hplain.1, (List.prefix_append _ _).trans hheld, by omega⟩, hplain.2, ?_, by omega⟩
  rw [← List.drop_drop]
  have hdropped := hheld.drop (commentsOf letters).length
  rwa [List.drop_left] at hdropped

theorem Restorable.restoreComments_append (hletters : Restorable comments number letters)
    (text : Text) :
    restoreComments comments (numberComments number letters ++ text) =
      (restoreComments comments text).map (sourceOf letters ++ ·) := by
  cases comments with
  | nil =>
      have hnone : commentsOf letters = [] := by simpa using hletters.held
      rw [numberComments_of_nil hnone]
      rfl
  | cons first others =>
      rw [restoreComments_numberComments_append (List.cons_ne_nil _ _) hletters.plain hletters.few,
        renumbered_of_prefix hletters.held]

/-! ## Replacements -/

namespace Part

/-- The tag that a replacement is asked for, if there is one. -/
def tag? (number : Nat) : Part → Option Tag
  | .letter _ => none
  | .tag name inside =>
    if isVoidElement name then none else some (Tag.written name (numberComments number inside))

/-- Either nothing is asked for a part, or a tag whose text is the part behind placeholders. -/
theorem tag?_cases (number : Nat) (part : Part) :
    part.tag? number = none ∧ part.invocation? = none ∨
      ∃ tag, part.tag? number = some tag ∧ tag.source = numberComments number part.letters ∧
        part.invocation? = some (tag.name, part.source) := by
  cases part with
  | letter value => exact .inl ⟨rfl, rfl⟩
  | tag name inside =>
      cases hvoid : isVoidElement name with
      | true => exact .inl ⟨by rw [tag?, if_pos hvoid], by rw [invocation?, if_pos hvoid]⟩
      | false =>
          refine .inr ⟨Tag.written name (numberComments number inside), ?_,
            source_written number name inside, ?_⟩
          · simp [tag?, hvoid]
          · simp [invocation?, hvoid, Tag.written]

end Part

def tagsFrom : Nat → List Part → List Tag
  | _, [] => []
  | number, part :: parts =>
    (part.tag? number).toList ++ tagsFrom (number + part.comments.length) parts

theorem filter_values_piecesOf (number : Nat) (parts : List Part) :
    ((values (piecesOf number parts)).filter fun tag => !isVoidElement tag.name) =
      tagsFrom number parts := by
  induction parts generalizing number with
  | nil => rfl
  | cons part parts ih =>
      have hpart : ((values (part.pieces number)).filter fun tag => !isVoidElement tag.name) =
          (part.tag? number).toList := by
        cases part with
        | letter value => simp [Part.pieces, Part.tag?, values]
        | tag name inside =>
            cases hvoid : isVoidElement name <;>
              simp [Part.pieces, Part.tag?, values, hvoid, Tag.written]
      rw [tagsFrom, ← ih, ← hpart, ← List.filter_append, values, values, values,
        ← List.filterMap_append]
      rfl

/-- The tags that are found are those that are asked for, with their texts behind placeholders. -/
theorem restoreComments_tagsFrom
    (hparts : Restorable comments number (parts.flatMap Part.letters)) :
    (tagsFrom number parts).map (fun tag => (tag.name, restoreComments comments tag.source)) =
      (parts.filterMap Part.invocation?).map fun invoked => (invoked.1, .ok invoked.2) := by
  induction parts generalizing number with
  | nil => rfl
  | cons part parts ih =>
      rw [List.flatMap_cons] at hparts
      obtain ⟨hpart, hparts⟩ := hparts.split
      obtain ⟨htag, hinvoked⟩ | ⟨tag, htag, hsource, hinvoked⟩ := part.tag?_cases number
      · rw [tagsFrom, htag, List.filterMap_cons_none hinvoked]
        exact ih hparts
      · have hrestored : restoreComments comments tag.source = .ok part.source := by
          have hrestored := hpart.restoreComments_append []
          rw [List.append_nil, ← hsource, restoreComments_nil] at hrestored
          rw [hrestored]
          exact congrArg Except.ok (List.append_nil _)
        rw [tagsFrom, htag, List.filterMap_cons_some hinvoked, List.map_cons, ← ih hparts,
          Option.toList_some, List.map_append, List.map_singleton, hrestored]
        rfl

/-! ## Replacements -/

/-- A text that cannot be mistaken for placeholders. -/
abbrev PlainText := { text : Text // '\x00' ∉ text }

/-- The text with replacements for its tags, one after the other. -/
def fill : List Part → List (Option PlainText) → Text
  | [], _ => []
  | part :: parts, results =>
    match part.invocation?, results with
    | some _, result :: results => result.elim part.source Subtype.val ++ fill parts results
    | _, _ => part.source ++ fill parts results

variable {m : Type → Type} [Monad m] [LawfulMonad m] {part : Part} {found : List (Piece Tag)}

section Pieces

variable {replacement : Tag → m (Option Text)}

theorem replaceTags_plain_append (text : Text) (found : List (Piece Tag)) :
    replaceTags replacement (text.map .plain ++ found) =
      (text ++ ·) <$> replaceTags replacement found := by
  induction text with
  | nil => simp
  | cons c text ih =>
      rw [List.map_cons, List.cons_append, replaceTags, ih]
      simp

theorem replaceTags_append_of_none (hnone : part.tag? number = none) :
    replaceTags replacement (part.pieces number ++ found) =
      (numberComments number part.letters ++ ·) <$> replaceTags replacement found := by
  cases part with
  | letter value => exact replaceTags_plain_append _ _
  | tag name inside =>
      have hvoid : isVoidElement name = true := by simpa [Part.tag?] using hnone
      rw [← source_written, Part.pieces, List.singleton_append, replaceTags]
      simp [Tag.written, hvoid]

theorem replaceTags_append_of_some {tag : Tag} (hsome : part.tag? number = some tag) :
    replaceTags replacement (part.pieces number ++ found) = (do
      let new? ← replacement tag
      (new?.getD (numberComments number part.letters) ++ ·) <$> replaceTags replacement found) := by
  cases part with
  | letter value => cases hsome
  | tag name inside =>
      have hvoid : isVoidElement name = false ∧
          Tag.written name (numberComments number inside) = tag := by
        simpa [Part.tag?] using hsome
      obtain ⟨hvoid, rfl⟩ := hvoid
      rw [← source_written, Part.pieces, List.singleton_append, replaceTags]
      simp [Tag.written, hvoid]

end Pieces

/-- Replacements are asked for one after the other, and the comments around them are put back. -/
theorem restoreComments_replaceTags (callback : Tag → m (Option PlainText))
    (hparts : Restorable comments number (parts.flatMap Part.letters)) :
    restoreComments comments <$> replaceTags (fun tag => Option.map Subtype.val <$> callback tag)
        (piecesOf number parts) =
      (fun results => .ok (fill parts results)) <$> (tagsFrom number parts).mapM callback := by
  induction parts generalizing number with
  | nil => simp [piecesOf, tagsFrom, replaceTags, fill]
  | cons part parts ih =>
      rw [List.flatMap_cons] at hparts
      obtain ⟨hpart, hparts⟩ := hparts.split
      have hafter : ∀ before : Text,
          (fun text => (restoreComments comments text).map (before ++ ·)) <$>
              replaceTags (fun tag => Option.map Subtype.val <$> callback tag)
                (piecesOf (number + part.comments.length) parts) =
            (fun results => .ok (before ++ fill parts results)) <$>
              (tagsFrom (number + part.comments.length) parts).mapM callback := by
        intro before
        have hrest := congrArg (Except.map (before ++ ·) <$> ·) (ih hparts)
        rw [Functor.map_map, Functor.map_map] at hrest
        exact hrest
      obtain ⟨htag, hinvoked⟩ | ⟨tag, htag, hsource, hinvoked⟩ := part.tag?_cases number
      · rw [piecesOf, replaceTags_append_of_none htag, tagsFrom, htag, Option.toList_none,
          List.nil_append, Functor.map_map]
        simp only [hpart.restoreComments_append, fill, hinvoked]
        exact hafter part.source
      · rw [piecesOf, replaceTags_append_of_some htag, tagsFrom, htag, Option.toList_some,
          List.singleton_append, List.mapM_cons, bind_map_left, map_bind, map_bind]
        refine bind_congr fun result => ?_
        have hresult : ∀ text, restoreComments comments
            ((result.map Subtype.val).getD (numberComments number part.letters) ++ text) =
              (restoreComments comments text).map (result.elim part.source Subtype.val ++ ·) := by
          intro text
          cases result with
          | none => exact hpart.restoreComments_append text
          | some new => exact Markup.restoreComments_append new.property
        rw [Functor.map_map, bind_pure_comp, Functor.map_map]
        simp only [hresult, fill, hinvoked]
        exact hafter (result.elim part.source Subtype.val)

theorem Reads.source_eq (hreads : Reads place letters parts) :
    parts.flatMap Part.source = sourceOf letters := by
  rw [← hreads.letters_eq, sourceOf, List.flatMap_assoc]
  rfl

/-- Of a text without NUL, the tags outside comments are replaced and nothing else. No number has
more digits than can be read if there are few enough comments. -/
theorem expandTags_local (hplain : '\x00' ∉ text)
    (hfew : (protectComments text).2.length ≤ Number.powerOfTen Number.digitLimit) :
    ∃ parts, Reads place (pieces commentPattern text) parts ∧
      parts.flatMap Part.source = text ∧
      (findTags place text).map
          (fun tag => (tag.name, restoreComments (protectComments text).2 tag.source)) =
        ((parts.filterMap Part.invocation?).map fun invoked => (invoked.1, .ok invoked.2)) ∧
      ∀ {m : Type → Type} [Monad m] [LawfulMonad m] (callback : Tag → m (Option PlainText)),
        expandTags place (fun tag => Option.map Subtype.val <$> callback tag) text =
          (fun results => .ok (fill parts results)) <$> (findTags place text).mapM callback := by
  obtain ⟨parts, hreads⟩ := exists_reads place (pieces commentPattern text)
  have hrestorable : Restorable (protectComments text).2 0 (parts.flatMap Part.letters) := by
    rw [hreads.letters_eq]
    exact ⟨fun hmem => hplain (plain_mem_pieces hmem), List.prefix_rfl, by rwa [Nat.zero_add]⟩
  have hpieces : pieces (tagPattern place) (protectComments text).1 = piecesOf 0 parts :=
    hreads.pieces_numberComments
  have htags : findTags place text = tagsFrom 0 parts := by
    rw [findTags, hpieces, filter_values_piecesOf]
  refine ⟨parts, hreads, hreads.source_eq.trans (sourceOf_pieces _ _), ?_, ?_⟩
  · rw [htags]
    exact restoreComments_tagsFrom hrestorable
  · intro m _ _ callback
    rw [htags, ← restoreComments_replaceTags callback hrestorable, ← hpieces]
    exact bind_pure_comp _ _

/-- A tag inside a comment, digits beside comments, a void element, and a tag with a comment that
has a closing mark, in the place of which another tag is put. -/
theorem expandTags_local_mixed :
    ∃ parts, parts.flatMap Part.source =
        "1<!-- <Card/> -->2<br/>3<ui/x a=\"<!-- > -->\"/>4".toList ∧
      parts.filterMap Part.invocation? =
        [("ui/x".toList, "<ui/x a=\"<!-- > -->\"/>".toList)] ∧
      (∀ new : PlainText, expandTags (m := Id) .template (fun _ => some new.val)
        "1<!-- <Card/> -->2<br/>3<ui/x a=\"<!-- > -->\"/>4".toList =
          .ok (fill parts [some new])) ∧
      fill parts [some ⟨"<Card/>".toList, by decide⟩] =
        "1<!-- <Card/> -->2<br/>3<Card/>4".toList := by
  obtain ⟨text, htext⟩ : ∃ text,
    text = "1<!-- <Card/> -->2<br/>3<ui/x a=\"<!-- > -->\"/>4".toList := ⟨_, rfl⟩
  obtain ⟨tag, htags, htag⟩ : ∃ tag, findTags .template text = [tag] ∧
      (tag.name, restoreComments (protectComments text).2 tag.source) =
        ("ui/x".toList, .ok "<ui/x a=\"<!-- > -->\"/>".toList) := by
    rw [htext]
    exact ⟨_, rfl, rfl⟩
  obtain ⟨parts, -, hsource, hinvoked, hexpand⟩ := @expandTags_local .template text
    (by rw [htext]; decide) (by rw [htext]; decide +kernel)
  have hnew : ∀ new : PlainText, expandTags (m := Id) .template (fun _ => some new.val) text =
      .ok (fill parts [some new]) := fun new => by
    have hnew := hexpand (m := Id) fun _ => some new
    rw [htags] at hnew
    exact hnew
  rw [← htext]
  refine ⟨parts, hsource, ?_, hnew, ?_⟩
  · rw [htags, List.map_singleton, htag] at hinvoked
    obtain ⟨invoked, hparts, hpart⟩ := List.map_eq_singleton_iff.mp hinvoked.symm
    obtain ⟨hname, htold⟩ := Prod.mk.inj hpart
    rw [hparts, ← hname, ← Except.ok.inj htold]
  · have hcard := hnew ⟨"<Card/>".toList, by decide⟩
    rw [htext] at hcard
    exact (Except.ok.inj hcard).symm.trans rfl

end PageLoom.Markup
