import Mathlib.Data.List.Forall2
import PageLoom.Proofs.Template.Filling
import PageLoom.Proofs.Template.Outline
import PageLoom.Proofs.Text.Blank
import PageLoom.Proofs.Text.Separation

/-!
# Loops by their nesting

A text whose loop blocks are well nested is the print of texts and loops in a row. Each text stands
for itself, and each loop for one copy of its body for every element of its prop, with the element
in the place of every placeholder of the loop name. Expanding the print yields exactly what its
parts stand for in their order: loops inside a body are text of the body, and what an element brings
along is not read again.
-/

namespace PageLoom.Template

open Scan

/-- Text and loop blocks, one after the other. What follows the keyword of a block is not read. -/
inductive Passage where
  | nil
  | text (content : Text) (rest : Passage)
  | loop (header : Text) (body rest : Passage)

/-- A text, or a loop over the elements of a prop. -/
inductive Stretch where
  | text (content : Text)
  | loop (item source : Text) (body : Passage)

/-! ## Print -/

namespace Passage

def print : Passage → Text
  | nil => []
  | text content rest => content ++ rest.print
  | loop header body rest =>
    written .forEach (' ' :: header) ++ body.print ++ written .endFor [] ++ rest.print

def startsWithText : Passage → Bool
  | text _ _ => true
  | _ => false

/-- No text has the opening mark in it or stands next to another text. -/
def WellFormed : Passage → Prop
  | nil => True
  | text content rest => ¬opening <:+: content ∧ rest.startsWithText = false ∧ rest.WellFormed
  | loop header body rest => Writable (' ' :: header) ∧ body.WellFormed ∧ rest.WellFormed

end Passage

instance (inside : Text) : Decidable (Writable inside) :=
  decidable_of_iff
    (inside.head?.any Text.isWord = false ∧ '\n' ∉ inside ∧ ¬closing <:+: inside)
    ⟨fun hinside => ⟨hinside.1, hinside.2.1, hinside.2.2⟩,
      fun hinside => ⟨hinside.1, hinside.2, hinside.3⟩⟩

def Passage.decideWellFormed : (passage : Passage) → Decidable passage.WellFormed
  | .nil => .isTrue trivial
  | .text content rest =>
    have := rest.decideWellFormed
    inferInstanceAs (Decidable (¬opening <:+: content ∧ rest.startsWithText = false ∧
      rest.WellFormed))
  | .loop header body rest =>
    have := body.decideWellFormed
    have := rest.decideWellFormed
    inferInstanceAs (Decidable (Writable (' ' :: header) ∧ body.WellFormed ∧ rest.WellFormed))

instance (passage : Passage) : Decidable passage.WellFormed := passage.decideWellFormed

/-- The header of a loop over the elements of a prop. -/
def headerOf (item source : Text) : Text := item ++ " in ".toList ++ source

/-- Stretches in a row. -/
def passageOf : List Stretch → Passage
  | [] => .nil
  | .text content :: rest => .text content (passageOf rest)
  | .loop item source body :: rest => .loop (headerOf item source) body (passageOf rest)

def IsItemName (name : Text) : Prop :=
  name.head?.any Text.isIdentifierStart = true ∧ ∀ c ∈ name, Text.isWord c = true

/-- Props may have hyphens in their names. -/
def IsPropName (name : Text) : Prop :=
  name.head?.any Text.isIdentifierStart = true ∧ ∀ c ∈ name, Text.isWord c = true ∨ c = '-'

def Stretch.Named : Stretch → Prop
  | .text _ => True
  | .loop item source _ => IsItemName item ∧ IsPropName source

instance (name : Text) : Decidable (IsItemName name) :=
  decidable_of_iff (name.head?.any Text.isIdentifierStart = true ∧ name.all Text.isWord = true)
    (and_congr_right fun _ => List.all_eq_true)

instance (name : Text) : Decidable (IsPropName name) :=
  decidable_of_iff (name.head?.any Text.isIdentifierStart = true ∧
    name.all (fun c => Text.isWord c || c == '-') = true) (by simp [IsPropName])

instance (stretch : Stretch) : Decidable stretch.Named :=
  match stretch with
  | .text _ => .isTrue trivial
  | .loop item source _ => inferInstanceAs (Decidable (IsItemName item ∧ IsPropName source))

/-! ## Meaning -/

/-- What a loop runs over: the values of a list, what the commas of a text separate if there is any
text, and otherwise nothing. -/
inductive Elements (scope : Props) (source : Text) : List Text → Prop
  | list {values : List Text} (hprop : scope.get? source = some (.list values)) :
      Elements scope source values
  | scalar {text : Text} {values : List Text} (hprop : scope.get? source = some (.scalar text))
      (htext : text ≠ []) (hvalues : Text.Separates [','] text values) :
      Elements scope source values
  | empty (hprop : scope.get? source = some (.scalar [])) : Elements scope source []
  | unbound (hprop : scope.get? source = none) : Elements scope source []

/-- A body in which an element stands where the placeholders of the loop name stood. -/
def IsCopy (item body element copy : Text) : Prop :=
  ∃ pieces, Text.Separates (placeholderOf item) body pieces ∧ Text.joinWith element pieces = copy

inductive Stretch.Means (scope : Props) : Stretch → Text → Prop
  | text {content : Text} : Means scope (.text content) content
  | loop {item source : Text} {body : Passage} {elements copies : List Text}
      (helements : Elements scope source elements)
      (hcopies : List.Forall₂ (IsCopy item body.print) elements copies) :
      Means scope (.loop item source body) copies.flatten

variable {scope : Props} {item source body element content after : Text} {elements : List Text}
variable {opened : List Opened} {level : List Part} {c : Char}

/-! ## Names -/

theorem isBlank_of_isWord (hword : Text.isWord c = true) : Text.isBlank c = false :=
  Text.isBlank_eq_false (by decide +kernel) hword

theorem isBlank_of_isIdentifierStart (hstart : Text.isIdentifierStart c = true) :
    Text.isBlank c = false :=
  Text.isBlank_eq_false (by decide +kernel) hstart

theorem IsItemName.not_mem (hitem : IsItemName item) (hword : Text.isWord c = false) :
    c ∉ item := by
  intro hmem
  rw [hitem.2 c hmem] at hword
  cases hword

theorem IsItemName.unbraced (hitem : IsItemName item) : Unbraced item :=
  ⟨hitem.not_mem rfl, hitem.not_mem rfl⟩

theorem Unbraced.unbordered (hname : Unbraced item) : Text.Unbordered (placeholderOf item) where
  ne_nil := placeholderOf_ne_nil item
  whole hne hsuffix hstart := (hname.eq_of_suffix hname hne hsuffix hstart).1

/-! ## Headers -/

section Headers

variable (hitem : IsItemName item) (hsource : IsPropName source)

include hitem hsource

/-- Nothing is trimmed of a header. -/
theorem argument_headerOf :
    (directiveOf .forEach (' ' :: headerOf item source)).argument = headerOf item source := by
  obtain ⟨first, others, rfl⟩ : ∃ first others, item = first :: others := by
    cases item with
    | nil => cases hitem.1
    | cons first others => exact ⟨first, others, rfl⟩
  have hsome : source ≠ [] := by
    rintro rfl
    cases hsource.1
  have hfirst : Text.isBlank first = false :=
    isBlank_of_isWord (hitem.2 first (List.mem_cons_self ..))
  have hlast : Text.isBlank (source.getLast hsome) = false := by
    rcases hsource.2 _ (List.getLast_mem hsome) with hword | hhyphen
    · exact isBlank_of_isWord hword
    · rw [hhyphen]
      rfl
  have hends : headerOf (first :: others) source =
      (first :: others ++ " in ".toList ++ source.dropLast) ++ [source.getLast hsome] := by
    rw [headerOf, List.append_assoc _ source.dropLast, List.dropLast_append_getLast]
  calc Text.trim (' ' :: headerOf (first :: others) source ++ [' '])
      = Text.trimEnd (Text.trimStart (' ' :: headerOf (first :: others) source ++ [' '])) := rfl
    _ = Text.trimEnd (headerOf (first :: others) source ++ [' ']) := by
        rw [Text.trimStart, List.cons_append, List.dropWhile_cons_of_pos rfl, headerOf,
          List.append_assoc, List.append_assoc, List.cons_append,
          List.dropWhile_cons_of_neg (by rw [hfirst]; exact Bool.false_ne_true)]
    _ = headerOf (first :: others) source := by
        rw [hends, List.append_assoc, List.singleton_append, Text.trimEnd_append_cons hlast]
        rfl

theorem loopHeader?_headerOf : loopHeader? (headerOf item source) = some ⟨item, source⟩ := by
  have hin : headerOf item source = item ++ ' ' :: 'i' :: 'n' :: ' ' :: source := by
    rw [headerOf, List.append_assoc]
    rfl
  have htake : (headerOf item source).takeWhile Text.isWord = item := by
    rw [hin, List.takeWhile_append_of_pos hitem.2, List.takeWhile_cons_of_neg (by decide),
      List.append_nil]
  have hdrop : (headerOf item source).dropWhile Text.isWord =
      ' ' :: 'i' :: 'n' :: ' ' :: source := by
    rw [hin, List.dropWhile_append_of_pos hitem.2, List.dropWhile_cons_of_neg (by decide)]
  have hblank : source.dropWhile Text.isBlank = source := by
    cases hhead : source with
    | nil => rfl
    | cons first others =>
        have hstart := hsource.1
        rw [hhead, List.head?_cons, Option.any_some] at hstart
        exact List.dropWhile_cons_of_neg
          (by rw [isBlank_of_isIdentifierStart hstart]; exact Bool.false_ne_true)
  have hafterItem : (' ' :: 'i' :: 'n' :: ' ' :: source).dropWhile Text.isBlank =
      'i' :: 'n' :: ' ' :: source := rfl
  have hafterIn : (' ' :: source).dropWhile Text.isBlank = source := by
    rw [List.dropWhile_cons_of_pos rfl, hblank]
  have hin? : Text.afterStart? "in".toList ('i' :: 'n' :: ' ' :: source) = some (' ' :: source) :=
    Text.afterStart?_append "in".toList (' ' :: source)
  have hchars : (source.all fun c => Text.isWord c || c == '-') = true := by
    rw [List.all_eq_true]
    intro c hmem
    simpa using hsource.2 c hmem
  have hspace : Text.isBlank ' ' = true := rfl
  simp only [loopHeader?, htake, hdrop, hafterItem, hin?, hafterIn, hitem.1, hsource.1, hchars,
    List.head?_cons, Option.any_some, hspace, Bool.and_self, if_true]

end Headers

/-! ## Parts of a print -/

namespace Passage

def parts : Passage → List Part
  | nil => []
  | text content rest => textParts content ++ rest.parts
  | loop header body rest =>
    .block (written .forEach (' ' :: header) ++ body.print ++ written .endFor [])
      [⟨directiveOf .forEach (' ' :: header), body.print⟩] :: rest.parts

theorem source_parts (passage : Passage) : sourceOfParts passage.parts = passage.print := by
  induction passage with
  | nil => rfl
  | text content rest ih => rw [parts, sourceOfParts_append, source_textParts, ih, print]
  | loop header body rest _ ih =>
      rw [print, ← ih]
      rfl

theorem isDirective_parts (passage : Passage) :
    ∀ part ∈ passage.parts, part.isDirective = false := by
  induction passage with
  | nil => nofun
  | text content rest ih =>
      intro part hmem
      rcases List.mem_append.mp hmem with htext | hrest
      · obtain ⟨c, -, rfl⟩ := List.mem_map.mp htext
        rfl
      · exact ih part hrest
  | loop header body rest _ ih =>
      intro part hmem
      rcases List.mem_cons.mp hmem with rfl | hrest
      · rfl
      · exact ih part hrest

theorem head?_print {passage : Passage} (hstart : passage.startsWithText = false)
    (hafter : after.head? ≠ some '%') : (passage.print ++ after).head? ≠ some '%' := by
  cases passage with
  | nil => exact hafter
  | text content rest => cases hstart
  | loop header body rest => simp [print, written]

/-- The print of a passage is paired to its parts, whatever is open before it. -/
theorem pairFrom_print {passage : Passage} (hwell : passage.WellFormed) (opened : List Opened)
    (level : List Part) (after : Text) (hafter : after.head? ≠ some '%') :
    pairFrom loopRole opened level (directives (passage.print ++ after)) =
      pairFrom loopRole opened (level ++ passage.parts) (directives after) := by
  induction passage generalizing opened level after with
  | nil =>
      rw [parts, List.append_nil]
      rfl
  | text content rest ih =>
      obtain ⟨hcontent, hstart, hrest⟩ := hwell
      rw [print, List.append_assoc, directives_append hcontent (head?_print hstart hafter),
        pairFrom_text, ih hrest _ _ _ hafter, List.append_assoc, parts]
  | loop header body rest ihBody ihRest =>
      obtain ⟨hheader, hbody, hrest⟩ := hwell
      have hcut : cutParts loopRole (directiveOf .forEach (' ' :: header)) body.parts =
          ⟨[], directiveOf .forEach (' ' :: header), body.print⟩ := by
        rw [cutParts, foldl_add _ body.isDirective_parts, body.source_parts]
        rfl
      rw [print, List.append_assoc, List.append_assoc, List.append_assoc,
        directives_written hheader, pairFrom_opens rfl,
        ihBody hbody _ _ _ (by simp [written]), List.nil_append,
        directives_written writable_nil, pairFrom_closes rfl, ihRest hrest _ _ _ hafter,
        Opened.close, hcut, body.source_parts, List.append_assoc]
      rfl

theorem paired_print {passage : Passage} (hwell : passage.WellFormed) :
    paired loopRole (directives passage.print) = passage.parts := by
  have hpairs := pairFrom_print hwell [] [] [] (by simp)
  rw [List.append_nil] at hpairs
  exact hpairs

end Passage

/-! ## Expansion of a print -/

/-- What a stretch is expanded to. -/
def Stretch.expanded (scope : Props) : Stretch → Text
  | .text content => content
  | .loop item source body => repeatBody ⟨item, source⟩ (loopItems scope source) body.print

theorem rewriteParts_passageOf {ε : Type} {stretches : List Stretch}
    (hnamed : ∀ stretch ∈ stretches, stretch.Named) :
    rewriteParts (ε := ε) (fun sections => .ok (expandLoop scope sections))
        (passageOf stretches).parts = .ok (stretches.flatMap (Stretch.expanded scope)) := by
  induction stretches with
  | nil => rfl
  | cons stretch rest ih =>
      rw [List.forall_mem_cons] at hnamed
      have hrest := ih hnamed.2
      cases stretch with
      | text content =>
          have htext : ∀ part ∈ textParts content, part.isBlock = false := by
            intro part hmem
            obtain ⟨c, -, rfl⟩ := List.mem_map.mp hmem
            rfl
          rw [passageOf, Passage.parts, rewriteParts_append, rewriteParts_of_no_block htext, hrest,
            source_textParts]
          rfl
      | loop item source body =>
          obtain ⟨hitem, hsource⟩ := hnamed.1
          rw [passageOf, Passage.parts, rewriteParts, expandLoop, argument_headerOf hitem hsource,
            loopHeader?_headerOf hitem hsource, hrest]
          rfl

/-- The print of stretches in a row is expanded stretch by stretch. -/
theorem expandLoops_passageOf {stretches : List Stretch} (hwell : (passageOf stretches).WellFormed)
    (hnamed : ∀ stretch ∈ stretches, stretch.Named) :
    expandLoops scope (passageOf stretches).print =
      stretches.flatMap (Stretch.expanded scope) := by
  have hreplaced : replaceBlocks (ε := Empty) loopRole
      (fun sections => .ok (expandLoop scope sections)) 0
      (directives (passageOf stretches).print) =
        .ok (stretches.flatMap (Stretch.expanded scope)) := by
    have hparts := (passageOf stretches).isDirective_parts
    rw [replaceBlocks_eq, Passage.paired_print hwell, beforeUnclosed_eq_self hparts,
      fromUnclosed_eq_nil hparts, rewriteParts_passageOf hnamed]
    exact congrArg Except.ok (List.append_nil _)
  simp only [expandLoops, hreplaced]

/-! ## What is expanded is what is meant -/

theorem elements_iff : Elements scope source elements ↔ loopItems scope source = elements := by
  unfold loopItems
  constructor
  · intro helements
    cases helements with
    | list hprop =>
        rw [hprop]
        rfl
    | scalar hprop htext hvalues =>
        obtain ⟨c, rest, rfl⟩ := List.exists_cons_of_ne_nil htext
        rw [hprop]
        exact hvalues.splitOn_eq
    | empty hprop =>
        rw [hprop]
        rfl
    | unbound hprop => rw [hprop]
  · rintro rfl
    cases hprop : scope.get? source with
    | none => exact .unbound hprop
    | some value =>
        cases value with
        | list values => exact .list hprop
        | scalar text =>
            cases text with
            | nil => exact .empty hprop
            | cons c rest =>
                exact .scalar hprop (List.cons_ne_nil _ _) (Text.separates_splitOn ',' (c :: rest))

theorem isCopy_iff (hitem : IsItemName item) {copy : Text} :
    IsCopy item body element copy ↔
      Text.replaceAll (placeholderOf item) element body = copy := by
  have hmark := hitem.unbraced.unbordered
  constructor
  · rintro ⟨pieces, hpieces, rfl⟩
    exact hpieces.replaceAll hmark element
  · rintro rfl
    obtain ⟨pieces, hpieces⟩ := Text.exists_separates hmark.ne_nil body
    exact ⟨pieces, hpieces, (hpieces.replaceAll hmark element).symm⟩

/-- A relation that is a function holds of two lists, member by member, if mapping the first gives
the second. -/
theorem forall₂_iff_map_eq {α β : Type} {R : α → β → Prop} {f : α → β} {items : List α}
    (hsame : ∀ item ∈ items, ∀ other, R item other ↔ f item = other) (others : List β) :
    List.Forall₂ R items others ↔ items.map f = others := by
  induction items generalizing others with
  | nil => rw [List.forall₂_nil_left_iff, List.map_nil, eq_comm]
  | cons item rest ih =>
      rw [List.forall_mem_cons] at hsame
      rw [List.forall₂_cons_left_iff, List.map_cons]
      constructor
      · rintro ⟨other, later, hother, hlater, rfl⟩
        rw [(hsame.1 other).mp hother, (ih hsame.2 later).mp hlater]
      · rintro rfl
        exact ⟨_, _, (hsame.1 _).mpr rfl, (ih hsame.2 _).mpr rfl, rfl⟩

theorem Stretch.means_iff {stretch : Stretch} (hnamed : stretch.Named) {text : Text} :
    stretch.Means scope text ↔ stretch.expanded scope = text := by
  cases stretch with
  | text content =>
      constructor
      · intro hmeans
        cases hmeans
        rfl
      · rintro rfl
        exact .text
  | loop item source body =>
      have hcopies : ∀ elements copies : List Text,
          List.Forall₂ (IsCopy item body.print) elements copies ↔
            elements.map (Text.replaceAll (placeholderOf item) · body.print) = copies :=
        fun _ => forall₂_iff_map_eq fun _ _ _ => isCopy_iff hnamed.1
      rw [expanded, repeatBody, List.flatMap_def]
      constructor
      · intro hmeans
        cases hmeans with
        | loop helements hmade =>
            rw [elements_iff.mp helements, (hcopies _ _).mp hmade]
      · rintro rfl
        exact .loop (elements_iff.mpr rfl) ((hcopies _ _).mpr rfl)

/-- The expansion of a print is what its stretches mean, one after the other, and nothing else. -/
theorem expandLoops_print_iff (scope : Props) {stretches : List Stretch}
    (hwell : (passageOf stretches).WellFormed) (hnamed : ∀ stretch ∈ stretches, stretch.Named)
    (expanded : Text) :
    expandLoops scope (passageOf stretches).print = expanded ↔
      ∃ texts, List.Forall₂ (Stretch.Means scope) stretches texts ∧ texts.flatten = expanded := by
  have htexts : ∀ texts : List Text, List.Forall₂ (Stretch.Means scope) stretches texts ↔
      stretches.map (Stretch.expanded scope) = texts :=
    forall₂_iff_map_eq fun stretch hmem _ => Stretch.means_iff (hnamed stretch hmem)
  rw [expandLoops_passageOf hwell hnamed, List.flatMap_def]
  constructor
  · rintro rfl
    exact ⟨_, (htexts _).mpr rfl, rfl⟩
  · rintro ⟨texts, hmeans, rfl⟩
    rw [(htexts texts).mp hmeans]

/-- Two loops: one with another loop in its body, over elements that look like its placeholder, and
one over a list. -/
theorem expandLoops_print_nested :
    ∃ (scope : Props) (stretches : List Stretch),
      (passageOf stretches).print =
        ("a\x7b% for x in xs %\x7d[\x7b\x7bx\x7d\x7d\x7b% for y in \x7b\x7bx\x7d\x7d %\x7dy" ++
          "\x7b% endfor %\x7d]\x7b% endfor %\x7d%\x7b% for z in vs-1 %\x7d<\x7b\x7bz\x7d\x7d>" ++
          "\x7b% endfor %\x7d").toList ∧
      (passageOf stretches).WellFormed ∧ (∀ stretch ∈ stretches, stretch.Named) ∧
      ∃ texts, List.Forall₂ (Stretch.Means scope) stretches texts ∧
        texts.flatten =
          ("a[1\x7b% for y in 1 %\x7dy\x7b% endfor %\x7d][\x7b\x7bx\x7d\x7d\x7b% for y in " ++
            "\x7b\x7bx\x7d\x7d %\x7dy\x7b% endfor %\x7d]%<p><q,r>").toList := by
  let scope : Props := [("xs".toList, .scalar "1,\x7b\x7bx\x7d\x7d".toList),
    ("vs-1".toList, .list ["p".toList, "q,r".toList])]
  let stretches : List Stretch := [
    .text "a".toList,
    .loop "x".toList "xs".toList (.text "[\x7b\x7bx\x7d\x7d".toList
      (.loop "y in \x7b\x7bx\x7d\x7d".toList (.text "y".toList .nil) (.text "]".toList .nil))),
    .text "%".toList,
    .loop "z".toList "vs-1".toList (.text "<\x7b\x7bz\x7d\x7d>".toList .nil)]
  have hwell : (passageOf stretches).WellFormed := by decide +kernel
  have hnamed : ∀ stretch ∈ stretches, stretch.Named := by decide +kernel
  refine ⟨scope, stretches, rfl, hwell, hnamed, ?_⟩
  apply (expandLoops_print_iff scope hwell hnamed _).mp
  decide +kernel

end PageLoom.Template
