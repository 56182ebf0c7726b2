import PageLoom.Proofs.Condition.Blank
import PageLoom.Proofs.Template.Outermost
import PageLoom.Proofs.Template.Written

/-!
# Conditionals by their nesting

A text whose conditional blocks are well nested is the print of a tree. The tree has a meaning by
recursion: text stands for itself, and a block gives way to the meaning of the trimmed body of its
first branch that applies. Evaluating the print of a tree yields that meaning, and bodies that are
not chosen do not matter to it.
-/

namespace PageLoom.Template

open Scan

mutual

/-- Text and conditional blocks, one after the other. -/
inductive Outline where
  | nil
  | text (content : Text) (rest : Outline)
  | block (condition : Text) (body : Outline) (others : Branches) (rest : Outline)

/-- What follows the body of a branch: the end of the block, the last branch without a condition, or
another branch. -/
inductive Branches where
  | endIf
  | otherwise (body : Outline)
  | elseIf (condition : Text) (body : Outline) (others : Branches)

end

/-! ## Print -/

mutual

def Outline.print : Outline → Text
  | .nil => []
  | .text content rest => content ++ rest.print
  | .block condition body others rest =>
    written .ifTrue (' ' :: condition) ++ body.print ++ others.print ++ rest.print

def Branches.print : Branches → Text
  | .endIf => written .endIf []
  | .otherwise body => written .otherwise [] ++ body.print ++ written .endIf []
  | .elseIf condition body others =>
    written .elseIf (' ' :: condition) ++ body.print ++ others.print

end

def Outline.startsWithText : Outline → Bool
  | .text _ _ => true
  | _ => false

/-- A condition stands on one line and does not end its directive. -/
structure IsCondition (condition : Text) : Prop where
  line : '\n' ∉ condition
  unclosed : ¬closing <:+: condition

mutual

/-- No text has the opening mark in it or stands next to another text. -/
def Outline.WellFormed : Outline → Prop
  | .nil => True
  | .text content rest =>
    ¬opening <:+: content ∧ rest.startsWithText = false ∧ rest.WellFormed
  | .block condition body others rest =>
    IsCondition condition ∧ body.WellFormed ∧ others.WellFormed ∧ rest.WellFormed

def Branches.WellFormed : Branches → Prop
  | .endIf => True
  | .otherwise body => body.WellFormed
  | .elseIf condition body others => IsCondition condition ∧ body.WellFormed ∧ others.WellFormed

end

instance (condition : Text) : Decidable (IsCondition condition) :=
  decidable_of_iff ('\n' ∉ condition ∧ ¬closing <:+: condition)
    ⟨fun hcondition => ⟨hcondition.1, hcondition.2⟩, fun hcondition => ⟨hcondition.1, hcondition.2⟩⟩

mutual

def Outline.decideWellFormed : (outline : Outline) → Decidable outline.WellFormed
  | .nil => .isTrue trivial
  | .text content rest =>
    have := rest.decideWellFormed
    inferInstanceAs (Decidable (¬opening <:+: content ∧ rest.startsWithText = false ∧
      rest.WellFormed))
  | .block condition body others rest =>
    have := body.decideWellFormed
    have := others.decideWellFormed
    have := rest.decideWellFormed
    inferInstanceAs (Decidable (IsCondition condition ∧ body.WellFormed ∧ others.WellFormed ∧
      rest.WellFormed))

def Branches.decideWellFormed : (branches : Branches) → Decidable branches.WellFormed
  | .endIf => .isTrue trivial
  | .otherwise body => body.decideWellFormed
  | .elseIf condition body others =>
    have := body.decideWellFormed
    have := others.decideWellFormed
    inferInstanceAs (Decidable (IsCondition condition ∧ body.WellFormed ∧ others.WellFormed))

end

instance (outline : Outline) : Decidable outline.WellFormed := outline.decideWellFormed

/-! ## Meaning -/

def Outline.trimStart : Outline → Outline
  | .text content rest => .text (Text.trimStart content) rest
  | outline => outline

def Outline.trimEnd : Outline → Outline
  | .nil => .nil
  | .text content .nil => .text (Text.trimEnd content) .nil
  | .text content rest => .text content rest.trimEnd
  | .block condition body others rest => .block condition body others rest.trimEnd

/-- The surrounding blanks of a body belong to the text at its edges. -/
def Outline.trim (outline : Outline) : Outline := outline.trimStart.trimEnd

mutual

def Outline.size : Outline → Nat
  | .nil => 0
  | .text _ rest => rest.size + 1
  | .block _ body others rest => body.size + others.size + rest.size + 2

def Branches.size : Branches → Nat
  | .endIf => 0
  | .otherwise body => body.size + 1
  | .elseIf _ body others => body.size + others.size + 1

end

theorem Outline.size_trimEnd : ∀ outline : Outline, outline.trimEnd.size = outline.size
  | .nil => rfl
  | .text _ .nil => rfl
  | .text _ (.text next rest) => congrArg (· + 1) (size_trimEnd (.text next rest))
  | .text _ (.block condition body others rest) =>
    congrArg (· + 1) (size_trimEnd (.block condition body others rest))
  | .block _ body others rest =>
    congrArg (fun size => body.size + others.size + size + 2) (size_trimEnd rest)

@[simp]
theorem Outline.size_trim (outline : Outline) : outline.trim.size = outline.size := by
  rw [trim, size_trimEnd]
  cases outline <;> rfl

mutual

def Outline.meaning (scope : Props) : Outline → Except NumberFault Text
  | .nil => .ok []
  | .text content rest => do return content ++ (← rest.meaning scope)
  | .block condition body others rest => do
    let chosen ← (Branches.elseIf condition body others).meaning scope
    return chosen ++ (← rest.meaning scope)
termination_by outline => outline.size
decreasing_by all_goals simp only [Outline.size, Branches.size]; omega

/-- The meaning of the first branch that applies. -/
def Branches.meaning (scope : Props) : Branches → Except NumberFault Text
  | .endIf => .ok []
  | .otherwise body => body.trim.meaning scope
  | .elseIf condition body others => do
    if ← Condition.holds condition scope then body.trim.meaning scope
    else others.meaning scope
termination_by branches => branches.size
decreasing_by all_goals simp only [Outline.size_trim, Branches.size]; omega

end

variable {scope : Props} {opened : List Opened} {level : List Part} {after : Text}

/-! ## Parts of a print -/

/-- Whether a part is a directive that belongs to no block. -/
def Part.isDirective : Part → Bool
  | .piece (.found _ _) => true
  | _ => false

section NoDirective

variable {role : Keyword → Role} {parts : List Part}
variable (hparts : ∀ part ∈ parts, part.isDirective = false)

include hparts

theorem not_isUnclosed_of_not_isDirective :
    ∀ part ∈ parts, part.isUnclosed role = false := by
  intro part hmem
  cases part with
  | block source sections => rfl
  | piece piece =>
      cases piece with
      | plain c => rfl
      | found source directive => cases hparts _ hmem

/-- Where no directive is without a partner, all blocks are replaced. -/
theorem beforeUnclosed_eq_self : beforeUnclosed role parts = parts := by
  apply List.takeWhile_eq_self_iff.mpr
  simpa using not_isUnclosed_of_not_isDirective hparts

theorem fromUnclosed_eq_nil : fromUnclosed role parts = [] := by
  apply List.dropWhile_eq_nil_iff.mpr
  simpa using not_isUnclosed_of_not_isDirective hparts

end NoDirective

theorem foldl_add {role : Keyword → Role} {parts : List Part} (cut : Cut)
    (hparts : ∀ part ∈ parts, part.isDirective = false) :
    parts.foldl (Cut.add role) cut = cut.extend (sourceOfParts parts) := by
  induction parts generalizing cut with
  | nil => simp [sourceOfParts, Cut.extend]
  | cons part parts ih =>
      have hfirst : cut.add role part = cut.extend part.source := by
        cases part with
        | block source sections => rfl
        | piece piece =>
            cases piece with
            | plain c => rfl
            | found source directive => cases hparts _ (List.mem_cons_self ..)
      rw [List.foldl_cons, hfirst,
        ih _ fun other hmem => hparts other (List.mem_cons_of_mem _ hmem),
        ← Cut.extend_append]
      rfl

def textParts (content : Text) : List Part := content.map fun c => .piece (.plain c)

def sectionOf (keyword : Keyword) (inside : Text) (body : Outline) : Section :=
  ⟨directiveOf keyword inside, body.print⟩

def Branches.sections : Branches → List Section
  | .endIf => []
  | .otherwise body => [sectionOf .otherwise [] body]
  | .elseIf condition body others => sectionOf .elseIf (' ' :: condition) body :: others.sections

def Outline.parts : Outline → List Part
  | .nil => []
  | .text content rest => textParts content ++ rest.parts
  | .block condition body others rest =>
    .block (written .ifTrue (' ' :: condition) ++ body.print ++ others.print)
      (sectionOf .ifTrue (' ' :: condition) body :: others.sections) :: rest.parts

theorem IsCondition.writable {condition : Text} (hcondition : IsCondition condition) :
    Writable (' ' :: condition) where
  apart := rfl
  line := by
    rw [List.mem_cons, not_or]
    exact ⟨by decide, hcondition.line⟩
  unclosed := by
    rw [List.infix_cons_iff, not_or]
    exact ⟨by simp [closing], hcondition.unclosed⟩

theorem writable_nil : Writable [] := ⟨rfl, by simp, by simp [closing]⟩

theorem source_textParts (content : Text) : sourceOfParts (textParts content) = content := by
  induction content with
  | nil => rfl
  | cons c content ih => exact congrArg (c :: ·) ih

theorem Outline.source_parts : ∀ outline : Outline, sourceOfParts outline.parts = outline.print
  | .nil => rfl
  | .text content rest => by
    rw [parts, sourceOfParts_append, source_textParts, source_parts rest, print]
  | .block condition body others rest => by
    have hrest := source_parts rest
    rw [print, ← hrest]
    rfl

theorem Outline.isDirective_parts : ∀ outline : Outline, ∀ part ∈ outline.parts,
    part.isDirective = false
  | .nil => nofun
  | .text content rest => by
    intro part hmem
    rcases List.mem_append.mp hmem with htext | hrest
    · obtain ⟨c, -, rfl⟩ := List.mem_map.mp htext
      rfl
    · exact isDirective_parts rest part hrest
  | .block condition body others rest => by
    intro part hmem
    rcases List.mem_cons.mp hmem with rfl | hrest
    · rfl
    · exact isDirective_parts rest part hrest

/-- A separating directive and the body after it are a section of the block. -/
theorem sections_cutParts (directive : Directive) {keyword : Keyword} (inside : Text)
    (body : Outline) (hrole : conditionalRole keyword = .separates) :
    (cutParts conditionalRole directive
        (level ++ [.piece (.found (written keyword inside) (directiveOf keyword inside))] ++
          body.parts)).sections =
      (cutParts conditionalRole directive level).sections ++ [sectionOf keyword inside body] := by
  have hrole : conditionalRole (directiveOf keyword inside).keyword = .separates := hrole
  rw [cutParts, List.foldl_append, foldl_add _ body.isDirective_parts, ← cutParts, cutParts_concat,
    body.source_parts, Cut.add, if_pos hrole]
  rfl

theorem Branches.head?_print (branches : Branches) (after : Text) :
    (branches.print ++ after).head? ≠ some '%' := by
  cases branches <;> simp [print, written]

theorem Outline.head?_print {outline : Outline} (hstart : outline.startsWithText = false)
    (hafter : after.head? ≠ some '%') : (outline.print ++ after).head? ≠ some '%' := by
  cases outline with
  | nil => exact hafter
  | text content rest => cases hstart
  | block condition body others rest => simp [print, written]

theorem pairFrom_text (role : Keyword → Role) (content : Text) (more : List (Piece Directive)) :
    pairFrom role opened level (content.map .plain ++ more) =
      pairFrom role opened (level ++ textParts content) more := by
  induction content generalizing level with
  | nil => rw [textParts, List.map_nil, List.map_nil, List.nil_append, List.append_nil]
  | cons c content ih =>
      have halone : StandsAlone role opened (.plain c) := trivial
      rw [List.map_cons, List.cons_append, pairFrom_standsAlone halone, ih, List.append_assoc]
      rfl

mutual

/-- The print of an outline is paired to its parts, whatever is open before it. -/
theorem Outline.pairFrom_print (outline : Outline) (hwell : outline.WellFormed)
    (opened : List Opened) (level : List Part) (after : Text) (hafter : after.head? ≠ some '%') :
    pairFrom conditionalRole opened level (directives (outline.print ++ after)) =
      pairFrom conditionalRole opened (level ++ outline.parts) (directives after) := by
  match outline with
  | .nil => rw [Outline.parts, List.append_nil]; rfl
  | .text content rest =>
    obtain ⟨hcontent, hstart, hrest⟩ := hwell
    rw [Outline.print, List.append_assoc,
      directives_append hcontent (Outline.head?_print hstart hafter), pairFrom_text,
      rest.pairFrom_print hrest _ _ _ hafter, List.append_assoc, Outline.parts]
  | .block condition body others rest =>
    obtain ⟨hcondition, hbody, hothers, hrest⟩ := hwell
    have hcut : cutParts conditionalRole (directiveOf .ifTrue (' ' :: condition)) body.parts =
        ⟨[], sectionOf .ifTrue (' ' :: condition) body⟩ := by
      rw [cutParts, foldl_add _ body.isDirective_parts, body.source_parts]
      rfl
    rw [Outline.print, List.append_assoc, List.append_assoc, List.append_assoc,
      directives_written hcondition.writable, pairFrom_opens rfl,
      body.pairFrom_print hbody _ _ _ (others.head?_print _), List.nil_append,
      others.pairFrom_print hothers ⟨_, _, _⟩ _ _ _,
      rest.pairFrom_print hrest _ _ _ hafter, hcut, body.source_parts, List.append_assoc]
    rfl

/-- The print of what follows the body of a branch ends the block that was opened last. -/
theorem Branches.pairFrom_print (branches : Branches) (hwell : branches.WellFormed) (last : Opened)
    (opened : List Opened) (level : List Part) (after : Text) :
    pairFrom conditionalRole (last :: opened) level (directives (branches.print ++ after)) =
      pairFrom conditionalRole opened
        (last.before ++ [.block (last.source ++ sourceOfParts level ++ branches.print)
          ((cutParts conditionalRole last.directive level).sections ++ branches.sections)])
        (directives after) := by
  match branches with
  | .endIf =>
    rw [Branches.print, directives_written writable_nil, pairFrom_closes rfl, Opened.close,
      Branches.sections, List.append_nil]
  | .otherwise body =>
    have halone : StandsAlone conditionalRole (last :: opened)
        (.found (written .otherwise []) (directiveOf .otherwise [])) := ⟨nofun, nofun⟩
    rw [Branches.print, List.append_assoc, List.append_assoc, directives_written writable_nil,
      pairFrom_standsAlone halone, body.pairFrom_print hwell _ _ _ (by simp [written]),
      directives_written writable_nil, pairFrom_closes rfl, Opened.close,
      sections_cutParts _ _ _ rfl, sourceOfParts_append, sourceOfParts_append, body.source_parts]
    simp [sourceOfParts, Part.source, Piece.source, Branches.sections]
  | .elseIf condition body others =>
    obtain ⟨hcondition, hbody, hothers⟩ := hwell
    have halone : StandsAlone conditionalRole (last :: opened)
        (.found (written .elseIf (' ' :: condition)) (directiveOf .elseIf (' ' :: condition))) :=
      ⟨nofun, nofun⟩
    rw [Branches.print, List.append_assoc, List.append_assoc,
      directives_written hcondition.writable, pairFrom_standsAlone halone,
      body.pairFrom_print hbody _ _ _ (others.head?_print _),
      others.pairFrom_print hothers _ _ _ _, sections_cutParts _ _ _ rfl,
      sourceOfParts_append, sourceOfParts_append, body.source_parts]
    simp [sourceOfParts, Part.source, Piece.source, Branches.sections]

end

theorem Outline.conditionalParts_print {outline : Outline} (hwell : outline.WellFormed) :
    conditionalParts outline.print = outline.parts := by
  have hpairs := outline.pairFrom_print hwell [] [] [] (by simp)
  rw [List.append_nil] at hpairs
  exact hpairs

/-- The print of an outline is evaluated block by block. -/
theorem Outline.evaluate_print {outline : Outline} (hwell : outline.WellFormed) :
    evaluateConditionals scope outline.print =
      rewriteParts (evaluateChosen scope) outline.parts := by
  rw [evaluateConditionals_eq, conditionalParts_print hwell,
    beforeUnclosed_eq_self outline.isDirective_parts, fromUnclosed_eq_nil outline.isDirective_parts]
  simp [sourceOfParts]

/-! ## Trimmed bodies -/

theorem Outline.trimStart_print {outline : Outline} (hwell : outline.WellFormed) :
    Text.trimStart outline.print = outline.trimStart.print := by
  have hblock : ∀ rest : Outline, rest.startsWithText = false →
      Text.trimStart rest.print = rest.print := by
    intro rest hstart
    cases rest with
    | nil => rfl
    | text content rest => cases hstart
    | block condition body others rest =>
        simp only [Outline.print, written, List.append_assoc]
        rfl
  cases outline with
  | nil => rfl
  | block condition body others rest => exact hblock _ rfl
  | text content rest =>
      obtain ⟨-, hstart, -⟩ := hwell
      have hrest := hblock rest hstart
      simp only [Outline.trimStart, Outline.print, Text.trimStart] at hrest ⊢
      rw [List.dropWhile_append]
      split
      · next hnone => rw [hrest, List.isEmpty_iff.mp hnone]; rfl
      · rfl

theorem Branches.print_eq_concat (branches : Branches) :
    ∃ front, branches.print = front ++ ['\x7d'] := by
  match branches with
  | .endIf => exact ⟨"\x7b% endif %".toList, rfl⟩
  | .otherwise body =>
    refine ⟨written .otherwise [] ++ body.print ++ "\x7b% endif %".toList, ?_⟩
    rw [print, List.append_assoc _ "\x7b% endif %".toList]
    rfl
  | .elseIf condition body others =>
    obtain ⟨front, hfront⟩ := others.print_eq_concat
    refine ⟨written .elseIf (' ' :: condition) ++ body.print ++ front, ?_⟩
    rw [print, hfront, List.append_assoc _ front]

theorem Outline.trimEnd_print_block {rest : Outline}
    (hrest : Text.trimEnd rest.print = rest.trimEnd.print) (condition : Text) (body : Outline)
    (others : Branches) :
    Text.trimEnd (Outline.block condition body others rest).print =
      (Outline.block condition body others rest.trimEnd).print := by
  obtain ⟨front, hfront⟩ := others.print_eq_concat
  have hclosing : Text.isBlank '\x7d' = false := rfl
  rw [print, print, hfront, ← List.append_assoc, List.append_assoc _ _ rest.print,
    List.singleton_append, Text.trimEnd_append_cons hclosing, hrest, List.append_assoc _ ['\x7d']]
  rfl

theorem Outline.trimEnd_print : ∀ {outline : Outline}, outline.WellFormed →
    Text.trimEnd outline.print = outline.trimEnd.print
  | .nil, _ => rfl
  | .text content .nil, _ => by
    change Text.trimEnd (content ++ []) = Text.trimEnd content ++ []
    rw [List.append_nil, List.append_nil]
  | .text content (.text next rest), hwell => by cases hwell.2.1
  | .text content (.block condition body others rest), hwell => by
    have hblock := trimEnd_print hwell.2.2
    have hsome : (Outline.block condition body others rest).trimEnd.print ≠ [] := by
      rw [trimEnd, print, written]
      simp
    rw [print, Text.trimEnd_append (by rwa [hblock]), hblock]
    rfl
  | .block condition body others rest, hwell =>
    trimEnd_print_block (trimEnd_print hwell.2.2.2) condition body others

theorem Outline.WellFormed.trimStart {outline : Outline} (hwell : outline.WellFormed) :
    outline.trimStart.WellFormed := by
  cases outline with
  | nil => trivial
  | block condition body others rest => exact hwell
  | text content rest =>
      obtain ⟨hcontent, hrest⟩ := hwell
      exact ⟨fun hmark => hcontent (hmark.trans (Text.trimStart_suffix content).isInfix), hrest⟩

theorem Outline.WellFormed.trimEnd : ∀ {outline : Outline}, outline.WellFormed →
    outline.trimEnd.WellFormed
  | .nil, _ => trivial
  | .text content .nil, hwell =>
    ⟨fun hmark => hwell.1 (hmark.trans (Text.trimEnd_prefix content).isInfix), rfl, trivial⟩
  | .text content (.text next rest), hwell => by cases hwell.2.1
  | .text content (.block condition body others rest), hwell => ⟨hwell.1, rfl, hwell.2.2.trimEnd⟩
  | .block condition body others rest, hwell =>
    ⟨hwell.1, hwell.2.1, hwell.2.2.1, hwell.2.2.2.trimEnd⟩

theorem Outline.WellFormed.trim {outline : Outline} (hwell : outline.WellFormed) :
    outline.trim.WellFormed := hwell.trimStart.trimEnd

/-- Trimming a body is trimming its print. -/
theorem Outline.trim_print {outline : Outline} (hwell : outline.WellFormed) :
    Text.trim outline.print = outline.trim.print :=
  calc Text.trim outline.print
      = Text.trimEnd (Text.trimStart outline.print) := rfl
    _ = Text.trimEnd outline.trimStart.print := by rw [trimStart_print hwell]
    _ = outline.trim.print := trimEnd_print hwell.trimStart

/-! ## Evaluation of a print -/

theorem holds_directiveOf (keyword : Keyword) (condition : Text) (scope : Props) :
    Condition.holds (directiveOf keyword (' ' :: condition)).argument scope =
      Condition.holds condition scope := by
  have hblank : ∀ c ∈ [' '], Text.isBlank c = true := by
    intro c hmem
    cases List.mem_singleton.mp hmem
    rfl
  rw [directiveOf, Condition.holds_trim]
  exact Condition.holds_append hblank hblank

theorem chosenBody_sectionOf (keyword : Keyword) (condition : Text) (body : Outline)
    (others : List Section) (hkeyword : keyword ≠ .otherwise) :
    chosenBody scope (sectionOf keyword (' ' :: condition) body :: others) = (do
      if ← Condition.holds condition scope then return Text.trim body.print
      else chosenBody scope others) := by
  have hdirective : (directiveOf keyword (' ' :: condition)).keyword ≠ .otherwise := hkeyword
  rw [sectionOf, chosenBody, if_neg hdirective, holds_directiveOf]

theorem evaluate_trim {body : Outline} (hwell : body.WellFormed)
    (hparts : rewriteParts (evaluateChosen scope) body.trim.parts = body.trim.meaning scope) :
    evaluateConditionals scope (Text.trim body.print) = body.trim.meaning scope := by
  rw [Outline.trim_print hwell, Outline.evaluate_print hwell.trim, hparts]

mutual

/-- Replacing the blocks of a print one by one yields the meaning of the outline. -/
theorem Outline.rewriteParts_parts (outline : Outline) (hwell : outline.WellFormed) :
    rewriteParts (evaluateChosen scope) outline.parts = outline.meaning scope := by
  match outline with
  | .nil => rw [Outline.meaning]; rfl
  | .text content rest =>
    have htext : ∀ part ∈ textParts content, part.isBlock = false := by
      intro part hmem
      obtain ⟨c, -, rfl⟩ := List.mem_map.mp hmem
      rfl
    rw [Outline.parts, rewriteParts_append, rewriteParts_of_no_block htext, source_textParts,
      rest.rewriteParts_parts hwell.2.2, Outline.meaning]
    rfl
  | .block condition body others rest =>
    obtain ⟨hcondition, hbody, hothers, hrest⟩ := hwell
    have hchosen := (Branches.elseIf condition body others).evaluate_sections
      ⟨hcondition, hbody, hothers⟩
    rw [Branches.sections, chosenBody_sectionOf _ _ _ _ (by decide)] at hchosen
    rw [Outline.parts, rewriteParts, evaluateChosen, chosenBody_sectionOf _ _ _ _ (by decide),
      rest.rewriteParts_parts hrest, Outline.meaning, ← hchosen]
    simp only [bind_assoc, pure_bind, Option.getD_some]
termination_by outline.size
decreasing_by all_goals simp only [Outline.size, Branches.size]; omega

/-- What the sections of a block give way to is the meaning of its first branch that applies. -/
theorem Branches.evaluate_sections (branches : Branches) (hwell : branches.WellFormed) :
    (do evaluateConditionals scope (← chosenBody scope branches.sections)) =
      branches.meaning scope := by
  match branches with
  | .endIf => rw [Branches.meaning]; rfl
  | .otherwise body =>
    rw [Branches.meaning, ← evaluate_trim hwell (body.trim.rewriteParts_parts hwell.trim)]
    rfl
  | .elseIf condition body others =>
    obtain ⟨hcondition, hbody, hothers⟩ := hwell
    rw [Branches.meaning, Branches.sections, chosenBody_sectionOf _ _ _ _ (by decide),
      ← others.evaluate_sections hothers,
      ← evaluate_trim hbody (body.trim.rewriteParts_parts hbody.trim)]
    cases Condition.holds condition scope with
    | error fault => rfl
    | ok holds => cases holds <;> rfl
termination_by branches.size
decreasing_by all_goals simp only [Outline.size_trim, Branches.size]; omega

end

/-! ## Bodies that are not chosen -/

/-- Whether a condition is evaluated to a given answer. -/
def answers (condition : Text) (scope : Props) (answer : Bool) : Bool :=
  match Condition.holds condition scope with
  | .ok holds => holds == answer
  | .error _ => false

def Outline.keepIf (keep : Bool) (body : Outline) : Outline := if keep then body else .nil

def Branches.keepIf (keep : Bool) (others : Branches) : Branches := if keep then others else .endIf

mutual

/-- An outline without the bodies that are not chosen and the branches that are not reached. -/
def Outline.chosenOnly (scope : Props) : Outline → Outline
  | .nil => .nil
  | .text content rest => .text content (rest.chosenOnly scope)
  | .block condition body others rest =>
    .block condition ((body.chosenOnly scope).keepIf (answers condition scope true))
      ((others.chosenOnly scope).keepIf (answers condition scope false)) (rest.chosenOnly scope)

def Branches.chosenOnly (scope : Props) : Branches → Branches
  | .endIf => .endIf
  | .otherwise body => .otherwise (body.chosenOnly scope)
  | .elseIf condition body others =>
    .elseIf condition ((body.chosenOnly scope).keepIf (answers condition scope true))
      ((others.chosenOnly scope).keepIf (answers condition scope false))

end

theorem Outline.chosenOnly_trimEnd (scope : Props) :
    ∀ outline : Outline, outline.trimEnd.chosenOnly scope = (outline.chosenOnly scope).trimEnd
  | .nil => rfl
  | .text _ .nil => rfl
  | .text content (.text next rest) =>
    congrArg (Outline.text content) (chosenOnly_trimEnd scope (.text next rest))
  | .text content (.block condition body others rest) =>
    congrArg (Outline.text content) (chosenOnly_trimEnd scope (.block condition body others rest))
  | .block condition _ _ rest =>
    congrArg (Outline.block condition _ _) (chosenOnly_trimEnd scope rest)

theorem Outline.chosenOnly_trim (outline : Outline) :
    outline.trim.chosenOnly scope = (outline.chosenOnly scope).trim := by
  rw [trim, trim, chosenOnly_trimEnd]
  cases outline <;> rfl

mutual

theorem Outline.meaning_chosenOnly (outline : Outline) :
    (outline.chosenOnly scope).meaning scope = outline.meaning scope := by
  match outline with
  | .nil => rfl
  | .text content rest =>
    rw [Outline.chosenOnly, Outline.meaning, Outline.meaning, rest.meaning_chosenOnly]
  | .block condition body others rest =>
    rw [Outline.chosenOnly, Outline.meaning, Outline.meaning, rest.meaning_chosenOnly,
      ← (Branches.elseIf condition body others).meaning_chosenOnly]
    rfl
termination_by outline.size
decreasing_by all_goals simp only [Outline.size, Branches.size]; omega

theorem Branches.meaning_chosenOnly (branches : Branches) :
    (branches.chosenOnly scope).meaning scope = branches.meaning scope := by
  match branches with
  | .endIf => rfl
  | .otherwise body =>
    rw [Branches.chosenOnly, Branches.meaning, Branches.meaning, ← Outline.chosenOnly_trim,
      body.trim.meaning_chosenOnly]
  | .elseIf condition body others =>
    rw [Branches.chosenOnly, Branches.meaning, Branches.meaning, ← others.meaning_chosenOnly,
      ← body.trim.meaning_chosenOnly, Outline.chosenOnly_trim, answers, answers]
    cases Condition.holds condition scope with
    | error fault => rfl
    | ok holds => cases holds <;> rfl
termination_by branches.size
decreasing_by all_goals simp only [Outline.size_trim, Branches.size]; omega

end

/-! ## Conditionals mean what their nesting says -/

/-- Evaluating the print of an outline yields the meaning of the outline, and an outline that
differs only in what is not chosen is evaluated to the same. -/
theorem evaluateConditionals_print (scope : Props) {outline : Outline}
    (hwell : outline.WellFormed) :
    evaluateConditionals scope outline.print = outline.meaning scope ∧
      ∀ other : Outline, other.WellFormed → other.chosenOnly scope = outline.chosenOnly scope →
        evaluateConditionals scope other.print = evaluateConditionals scope outline.print := by
  have hmeaning : ∀ {outline : Outline}, outline.WellFormed →
      evaluateConditionals scope outline.print = outline.meaning scope := by
    intro outline hwell
    rw [Outline.evaluate_print hwell, outline.rewriteParts_parts hwell]
  refine ⟨hmeaning hwell, fun other hother hsame => ?_⟩
  calc evaluateConditionals scope other.print
      = other.meaning scope := hmeaning hother
    _ = (other.chosenOnly scope).meaning scope := (other.meaning_chosenOnly).symm
    _ = (outline.chosenOnly scope).meaning scope := by rw [hsame]
    _ = outline.meaning scope := outline.meaning_chosenOnly
    _ = evaluateConditionals scope outline.print := (hmeaning hwell).symm

/-- A block in the trimmed body of the branch that applies, and another text in the one before. -/
theorem evaluateConditionals_print_nested :
    ∃ outline other : Outline,
      outline.print = ("a\x7b% if n < 2 %\x7d\x7b% elif n %\x7d \x7b% if 'x' %\x7db \x7b% endif %\x7d! " ++
        "\x7b% else %\x7dz\x7b% endif %\x7d%").toList ∧
      other.print = ("a\x7b% if n < 2 %\x7dy\x7b% elif n %\x7d \x7b% if 'x' %\x7db \x7b% endif %\x7d! " ++
        "\x7b% endif %\x7d%").toList ∧
      evaluateConditionals [("n".toList, .scalar "2".toList)] outline.print = .ok "ab!%".toList ∧
      evaluateConditionals [("n".toList, .scalar "2".toList)] outline.print =
        outline.meaning [("n".toList, .scalar "2".toList)] ∧
      evaluateConditionals [("n".toList, .scalar "2".toList)] other.print =
        evaluateConditionals [("n".toList, .scalar "2".toList)] outline.print := by
  let applies : Outline := .text " ".toList
    (.block "'x'".toList (.text "b ".toList .nil) .endIf (.text "! ".toList .nil))
  let outline : Outline := .text "a".toList
    (.block "n < 2".toList .nil (.elseIf "n".toList applies (.otherwise (.text "z".toList .nil)))
      (.text "%".toList .nil))
  let other : Outline := .text "a".toList
    (.block "n < 2".toList (.text "y".toList .nil) (.elseIf "n".toList applies .endIf)
      (.text "%".toList .nil))
  have hwell : outline.WellFormed := by decide
  have hother : other.WellFormed := by decide
  have hmeaning := evaluateConditionals_print [("n".toList, .scalar "2".toList)] hwell
  exact ⟨outline, other, rfl, rfl, rfl, hmeaning.1, hmeaning.2 other hother rfl⟩

end PageLoom.Template
