import PageLoom.Proofs.Condition.Comparison
import PageLoom.Proofs.Template.Outline

/-!
# Choosing by the text of a prop

A condition that compares a prop with a quoted text compares texts, whatever they are: what the
prop holds is never read as a number or as part of the condition, and the quoted text ends at its
quote. So a block that asks whether a prop has a text, and else whether it has not, never comes to
its last branch.
-/

namespace PageLoom.Condition

variable {op : BinaryOp} {prop quoted : Text} {scope : Props}

/-! ## Reading a comparison with a text -/

/-- A quoted text is one token, in which nothing else is looked for. -/
theorem tokensFrom_quoted {after : Text} {rest : List Token} (hquoted : '"' ∉ quoted)
    (hafter : ∀ position, tokensFrom 0 position after = .ok rest) (position : Nat) :
    tokensFrom 0 position ('"' :: (quoted ++ '"' :: after)) =
      .ok (.literal (.text quoted) :: rest) := by
  have hcut : Text.cutAt? ['"'] (quoted ++ '"' :: after) = some (quoted, after) :=
    Text.cutAt?_append hquoted
  have htoken : tokenAt position '"' (quoted ++ '"' :: after) =
      .ok (some (.literal (.text quoted)), quoted.length + 1) := by
    have hblank : Text.isBlank '"' = false := by decide
    have hdigit : Text.isDigit '"' = false := by decide
    simp [tokenAt, hblank, hdigit, hcut]
  have hrest : (quoted ++ '"' :: after).drop (quoted.length + 1) = after :=
    List.drop_length_add_append 1
  refine tokensFrom_cons htoken ?_
  rw [hrest]
  exact hafter _

/-- The comparison of a prop with a quoted text, in parentheses. -/
def textComparison (op : BinaryOp) (quoted : Text) : Text :=
  "(x ".toList ++ (Symbol.binary op).spelling ++ " \"".toList ++ quoted ++ "\")".toList

theorem tokens_textComparison (hquoted : '"' ∉ quoted) :
    tokens (textComparison op quoted) =
      .ok [.opening, .name "x".toList, .symbol (.binary op), .literal (.text quoted),
        .closing] := by
  have hclosing : ∀ position, tokensFrom 0 position [')'] = .ok [.closing] := fun _ => rfl
  have hinside := @tokensFrom_comparison op _ _ (tokensFrom_quoted hquoted hclosing)
  have htext : textComparison op quoted = '(' :: ("x ".toList ++ (Symbol.binary op).spelling ++
      " ".toList ++ '"' :: (quoted ++ '"' :: [')'])) := by
    simp [textComparison]
  have hopening : tokensFrom 0 0 ('(' :: ("x ".toList ++ (Symbol.binary op).spelling ++
      " ".toList ++ '"' :: (quoted ++ '"' :: [')']))) = .ok ((some .opening : Option Token).toList ++
        [.name "x".toList, .symbol (.binary op), .literal (.text quoted), .closing]) :=
    tokensFrom_cons rfl (hinside _)
  rw [tokens, htext]
  exact hopening

theorem parse_textComparison (hquoted : '"' ∉ quoted)
    (hscope : scope.get? "x".toList = some (.scalar prop)) :
    parse (textComparison op quoted) scope =
      .ok (.binary op (.literal (.text prop)) (.literal (.text quoted))) := by
  have hsubstitute : substitute scope [.opening, .name "x".toList, .symbol (.binary op),
      .literal (.text quoted), .closing] = [.opening, .literal (.text prop),
        .symbol (.binary op), .literal (.text quoted), .closing] := by
    simp only [substitute, List.map_cons, List.map_nil, hscope, PropValue.asText]
  rw [parse, tokens_textComparison hquoted]
  dsimp only [bind, Except.bind]
  rw [hsubstitute]
  cases op <;> rfl

/-- A comparison with a text holds as its operator decides on the two texts. -/
theorem holds_textComparison {truth : Bool} (hquoted : '"' ∉ quoted)
    (hscope : scope.get? "x".toList = some (.scalar prop))
    (happly : applyBinary op (.text prop) (.text quoted) = .ok (.bool truth)) :
    holds (textComparison op quoted) scope = .ok truth := by
  have hvalue : evaluate (.binary op (.literal (.text prop)) (.literal (.text quoted))) =
      .ok (.bool truth) := happly
  rw [holds, parse_textComparison hquoted hscope]
  dsimp only [bind, Except.bind]
  rw [hvalue]
  rfl

/-- Texts that spell the same number are not equal on that account. -/
theorem looselyEqual_text (left right : Text) :
    looselyEqual (.text left) (.text right) = decide (left = right) := by
  have hidentical : looselyEqual (.text left) (.text right) = (left == right) := if_pos rfl
  rw [hidentical, Bool.eq_iff_iff, beq_iff_eq, decide_eq_true_iff]

end PageLoom.Condition

namespace PageLoom.Template

open Condition

variable {prop quoted : Text} {scope : Props}

/-- A block that asks whether a prop has a text, and else whether it has not. -/
def equalityBlock (quoted : Text) : Text :=
  "\x7b% if (x == \"".toList ++ quoted ++ "\") %\x7dA\x7b% elif (x != \"".toList ++ quoted ++
    "\") %\x7dB\x7b% else %\x7dC\x7b% endif %\x7d".toList

/-- The same block by its branches. -/
def equalityOutline (quoted : Text) : Outline :=
  .block (textComparison .equal quoted) (.text ['A'] .nil)
    (.elseIf (textComparison .unequal quoted) (.text ['B'] .nil)
      (.otherwise (.text ['C'] .nil))) .nil

theorem written_textComparison (keyword : Keyword) (op : BinaryOp) (quoted : Text) :
    written keyword (' ' :: textComparison op quoted) =
      "\x7b% ".toList ++ keyword.spelling ++ " (x ".toList ++ (Symbol.binary op).spelling ++
        " \"".toList ++ quoted ++ "\") %\x7d".toList := by
  simp only [written, textComparison, List.append_assoc, List.cons_append]
  rfl

theorem print_equalityOutline (quoted : Text) :
    (equalityOutline quoted).print = equalityBlock quoted := by
  -- Only the closed texts around the quoted one can be taken apart by evaluation.
  obtain ⟨first, hfirst⟩ : ∃ first, first = "\x7b% if (x == \"".toList := ⟨_, rfl⟩
  obtain ⟨second, hsecond⟩ : ∃ second, second = "\") %\x7dA\x7b% elif (x != \"".toList := ⟨_, rfl⟩
  obtain ⟨last, hlast⟩ : ∃ last, last = "\") %\x7dB\x7b% else %\x7dC\x7b% endif %\x7d".toList :=
    ⟨_, rfl⟩
  have hblock : equalityBlock quoted = first ++ quoted ++ second ++ quoted ++ last := by
    rw [hfirst, hsecond, hlast]
    rfl
  have hfirstParts : first = "\x7b% ".toList ++ (Keyword.ifTrue.spelling ++ (" (x ".toList ++
      ((Symbol.binary .equal).spelling ++ " \"".toList))) := hfirst.trans rfl
  have hsecondParts : second = "\") %\x7d".toList ++ ('A' :: ("\x7b% ".toList ++
      (Keyword.elseIf.spelling ++ (" (x ".toList ++ ((Symbol.binary .unequal).spelling ++
        " \"".toList))))) := hsecond.trans rfl
  have hlastParts : last = "\") %\x7d".toList ++ ('B' :: (written .otherwise [] ++
      ('C' :: written .endIf []))) := hlast.trans rfl
  rw [hblock, hfirstParts, hsecondParts, hlastParts]
  simp only [equalityOutline, Outline.print, Branches.print, written_textComparison,
    List.append_assoc, List.append_nil, List.cons_append, List.nil_append]

theorem isCondition_textComparison {op : BinaryOp} (hline : '\n' ∉ quoted)
    (hclosing : ¬closing <:+: quoted) : IsCondition (textComparison op quoted) where
  line := by
    cases op <;> simp [textComparison, Symbol.spelling, hline]
  unclosed := by
    -- The quotes keep the mark on one side of them.
    have htext : textComparison op quoted = ("(x ".toList ++ (Symbol.binary op).spelling ++ [' ']) ++
        '"' :: (quoted ++ '"' :: [')']) := by
      simp [textComparison]
    have hmark : closing ≠ [] := by decide
    have hquote : '"' ∉ closing := by decide
    rw [htext, Text.infix_append_stop hmark hquote, Text.infix_append_stop hmark hquote]
    rintro (hbefore | hinside | hafter)
    · revert hbefore
      cases op <;> decide
    · exact hclosing hinside
    · revert hafter
      decide

theorem equalityOutline_wellFormed (hline : '\n' ∉ quoted) (hclosing : ¬closing <:+: quoted) :
    (equalityOutline quoted).WellFormed := by
  have hletter : ∀ c : Char, (Outline.text [c] .nil).WellFormed := fun c =>
    ⟨fun hmark => absurd hmark.length_le (by simp [opening]), rfl, trivial⟩
  exact ⟨isCondition_textComparison hline hclosing, hletter 'A',
    ⟨isCondition_textComparison hline hclosing, hletter 'B', hletter 'C'⟩, trivial⟩

theorem meaning_letter (c : Char) (hc : Text.isBlank c = false) :
    (Outline.text [c] .nil).trim.meaning scope = .ok [c] := by
  have htrim : (Outline.text [c] .nil).trim = .text [c] .nil := by
    simp [Outline.trim, Outline.trimStart, Outline.trimEnd, Text.trimStart, Text.trimEnd,
      Text.trimEndWhile, hc]
  rw [htrim, Outline.meaning, Outline.meaning]
  rfl

/-- Which branch is chosen is decided by equality of the two texts alone. -/
theorem evaluateConditionals_equalityBlock (hquote : '"' ∉ quoted) (hline : '\n' ∉ quoted)
    (hclosing : ¬closing <:+: quoted) (hscope : scope.get? "x".toList = some (.scalar prop)) :
    evaluateConditionals scope (equalityBlock quoted) =
      .ok (if prop = quoted then ['A'] else ['B']) := by
  have hwell := equalityOutline_wellFormed hline hclosing
  have hequal : holds (textComparison .equal quoted) scope = .ok (decide (prop = quoted)) :=
    holds_textComparison hquote hscope (by rw [applyBinary, looselyEqual_text])
  have hunequal : holds (textComparison .unequal quoted) scope = .ok !(decide (prop = quoted)) :=
    holds_textComparison hquote hscope (by rw [applyBinary, looselyEqual_text])
  rw [← print_equalityOutline, Outline.evaluate_print hwell, Outline.rewriteParts_parts _ hwell,
    equalityOutline, Outline.meaning, Outline.meaning, Branches.meaning, Branches.meaning,
    hequal, hunequal, meaning_letter 'A' rfl, meaning_letter 'B' rfl]
  by_cases hsame : prop = quoted
  · rw [decide_eq_true hsame, if_pos hsame]
    rfl
  · rw [decide_eq_false hsame, if_neg hsame]
    rfl

/-- Numbers are compared by their spelling, and operators and directives in a text mean nothing. -/
theorem evaluateConditionals_equalityBlock_operators :
    evaluateConditionals [("x".toList, .scalar "1.0".toList)] (equalityBlock "1".toList) =
        .ok ['B'] ∧
      evaluateConditionals [("x".toList, .scalar "') || x) \x7b% endif".toList)]
        (equalityBlock "') || x) \x7b% endif".toList) = .ok ['A'] :=
  ⟨(evaluateConditionals_equalityBlock (by decide) (by decide) (by decide) rfl).trans rfl,
    (evaluateConditionals_equalityBlock (by decide) (by decide) (by decide) rfl).trans rfl⟩

end PageLoom.Template
