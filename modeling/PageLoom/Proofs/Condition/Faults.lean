import PageLoom.Condition.Evaluation
import PageLoom.Proofs.Number.Faults

/-!
# Faults of conditions

A condition that cannot be read, or has no value because of a name, a text or a divisor, is false.
What is left are the faults of numbers. A condition has one exactly if a whole number literal has
too many digits, or if its evaluation comes to a step on which arithmetic fails. The exact list of
these steps is `Step.Fails`.
-/

namespace PageLoom.Condition

open Number (overflow digitLimit powerOfTen)

variable {left right value : Value} {fault : NumberFault} {room : Nat} {expr : Expr}

/-! ## Steps that fail -/

/-- What an evaluation asks about values: whether one counts as true, or what an operator makes of
two. -/
inductive Step where
  | truth (value : Value)
  | combine (op : BinaryOp) (left right : Value)

/-- The numbers that an arithmetic operator is computed on. A sum with a text has none, and there is
no division by zero. -/
structure Operands (op : BinaryOp) (left right : Value) (x y : Number) : Prop where
  first : toNumber left = .ok x
  second : toNumber right = .ok y
  sum : op = .add → left.kind ≠ .text ∧ right.kind ≠ .text
  division : op = .divide ∨ op = .modulo → y.isZero = false

/-- The steps that arithmetic fails on. -/
inductive Step.Fails : Step → NumberFault → Prop
  | truth {number : Number} (hvast : number.IsVast) : Fails (.truth (.number number)) .outOfRange
  | wholeBeforeText {whole : Int} {text : Text} (hlong : powerOfTen digitLimit ≤ whole.natAbs) :
      Fails (.combine .add (.number (.whole whole)) (.text text)) .tooManyDigits
  | wholeAfterText {whole : Int} {text : Text} (hlong : powerOfTen digitLimit ≤ whole.natAbs) :
      Fails (.combine .add (.text text) (.number (.whole whole))) .tooManyDigits
  | mixed {op : BinaryOp} {left right : Value} {x y : Number}
      (hop : op ∈ [BinaryOp.add, .subtract, .multiply, .divide])
      (hnumbers : Operands op left right x y) (hmixed : x.Mixed y) :
      Fails (.combine op left right) .outOfRange
  | quotient {left right : Value} {first second : Int}
      (hnumbers : Operands .divide left right (.whole first) (.whole second))
      (hlarge : overflow * second.natAbs ≤ first.natAbs) :
      Fails (.combine .divide left right) .outOfRange
  | remainder {left right : Value} {x y : Number} (hnumbers : Operands .modulo left right x y)
      (hvast : x.IsVast ∨ y.IsVast) : Fails (.combine .modulo left right) .outOfRange
  | remainderOfInfinity {left right : Value} {x y : Number}
      (hnumbers : Operands .modulo left right x y) (hinfinite : x.IsInfinite)
      (hnumber : ¬y.IsNaN) (hvast : ¬y.IsVast) :
      Fails (.combine .modulo left right) .remainderOfInfinity

theorem arithmetic_eq_fault_iff {α : Type} {result : Except NumberFault α} :
    arithmetic result = .error (.fault fault) ↔ result = .error fault := by
  cases result with
  | ok value => simp [arithmetic, Except.mapError]
  | error other => simp [arithmetic, Except.mapError]

theorem isTruthy_error_iff :
    value.isTruthy = .error fault ↔ (Step.truth value).Fails fault := by
  constructor
  · intro hfails
    cases value with
    | number number =>
        obtain ⟨rfl, hvast⟩ := Number.isTruthy_error_iff.mp hfails
        exact .truth hvast
    | _ => cases hfails
  · rintro ⟨hvast⟩
    exact Number.isTruthy_error_iff.mpr ⟨rfl, hvast⟩

/-- Reading a value as a number can be refused, but is no fault. -/
theorem toNumber_ne_fault : toNumber value ≠ .error (.fault fault) := by
  unfold toNumber
  grind

theorem writeWhole?_eq_none_iff {whole : Int} :
    Number.writeWhole? whole = none ↔ powerOfTen digitLimit ≤ whole.natAbs := by
  rw [Number.writeWhole?]
  generalize powerOfTen digitLimit = bound
  simp

/-- Only a whole number can be too long to become part of a text. -/
theorem asText_error_iff :
    value.asText = .error fault ↔ fault = .tooManyDigits ∧
      ∃ whole : Int, value = .number (.whole whole) ∧ powerOfTen digitLimit ≤ whole.natAbs := by
  unfold Value.asText
  split
  case h_4 whole =>
    simp only [← writeWhole?_eq_none_iff]
    cases hwritten : Number.writeWhole? whole with
    | none => simp [hwritten, eq_comm]
    | some digits => simp [hwritten]
  case h_5 x => cases Number.wholeValue? x <;> simp
  all_goals simp

/-- What is computed on the numbers of two values fails only on these. -/
theorem toNumbers_bind_fault_iff {α : Type} {next : Number → Number → Except Failure α} :
    (toNumber left >>= fun x => toNumber right >>= next x) = .error (.fault fault) ↔
      ∃ x y, toNumber left = .ok x ∧ toNumber right = .ok y ∧ next x y = .error (.fault fault) := by
  simp only [except_bind_eq_error, toNumber_ne_fault, false_or]
  simp only [exists_and_left]

theorem arithmetic_return_fault_iff {α : Type} {result : Except NumberFault α} {make : α → Value} :
    (arithmetic result >>= fun value => pure (make value)) = .error (.fault fault) ↔
      result = .error fault := by
  rw [except_bind_eq_error, arithmetic_eq_fault_iff]
  apply or_iff_left
  rintro ⟨value, -, hnone⟩
  cases hnone

theorem computed_fault_iff {operate : Number → Number → Except NumberFault Number} :
    (do return Value.number (← arithmetic (operate (← toNumber left) (← toNumber right)))) =
        .error (.fault fault) ↔
      ∃ x y, toNumber left = .ok x ∧ toNumber right = .ok y ∧ operate x y = .error fault := by
  apply toNumbers_bind_fault_iff.trans
  simp only [arithmetic_return_fault_iff]

theorem withDivisor_fault_iff {operate : Number → Number → Except NumberFault Number} :
    withDivisor operate left right = .error (.fault fault) ↔
      ∃ x y, toNumber left = .ok x ∧ toNumber right = .ok y ∧ y.isZero = false ∧
        operate x y = .error fault := by
  have hchecked : ∀ x y : Number, (do
      if y.isZero then throw (Failure.refused .divisionByZero)
      return Value.number (← arithmetic (operate x y))) = .error (.fault fault) ↔
        y.isZero = false ∧ operate x y = .error fault := by
    intro x y
    cases y.isZero with
    | true => exact iff_of_false nofun nofun
    | false => exact arithmetic_return_fault_iff.trans (and_iff_right rfl).symm
  apply toNumbers_bind_fault_iff.trans
  simp only [hchecked]

theorem eq_text_of_kind (hkind : value.kind = .text) : ∃ text, value = .text text := by
  cases value with
  | text text => exact ⟨text, rfl⟩
  | _ => cases hkind

/-- A sum with a text fails on a whole number that is too long for one. -/
theorem joined_fault_iff (htext : left.kind = .text ∨ right.kind = .text) :
    (do return Value.text ((← arithmetic left.asText) ++ (← arithmetic right.asText))) =
        .error (.fault fault) ↔
      (Step.combine .add left right).Fails fault := by
  constructor
  · intro hfails
    obtain hleft | ⟨first, -, hfails⟩ := except_bind_eq_error.mp hfails
    · obtain ⟨rfl, whole, rfl, hlong⟩ := asText_error_iff.mp (arithmetic_eq_fault_iff.mp hleft)
      obtain ⟨text, rfl⟩ := eq_text_of_kind (htext.resolve_left nofun)
      exact .wholeBeforeText hlong
    · obtain ⟨rfl, whole, rfl, hlong⟩ := asText_error_iff.mp (arithmetic_return_fault_iff.mp hfails)
      obtain ⟨text, rfl⟩ := eq_text_of_kind (htext.resolve_right nofun)
      exact .wholeAfterText hlong
  · intro hfails
    cases hfails with
    | @wholeBeforeText whole text hlong =>
        have hwhole : (Value.number (.whole whole)).asText = .error .tooManyDigits :=
          asText_error_iff.mpr ⟨rfl, whole, rfl, hlong⟩
        rw [hwhole]
        rfl
    | @wholeAfterText whole text hlong =>
        have hwhole : (Value.number (.whole whole)).asText = .error .tooManyDigits :=
          asText_error_iff.mpr ⟨rfl, whole, rfl, hlong⟩
        rw [hwhole]
        rfl
    | mixed hop hnumbers hmixed =>
        obtain ⟨hleft, hright⟩ := hnumbers.sum rfl
        exact (htext.elim hleft hright).elim

theorem sum_fault_iff :
    sum left right = .error (.fault fault) ↔ (Step.combine .add left right).Fails fault := by
  rw [sum]
  split
  · next htext =>
    rw [Bool.or_eq_true, decide_eq_true_iff, decide_eq_true_iff] at htext
    exact joined_fault_iff htext
  · next htext =>
    rw [Bool.or_eq_true, decide_eq_true_iff, decide_eq_true_iff, not_or] at htext
    apply computed_fault_iff.trans
    constructor
    · rintro ⟨x, y, hx, hy, hfails⟩
      obtain ⟨rfl, hmixed⟩ := Number.add_error_iff.mp hfails
      exact .mixed (by decide) ⟨hx, hy, fun _ => htext, nofun⟩ hmixed
    · intro hfails
      cases hfails with
      | wholeBeforeText hlong => exact (htext.2 rfl).elim
      | wholeAfterText hlong => exact (htext.1 rfl).elim
      | mixed hop hnumbers hmixed =>
          exact ⟨_, _, hnumbers.first, hnumbers.second, Number.add_error_iff.mpr ⟨rfl, hmixed⟩⟩

/-- Subtraction and multiplication are computed on the numbers of any two values. -/
theorem mixed_fault_iff {op : BinaryOp} {operate : Number → Number → Except NumberFault Number}
    (hop : op = .subtract ∨ op = .multiply)
    (hoperate : ∀ x y, operate x y = .error fault ↔ fault = .outOfRange ∧ x.Mixed y) :
    (do return Value.number (← arithmetic (operate (← toNumber left) (← toNumber right)))) =
        .error (.fault fault) ↔
      (Step.combine op left right).Fails fault := by
  apply computed_fault_iff.trans
  simp only [hoperate]
  constructor
  · rintro ⟨x, y, hx, hy, rfl, hmixed⟩
    refine .mixed ?_ ⟨hx, hy, ?_, ?_⟩ hmixed
    all_goals rcases hop with rfl | rfl <;> simp
  · intro hfails
    cases hfails with
    | mixed hmem hnumbers hmixed => exact ⟨_, _, hnumbers.first, hnumbers.second, rfl, hmixed⟩
    | _ => simp at hop

theorem divide_fault_iff :
    withDivisor Number.divide left right = .error (.fault fault) ↔
      (Step.combine .divide left right).Fails fault := by
  apply withDivisor_fault_iff.trans
  constructor
  · rintro ⟨x, y, hx, hy, hdivisor, hfails⟩
    have hnumbers : Operands .divide left right x y := ⟨hx, hy, nofun, fun _ => hdivisor⟩
    obtain ⟨rfl, hmixed | ⟨first, second, rfl, rfl, hlarge⟩⟩ :=
      (Number.divide_error_iff hdivisor).mp hfails
    · exact .mixed (by decide) hnumbers hmixed
    · exact .quotient hnumbers hlarge
  · intro hfails
    cases hfails with
    | mixed hop hnumbers hmixed =>
        have hdivisor := hnumbers.division (Or.inl rfl)
        exact ⟨_, _, hnumbers.first, hnumbers.second, hdivisor,
          (Number.divide_error_iff hdivisor).mpr ⟨rfl, Or.inl hmixed⟩⟩
    | quotient hnumbers hlarge =>
        have hdivisor := hnumbers.division (Or.inl rfl)
        exact ⟨_, _, hnumbers.first, hnumbers.second, hdivisor,
          (Number.divide_error_iff hdivisor).mpr ⟨rfl, Or.inr ⟨_, _, rfl, rfl, hlarge⟩⟩⟩

theorem modulo_fault_iff :
    withDivisor Number.modulo left right = .error (.fault fault) ↔
      (Step.combine .modulo left right).Fails fault := by
  apply withDivisor_fault_iff.trans
  simp only [Number.modulo_error_iff]
  constructor
  · rintro ⟨x, y, hx, hy, hdivisor, hfails⟩
    have hnumbers : Operands .modulo left right x y := ⟨hx, hy, nofun, fun _ => hdivisor⟩
    obtain ⟨rfl, hvast⟩ | ⟨rfl, hinfinite, hnumber, hvast⟩ := hfails
    · exact .remainder hnumbers hvast
    · exact .remainderOfInfinity hnumbers hinfinite hnumber hvast
  · intro hfails
    cases hfails with
    | mixed hop hnumbers hmixed => simp at hop
    | remainder hnumbers hvast =>
        exact ⟨_, _, hnumbers.first, hnumbers.second, hnumbers.division (Or.inr rfl),
          Or.inl ⟨rfl, hvast⟩⟩
    | remainderOfInfinity hnumbers hinfinite hnumber hvast =>
        exact ⟨_, _, hnumbers.first, hnumbers.second, hnumbers.division (Or.inr rfl),
          Or.inr ⟨rfl, hinfinite, hnumber, hvast⟩⟩

theorem ordered_ne_fault {accept : Ordering → Bool} :
    ordered accept left right ≠ .error (.fault fault) := by
  intro hfails
  obtain hnone | ⟨order?, -, hnone⟩ := except_bind_eq_error.mp hfails
  · unfold orderOf at hnone
    split at hnone
    · cases hnone
    · obtain ⟨x, y, -, -, hnone⟩ := toNumbers_bind_fault_iff.mp hnone
      cases hnone
  · cases hnone

/-- Comparisons have no faults. -/
theorem Step.Fails.arithmetic {op : BinaryOp} (hfails : (Step.combine op left right).Fails fault) :
    op ∈ [BinaryOp.add, .subtract, .multiply, .divide, .modulo] := by
  cases hfails with
  | mixed hop => exact List.mem_append_left [BinaryOp.modulo] hop
  | _ => simp

/-- An operator has a fault exactly on the values that are listed. -/
theorem applyBinary_fault_iff {op : BinaryOp} :
    applyBinary op left right = .error (.fault fault) ↔
      (Step.combine op left right).Fails fault := by
  cases op with
  | add => exact sum_fault_iff
  | subtract => exact mixed_fault_iff (Or.inl rfl) fun _ _ => Number.subtract_error_iff
  | multiply => exact mixed_fault_iff (Or.inr rfl) fun _ _ => Number.multiply_error_iff
  | divide => exact divide_fault_iff
  | modulo => exact modulo_fault_iff
  | less | atMost | greater | atLeast =>
      apply iff_of_false ordered_ne_fault
      exact fun hfails => absurd hfails.arithmetic (by decide)
  | equal | unequal | identical | distinct =>
      apply iff_of_false nofun
      exact fun hfails => absurd hfails.arithmetic (by decide)

/-! ## Evaluation -/

/-- The steps that the evaluation of an expression comes to, with room for so many operators inside
each other. What stands before a step has a value. -/
inductive ComesTo : Nat → Expr → Step → Prop
  | operand {room : Nat} {op : UnaryOp} {operand : Expr} {step : Step}
      (hstep : ComesTo room operand step) : ComesTo (room + 1) (.unary op operand) step
  | negation {room : Nat} {operand : Expr} {value : Value}
      (hvalue : evaluateWithin room operand = .ok value) :
      ComesTo (room + 1) (.unary .not operand) (.truth value)
  | left {room : Nat} {op : BinaryOp} {left right : Expr} {step : Step}
      (hstep : ComesTo room left step) : ComesTo (room + 1) (.binary op left right) step
  | right {room : Nat} {op : BinaryOp} {left right : Expr} {step : Step} {first : Value}
      (hfirst : evaluateWithin room left = .ok first) (hstep : ComesTo room right step) :
      ComesTo (room + 1) (.binary op left right) step
  | combine {room : Nat} {op : BinaryOp} {left right : Expr} {first second : Value}
      (hfirst : evaluateWithin room left = .ok first)
      (hsecond : evaluateWithin room right = .ok second) :
      ComesTo (room + 1) (.binary op left right) (.combine op first second)
  | condition {room : Nat} {op : Connective} {left right : Expr} {step : Step}
      (hstep : ComesTo room left step) : ComesTo (room + 1) (.logical op left right) step
  | decision {room : Nat} {op : Connective} {left right : Expr} {first : Value}
      (hfirst : evaluateWithin room left = .ok first) :
      ComesTo (room + 1) (.logical op left right) (.truth first)
  | branch {room : Nat} {op : Connective} {left right : Expr} {step : Step} {first : Value}
      (hfirst : evaluateWithin room left = .ok first)
      (htruth : first.isTruthy = .ok (decide (op = .and))) (hstep : ComesTo room right step) :
      ComesTo (room + 1) (.logical op left right) step

theorem applyUnary_fault_iff {op : UnaryOp} :
    applyUnary op value = .error (.fault fault) ↔ op = .not ∧ (Step.truth value).Fails fault := by
  cases op with
  | not =>
      apply arithmetic_return_fault_iff.trans
      rw [isTruthy_error_iff, and_iff_right rfl]
  | minus | plus =>
      apply iff_of_false _ nofun
      intro hfails
      obtain hnone | ⟨x, -, hnone⟩ := except_bind_eq_error.mp hfails
      · exact toNumber_ne_fault hnone
      · cases hnone

theorem arithmetic_eq_ok_iff {α : Type} {result : Except NumberFault α} {value : α} :
    arithmetic result = .ok value ↔ result = .ok value := by
  cases result with
  | ok other => simp [arithmetic, Except.mapError]
  | error fault => simp [arithmetic, Except.mapError]

/-- Evaluation has a fault exactly if it comes to a step that fails. -/
theorem evaluateWithin_fault_iff :
    evaluateWithin room expr = .error (.fault fault) ↔
      ∃ step, ComesTo room expr step ∧ step.Fails fault := by
  induction room generalizing expr with
  | zero =>
      apply iff_of_false nofun
      rintro ⟨step, hstep, -⟩
      cases hstep
  | succ room ih =>
      cases expr with
      | literal value =>
          apply iff_of_false nofun
          rintro ⟨step, hstep, -⟩
          cases hstep
      | name name =>
          apply iff_of_false nofun
          rintro ⟨step, hstep, -⟩
          cases hstep
      | unary op operand =>
          apply except_bind_eq_error.trans
          simp only [ih, applyUnary_fault_iff]
          constructor
          · rintro (⟨step, hstep, hfails⟩ | ⟨value, hvalue, rfl, hfails⟩)
            · exact ⟨step, .operand hstep, hfails⟩
            · exact ⟨_, .negation hvalue, hfails⟩
          · rintro ⟨step, hstep, hfails⟩
            cases hstep with
            | operand hstep => exact Or.inl ⟨step, hstep, hfails⟩
            | negation hvalue => exact Or.inr ⟨_, hvalue, rfl, hfails⟩
      | binary op left right =>
          apply except_bind_eq_error.trans
          simp only [except_bind_eq_error, ih, applyBinary_fault_iff]
          constructor
          · rintro (⟨step, hstep, hfails⟩ | ⟨first, hfirst, ⟨step, hstep, hfails⟩ |
              ⟨second, hsecond, hfails⟩⟩)
            · exact ⟨step, .left hstep, hfails⟩
            · exact ⟨step, .right hfirst hstep, hfails⟩
            · exact ⟨_, .combine hfirst hsecond, hfails⟩
          · rintro ⟨step, hstep, hfails⟩
            cases hstep with
            | left hstep => exact Or.inl ⟨step, hstep, hfails⟩
            | right hfirst hstep => exact Or.inr ⟨_, hfirst, Or.inl ⟨step, hstep, hfails⟩⟩
            | combine hfirst hsecond => exact Or.inr ⟨_, hfirst, Or.inr ⟨_, hsecond, hfails⟩⟩
      | logical op left right =>
          apply except_bind_eq_error.trans
          simp only [except_bind_eq_error, ih, arithmetic_eq_fault_iff, isTruthy_error_iff,
            arithmetic_eq_ok_iff]
          constructor
          · rintro (⟨step, hstep, hfails⟩ | ⟨first, hfirst, hfails | ⟨truth, htruth, hbranch⟩⟩)
            · exact ⟨step, .condition hstep, hfails⟩
            · exact ⟨_, .decision hfirst, hfails⟩
            · have hright : truth = decide (op = .and) ∧
                  evaluateWithin room right = .error (.fault fault) := by
                cases op <;> cases truth <;> first | exact ⟨rfl, hbranch⟩ | cases hbranch
              obtain ⟨rfl, hright⟩ := hright
              obtain ⟨step, hstep, hfails⟩ := ih.mp hright
              exact ⟨step, .branch hfirst htruth hstep, hfails⟩
          · rintro ⟨step, hstep, hfails⟩
            cases hstep with
            | condition hstep => exact Or.inl ⟨step, hstep, hfails⟩
            | decision hfirst => exact Or.inr ⟨_, hfirst, Or.inl hfails⟩
            | branch hfirst htruth hstep =>
                refine Or.inr ⟨_, hfirst, Or.inr ⟨_, htruth, ?_⟩⟩
                cases op with
                | and => exact ih.mpr ⟨step, hstep, hfails⟩
                | or => exact ih.mpr ⟨step, hstep, hfails⟩

/-! ## Parsing -/

/-- A reader that can refuse its tokens, but has no faults. -/
def Unfaulted (reader : Reader) : Prop := ∀ tokens fault, reader tokens ≠ .error (.fault fault)

theorem unfaulted_chainFrom {level : Level} {operand : Reader} (hoperand : Unfaulted operand)
    (steps : Nat) (left : Expr) : Unfaulted (chainFrom level operand steps left) := by
  intro tokens fault hfails
  induction steps generalizing left tokens with
  | zero => cases hfails
  | succ steps ih =>
      cases tokens with
      | nil => cases hfails
      | cons token tokens =>
          cases token with
          | symbol symbol =>
              rw [chainFrom] at hfails
              split at hfails
              · obtain hnone | ⟨⟨right, rest⟩, -, hrest⟩ := except_bind_eq_error.mp hfails
                · exact hoperand _ _ hnone
                · exact ih _ _ hrest
              · cases hfails
          | _ => cases hfails

theorem unfaulted_chain {level : Level} {operand : Reader} (hoperand : Unfaulted operand) :
    Unfaulted (chain level operand) := by
  intro tokens fault hfails
  obtain hnone | ⟨read, -, hrest⟩ := except_bind_eq_error.mp hfails
  · exact hoperand _ _ hnone
  · exact unfaulted_chainFrom hoperand _ _ _ _ hrest

theorem unfaulted_expressionOver {unary : Reader} (hunary : Unfaulted unary) :
    Unfaulted (expressionOver unary) := by
  apply unfaulted_chain
  apply unfaulted_chain
  apply unfaulted_chain
  apply unfaulted_chain
  apply unfaulted_chain
  exact unfaulted_chain hunary

theorem unfaulted_readUnary (room : Nat) : Unfaulted (readUnary room) := by
  induction room using Nat.strong_induction_on with
  | _ room ih =>
      intro tokens fault hfails
      unfold readUnary at hfails
      split at hfails
      · cases hfails
      · cases hfails
      · cases hfails
      · cases hfails
      -- A prefix operator, and then a pair of parentheses: inside there is less room.
      · split at hfails
        · cases hfails
        · split at hfails
          · cases hfails
          · next room =>
            obtain hnone | ⟨⟨operand, rest⟩, -, hrest⟩ := except_bind_eq_error.mp hfails
            · exact ih room (by omega) _ _ hnone
            · cases hrest
      · split at hfails
        · next room =>
          have hinside := unfaulted_expressionOver (ih room (by omega))
          obtain hnone | ⟨⟨inside, rest⟩, -, hrest⟩ := except_bind_eq_error.mp hfails
          · exact hinside _ _ hnone
          · dsimp only at hrest
            split at hrest <;> cases hrest
        · cases hfails

theorem parse_fault_iff {source : Text} {scope : Props} :
    parse source scope = .error (.fault fault) ↔ tokens source = .error (.fault fault) := by
  apply except_bind_eq_error.trans
  apply or_iff_left
  rintro ⟨tokens, -, hfails⟩
  unfold parseTokens at hfails
  split at hfails
  · cases hfails
  · obtain hnone | ⟨⟨expr, rest⟩, -, hrest⟩ := except_bind_eq_error.mp hfails
    · exact unfaulted_expressionOver (unfaulted_readUnary _) _ _ hnone
    · split at hrest <;> cases hrest

/-! ## Literals -/

theorem numeralToken_fault_iff {whole : Text} {fraction? : Option Text} :
    numeralToken whole fraction? = .error (.fault fault) ↔
      fault = .tooManyDigits ∧ fraction? = none ∧ digitLimit < whole.length := by
  cases fraction? with
  | some fraction => simp [numeralToken]
  | none =>
      rw [numeralToken, Number.readWhole?]
      split
      · next h => split at h <;> simp_all
      · next h => split at h <;> simp_all [eq_comm]

theorem map_eq_error_iff {α β ε : Type} {change : α → β} {result : Except ε α} {failure : ε} :
    result.map change = .error failure ↔ result = .error failure := by
  cases result with
  | ok value => simp [Except.map]
  | error other => simp [Except.map]

theorem tokenAt_fault {position : Nat} {c : Char} {text : Text}
    (hfails : tokenAt position c text = .error (.fault fault)) :
    fault = .tooManyDigits ∧ Text.isDigit c = true ∧
      digitLimit < (c :: text.takeWhile Text.isDigit).length := by
  unfold tokenAt at hfails
  dsimp only at hfails
  split at hfails
  · cases hfails
  split at hfails
  · next hdigit =>
    split at hfails
    · cases hfails
    · obtain ⟨hfault, -, hlong⟩ := numeralToken_fault_iff.mp (map_eq_error_iff.mp hfails)
      exact ⟨hfault, hdigit, hlong⟩
  split at hfails
  · split at hfails
    · cases hfails
    · cases hfails
  split at hfails
  · split at hfails
    · cases hfails
    · cases hfails
  split at hfails
  · cases hfails
  split at hfails
  · cases hfails
  split at hfails
  · cases hfails
  · split at hfails
    · cases hfails
    · cases hfails

/-- What has a fault before parsing is a whole number literal with too many digits. -/
theorem tokensFrom_fault {skip position : Nat} {text : Text}
    (hfails : tokensFrom skip position text = .error (.fault fault)) :
    fault = .tooManyDigits ∧ ∃ run, run <:+: text ∧ (∀ c ∈ run, Text.isDigit c = true) ∧
      digitLimit < run.length := by
  induction text generalizing skip position with
  | nil => cases skip <;> cases hfails
  | cons c text ih =>
      have hlater : ∀ skip position, tokensFrom skip position text = .error (.fault fault) →
          fault = .tooManyDigits ∧ ∃ run, run <:+: c :: text ∧
            (∀ c ∈ run, Text.isDigit c = true) ∧ digitLimit < run.length := by
        intro skip position hfails
        obtain ⟨hfault, run, hrun, hdigits, hlong⟩ := ih hfails
        exact ⟨hfault, run, hrun.trans (List.infix_cons (List.infix_refl text)), hdigits, hlong⟩
      cases skip with
      | succ skip => exact hlater _ _ hfails
      | zero =>
          rw [tokensFrom, except_bind_eq_error] at hfails
          obtain hfails | ⟨⟨token?, more⟩, -, hfails⟩ := hfails
          · obtain ⟨hfault, hdigit, hlong⟩ := tokenAt_fault hfails
            refine ⟨hfault, _, ?_, ?_, hlong⟩
            · exact ((List.prefix_cons_inj c).mpr (List.takeWhile_prefix _)).isInfix
            · exact List.forall_mem_cons.mpr ⟨hdigit, fun _ => List.mem_takeWhile_imp⟩
          · obtain hfails | ⟨tokens, -, hnone⟩ := except_bind_eq_error.mp hfails
            · exact hlater _ _ hfails
            · cases hnone

/-! ## Conditions -/

/-- The steps that a condition comes to. The last one is whether its value counts as true. -/
inductive Performs (source : Text) (scope : Props) : Step → Prop
  | step {expr : Expr} {step : Step} (hparse : parse source scope = .ok expr)
      (hstep : ComesTo evaluationRoom expr step) : Performs source scope step
  | result {expr : Expr} {value : Value} (hparse : parse source scope = .ok expr)
      (hvalue : evaluate expr = .ok value) : Performs source scope (.truth value)

theorem holds_error_iff {source : Text} {scope : Props} :
    holds source scope = .error fault ↔
      tokens source = .error (.fault fault) ∨
        ∃ step, Performs source scope step ∧ step.Fails fault := by
  have hresult : holds source scope = .error fault ↔
      (parse source scope >>= fun expr => evaluate expr >>= fun value =>
        arithmetic value.isTruthy) = .error (.fault fault) := by
    rw [holds]
    generalize (parse source scope >>= _) = result
    cases result with
    | ok value => simp
    | error failure => cases failure <;> simp
  simp only [hresult, except_bind_eq_error, parse_fault_iff, evaluate, evaluateWithin_fault_iff,
    arithmetic_eq_fault_iff, isTruthy_error_iff]
  apply or_congr_right
  constructor
  · rintro ⟨expr, hparse, ⟨step, hstep, hfails⟩ | ⟨value, hvalue, hfails⟩⟩
    · exact ⟨step, .step hparse hstep, hfails⟩
    · exact ⟨_, .result hparse hvalue, hfails⟩
  · rintro ⟨step, hstep, hfails⟩
    cases hstep with
    | step hparse hstep => exact ⟨_, hparse, Or.inl ⟨step, hstep, hfails⟩⟩
    | result hparse hvalue => exact ⟨_, hparse, Or.inr ⟨_, hvalue, hfails⟩⟩

/-- A condition that cannot be read, or has no value but for a fault, is false. -/
theorem holds_of_failure {source : Text} {scope : Props} {failure : Failure}
    (hfailure : (parse source scope >>= evaluate) = .error failure)
    (hfault : ∀ fault, failure ≠ .fault fault) : holds source scope = .ok false := by
  have hresult : (parse source scope >>= fun expr => evaluate expr >>= fun value =>
      arithmetic value.isTruthy) = .error failure := by
    rw [← bind_assoc, hfailure]
    rfl
  rw [holds]
  simp only [hresult]
  cases failure with
  | refused refusal => rfl
  | tooDeep => rfl
  | fault fault => exact absurd rfl (hfault fault)

/-- A condition has a fault exactly if a whole number literal has too many digits, or if it comes to
a step that fails. Every other condition that cannot be read or has no value is false. -/
theorem holds_fails_iff_step (source : Text) (scope : Props) :
    (∀ fault, holds source scope = .error fault ↔
      tokens source = .error (.fault fault) ∨
        ∃ step, Performs source scope step ∧ step.Fails fault) ∧
      (∀ fault, tokens source = .error (.fault fault) → fault = .tooManyDigits ∧
        ∃ run, run <:+: source ∧ (∀ c ∈ run, Text.isDigit c = true) ∧ digitLimit < run.length) ∧
      ∀ failure, (parse source scope >>= evaluate) = .error failure →
        (∀ fault, failure ≠ .fault fault) → holds source scope = .ok false := by
  refine ⟨?_, ?_, ?_⟩
  · exact fun fault => holds_error_iff
  · exact fun fault => tokensFrom_fault
  · exact fun failure => holds_of_failure

/-- An infinite prop has no remainder, and no number literal has to be long for that. -/
theorem holds_remainder_of_infinity :
    ¬∀ (source : Text) (scope : Props),
      (∀ run, run <:+: source → (∀ c ∈ run, Text.isDigit c = true) → run.length ≤ digitLimit) →
        ∃ truth, holds source scope = .ok truth := by
  intro htotal
  have hfault : holds "x % 2".toList [("x".toList, .scalar "inf".toList)] =
      .error .remainderOfInfinity := by rfl
  obtain ⟨truth, htruth⟩ := htotal "x % 2".toList [("x".toList, .scalar "inf".toList)] (by
    intro run hrun _
    exact Nat.le_trans hrun.length_le (by decide))
  rw [hfault] at htruth
  cases htruth

end PageLoom.Condition
