import Mathlib
import PageLoom.Condition.Evaluation
import PageLoom.Proofs.Number.Nearest

/-!
# Comparing a prop with a number

A numeral in a condition is the whole number that it spells, but a prop with the same numeral is
read as a float first. So the two compare like the nearest float and the number, and like the
numbers themselves exactly if the prop spells a float.
-/

namespace PageLoom.Condition

open Number

variable {op : BinaryOp} {number other : Nat} {scope : Props}

/-! ## Reading a comparison -/

theorem tokensFrom_skip (skip position : Nat) (text : Text) :
    tokensFrom skip position text = tokensFrom 0 (position + skip) (text.drop skip) := by
  induction skip generalizing position text with
  | zero => rfl
  | succ skip ih =>
      cases text with
      | nil => rfl
      | cons c text =>
          rw [tokensFrom, ih, Nat.add_assoc, Nat.add_comm 1]
          rfl

/-- One token, and the tokens of what it does not cover. -/
theorem tokensFrom_cons {position more : Nat} {c : Char} {text : Text} {token? : Option Token}
    {rest : List Token} (htoken : tokenAt position c text = .ok (token?, more))
    (hrest : tokensFrom 0 (position + 1 + more) (text.drop more) = .ok rest) :
    tokensFrom 0 position (c :: text) = .ok (token?.toList ++ rest) := by
  rw [tokensFrom, htoken]
  dsimp only [bind, Except.bind]
  rw [tokensFrom_skip, hrest]
  rfl

/-- A numeral at the end of a condition is one token. -/
theorem tokensFrom_ofNat (hother : other < powerOfTen digitLimit) (position : Nat) :
    tokensFrom 0 position (Text.ofNat other) = .ok [.literal (.number (.whole other))] := by
  have hread := readWhole?_ofNat hother
  have hblank := @isBlank_of_mem_ofNat other
  have hdigit := @isDigit_of_mem_ofNat other
  cases hdigits : Text.ofNat other with
  | nil => exact absurd hdigits (ofNat_ne_nil other)
  | cons c digits =>
      rw [hdigits] at hread hblank hdigit
      have htaken : digits.takeWhile Text.isDigit = digits :=
        List.takeWhile_eq_self_iff.mpr fun c hmem => hdigit (List.mem_cons_of_mem _ hmem)
      have hrest : digits.dropWhile Text.isDigit = [] :=
        List.dropWhile_eq_nil_iff.mpr fun c hmem => hdigit (List.mem_cons_of_mem _ hmem)
      have htoken : tokenAt position c digits =
          .ok (some (.literal (.number (.whole other))), digits.length) := by
        rw [tokenAt, hblank List.mem_cons_self, hdigit List.mem_cons_self]
        simp only [Bool.false_eq_true, if_false, if_true, htaken, hrest]
        rw [numeralToken, hread]
        rfl
      refine tokensFrom_cons htoken ?_
      rw [List.drop_length]
      rfl

/-- A comparison of a prop with an operand that is read alike wherever it stands. -/
theorem tokensFrom_comparison {operand : Text} {rest : List Token}
    (hoperand : ∀ position, tokensFrom 0 position operand = .ok rest) (position : Nat) :
    tokensFrom 0 position
        ("x ".toList ++ (Symbol.binary op).spelling ++ " ".toList ++ operand) =
      .ok (.name "x".toList :: .symbol (.binary op) :: rest) := by
  have hblank : ∀ position, tokensFrom 0 position (' ' :: operand) =
      .ok ((none : Option Token).toList ++ rest) := by
    intro position
    exact tokensFrom_cons rfl (hoperand _)
  have hsymbol : ∀ position,
      tokensFrom 0 position ((Symbol.binary op).spelling ++ " ".toList ++ operand) =
        .ok ((some (.symbol (.binary op)) : Option Token).toList ++ rest) := by
    intro position
    cases op <;> exact tokensFrom_cons rfl (hblank _)
  have hspace : ∀ position,
      tokensFrom 0 position (' ' :: ((Symbol.binary op).spelling ++ " ".toList ++ operand)) =
        .ok ((none : Option Token).toList ++ .symbol (.binary op) :: rest) := by
    intro position
    exact tokensFrom_cons rfl (hsymbol _)
  have hname : tokensFrom 0 position
      ('x' :: ' ' :: ((Symbol.binary op).spelling ++ " ".toList ++ operand)) =
        .ok ((some (.name ['x']) : Option Token).toList ++ .symbol (.binary op) :: rest) :=
    tokensFrom_cons rfl (hspace _)
  exact hname

/-- The comparison of a prop with a number. -/
def comparison (op : BinaryOp) (other : Nat) : Text :=
  "x ".toList ++ (Symbol.binary op).spelling ++ " ".toList ++ Text.ofNat other

theorem tokens_comparison (hother : other < powerOfTen digitLimit) :
    tokens (comparison op other) =
      .ok [.name "x".toList, .symbol (.binary op), .literal (.number (.whole other))] :=
  tokensFrom_comparison (tokensFrom_ofNat hother) 0

theorem parse_comparison (hother : other < powerOfTen digitLimit)
    (hscope : scope.get? "x".toList = some (.scalar (Text.ofNat number))) :
    parse (comparison op other) scope =
      .ok (.binary op (.literal (.text (Text.ofNat number)))
        (.literal (.number (.whole other)))) := by
  have hsubstitute : substitute scope [.name "x".toList, .symbol (.binary op),
      .literal (.number (.whole other))] = [.literal (.text (Text.ofNat number)),
        .symbol (.binary op), .literal (.number (.whole other))] := by
    simp only [substitute, List.map_cons, List.map_nil, hscope, PropValue.asText]
  rw [parse, tokens_comparison hother]
  dsimp only [bind, Except.bind]
  rw [hsubstitute]
  cases op <;> rfl

/-- A comparison holds as its operator decides. -/
theorem holds_comparison {truth : Bool} (hother : other < powerOfTen digitLimit)
    (hscope : scope.get? "x".toList = some (.scalar (Text.ofNat number)))
    (happly : applyBinary op (.text (Text.ofNat number)) (.number (.whole other)) =
      .ok (.bool truth)) :
    holds (comparison op other) scope = .ok truth := by
  have hvalue : evaluate (.binary op (.literal (.text (Text.ofNat number)))
      (.literal (.number (.whole other)))) = .ok (.bool truth) := happly
  rw [holds, parse_comparison hother hscope]
  dsimp only [bind, Except.bind]
  rw [hvalue]
  rfl

/-! ## The number that a prop spells -/

/-- The value of the float nearest to a number. -/
def floatValue (number : Nat) : ENat := if number < overflow then rounded number else ⊤

theorem floatValue_eq_self_iff : floatValue number = number ↔ IsFloatValue number := by
  rw [isFloatValue_iff, floatValue]
  split
  · next hless =>
    rw [and_iff_right hless]
    exact Nat.cast_inj
  · next hvast => exact iff_of_false (ENat.top_ne_natCast number) fun hvalue => hvast hvalue.1

theorem toNumber_ofNat (number : Nat) :
    toNumber (.text (Text.ofNat number)) =
      .ok (if number < overflow then .whole (rounded number) else .float (infinity false)) := by
  have hempty : (Text.ofNat number).isEmpty = false := by
    simpa using ofNat_ne_nil number
  have hpoint : (Text.ofNat number).any (fun c => c == '.' || c == 'e' || c == 'E') = false := by
    rw [List.any_eq_false]
    intro c hmem
    have hdigit := of_mem_ofNat (fun c => !(c == '.' || c == 'e' || c == 'E')) (by decide) hmem
    simpa using hdigit
  simp only [toNumber, trim_ofNat, hempty, readFloat?_ofNat, hpoint, Bool.false_eq_true, if_false]
  by_cases hless : number < overflow
  · rw [if_pos hless, wholeValue?_nearest hless]
  · have hinfinite : wholeValue? (infinity false) = none := by
      have hfinite : isFinite (infinity false) = false := isFinite_ofMagnitude le_rfl
      simp [wholeValue?, hfinite]
    rw [if_neg hless, nearest_of_overflow_le (not_lt.mp hless), hinfinite]

/-- An infinite float stands above every whole number. -/
theorem order?_spelled (number other : Nat) :
    (if number < overflow then .whole (rounded number) else .float (infinity false) : Number).order?
      (.whole other) = some (Ord.compare (floatValue number) other) := by
  rw [floatValue]
  split
  · have hcast : Ord.compare (rounded number : Int) (other : Int) =
        Ord.compare (rounded number : ENat) (other : ENat) := by
      rw [LinearOrder.compare_eq_compareOfLessAndEq, LinearOrder.compare_eq_compareOfLessAndEq]
      simp only [compareOfLessAndEq, Nat.cast_lt, Nat.cast_inj]
    exact congrArg some hcast
  · have hnumber : (infinity false).isNaN = false := rfl
    have hfinite : isFinite (infinity false) = false := isFinite_ofMagnitude le_rfl
    have hpositive : isNegative (infinity false) = false := isNegative_ofMagnitude le_rfl
    have hcompare : Ord.compare (⊤ : ENat) other = .gt :=
      compare_gt_iff_gt.mpr (ENat.natCast_lt_top other)
    rw [order?, hnumber, hfinite, hpositive, hcompare]
    rfl

/-! ## Comparing -/

/-- A prop that spells the number compares with every whole number like the value does. -/
def ComparesLike (number : Nat) (value : ENat) : Prop :=
  ∀ (scope : Props) (other : Nat),
    scope.get? "x".toList = some (.scalar (Text.ofNat number)) →
      (Text.ofNat other).length ≤ digitLimit →
        holds ("x == ".toList ++ Text.ofNat other) scope = .ok (decide (value = other)) ∧
          holds ("x < ".toList ++ Text.ofNat other) scope = .ok (decide (value < other)) ∧
          holds ("x > ".toList ++ Text.ofNat other) scope = .ok (decide (other < value))

theorem looselyEqual_spelled (number other : Nat) :
    looselyEqual (.text (Text.ofNat number)) (.number (.whole other)) =
      decide (floatValue number = other) := by
  have hkinds : ¬(Value.text (Text.ofNat number)).kind = (Value.number (.whole other)).kind := by
    simp [Value.kind]
  have hnull : ¬((Value.text (Text.ofNat number)).kind = .null ||
      (Value.number (.whole other)).kind = .null) = true := by
    simp [Value.kind]
  rw [looselyEqual, if_neg hkinds, if_neg hnull, toNumber_ofNat]
  simp only [toNumber, Number.equal, order?_spelled]
  rw [Bool.eq_iff_iff, beq_iff_eq, Option.some_inj, compare_eq_iff_eq, decide_eq_true_iff]

theorem ordered_spelled (accept : Ordering → Bool) (number other : Nat) :
    ordered accept (.text (Text.ofNat number)) (.number (.whole other)) =
      .ok (.bool (accept (Ord.compare (floatValue number) other))) := by
  have horder : orderOf (.text (Text.ofNat number)) (.number (.whole other)) =
      .ok (some (Ord.compare (floatValue number) other)) := by
    rw [orderOf, toNumber_ofNat, ← order?_spelled]
    · rfl
    · simp
  rw [ordered, horder]
  rfl

theorem comparesLike_floatValue (number : Nat) : ComparesLike number (floatValue number) := by
  intro scope other hscope hlength
  have hother := (length_ofNat_le_iff (by decide)).mp hlength
  have hless : (Ord.compare (floatValue number) other == .lt) =
      decide (floatValue number < other) := by
    rw [Bool.eq_iff_iff, beq_iff_eq, compare_lt_iff_lt, decide_eq_true_iff]
  have hgreater : (Ord.compare (floatValue number) other == .gt) =
      decide (other < floatValue number) := by
    rw [Bool.eq_iff_iff, beq_iff_eq, compare_gt_iff_gt, decide_eq_true_iff]
  refine ⟨?_, ?_, ?_⟩
  · apply @holds_comparison .equal _ _ _ _ hother hscope
    rw [applyBinary, looselyEqual_spelled]
  · apply @holds_comparison .less _ _ _ _ hother hscope
    rw [applyBinary, ordered_spelled, hless]
  · apply @holds_comparison .greater _ _ _ _ hother hscope
    rw [applyBinary, ordered_spelled, hgreater]

/-- A prop compares like the float nearest to the number that it spells. That is the number itself
exactly if it is a float. -/
theorem comparesLike_iff (number : Nat) (hnumber : (Text.ofNat number).length ≤ digitLimit) :
    ComparesLike number (floatValue number) ∧ (ComparesLike number number ↔ IsFloatValue number) := by
  have hcompares := comparesLike_floatValue number
  refine ⟨hcompares, ?_⟩
  rw [← floatValue_eq_self_iff]
  constructor
  · intro hexact
    -- What tells the two apart is the comparison of the prop with its own number.
    have hown := (hexact [("x".toList, .scalar (Text.ofNat number))] number rfl hnumber).1
    rw [(hcompares _ number rfl hnumber).1] at hown
    simpa using hown
  · intro hvalue
    rwa [hvalue] at hcompares

/-- The first whole number that is no float compares like the even float next to it. -/
theorem comparesLike_even_neighbour : (Text.ofNat 9007199254740993).length ≤ digitLimit ∧
    ComparesLike 9007199254740993 (9007199254740992 : Nat) := by
  have hlength : (Text.ofNat 9007199254740993).length ≤ digitLimit := by decide
  have hvalue : floatValue 9007199254740993 = (9007199254740992 : Nat) := by
    have hless : 9007199254740993 < overflow := by decide +kernel
    have hrounded : rounded 9007199254740993 = 9007199254740992 := by decide
    rw [floatValue, if_pos hless, hrounded]
  have hcompares := (comparesLike_iff 9007199254740993 hlength).1
  rw [hvalue] at hcompares
  exact ⟨hlength, hcompares⟩

/-- A prop can differ from its own number. -/
theorem holds_own_number :
    ¬∀ number, (Text.ofNat number).length ≤ digitLimit → ComparesLike number number := by
  intro hexact
  have hfalse : holds ("x == ".toList ++ Text.ofNat 9007199254740993)
      [("x".toList, .scalar "9007199254740993".toList)] = .ok false := by rfl
  have hown := (hexact 9007199254740993 (by decide)
    [("x".toList, .scalar "9007199254740993".toList)] 9007199254740993 (by rfl) (by decide)).1
  rw [hfalse] at hown
  simp at hown

end PageLoom.Condition
