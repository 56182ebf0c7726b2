import PageLoom.Number.Basic
import PageLoom.Proofs.Action
import PageLoom.Proofs.Number.Range

/-!
# Faults of arithmetic

The exact conditions on which arithmetic fails: a vast whole number, one out of the range of floats,
has to become a float, a quotient of whole numbers is out of that range, or the remainder of an
infinite number is asked for.
-/

namespace PageLoom.Number

variable {left right number : Number} {fault : NumberFault}

/-- A whole number out of the range of floats. -/
def IsVast : Number → Prop
  | whole value => overflow ≤ value.natAbs
  | float _ => False

def IsFloat : Number → Prop
  | whole _ => False
  | float _ => True

theorem isFloat_float (x : Float) : (float x).IsFloat := trivial

/-- A vast number next to a float. -/
def Mixed (left right : Number) : Prop := left.IsVast ∧ right.IsFloat ∨ left.IsFloat ∧ right.IsVast

theorem toFloat_error_iff :
    number.toFloat = .error fault ↔ fault = .outOfRange ∧ number.IsVast := by
  cases number with
  | float x => simp [toFloat, IsVast]
  | whole value =>
      rw [IsVast, ← ofInt?_eq_none_iff, toFloat]
      cases ofInt? value with
      | none => simp [eq_comm]
      | some x => simp

theorem isFinite_of_toFloat {value : Int} {x : Float} (hfloat : (whole value).toFloat = .ok x) :
    isFinite x = true := by
  rw [toFloat, ofInt?] at hfloat
  grind

theorem toFloat_of_not_vast (hvast : ¬number.IsVast) : ∃ x, number.toFloat = .ok x := by
  cases hfloat : number.toFloat with
  | ok x => exact ⟨x, rfl⟩
  | error fault => exact absurd (toFloat_error_iff.mp hfloat).2 hvast

theorem not_vast_of_toFloat {x : Float} (hfloat : number.toFloat = .ok x) : ¬number.IsVast := by
  intro hvast
  rw [toFloat_error_iff.mpr ⟨rfl, hvast⟩] at hfloat
  cases hfloat

/-- What is computed on two floats fails for a vast number, or on the floats. -/
theorem toFloats_bind_error_iff {α : Type} {next : Float → Float → Except NumberFault α} :
    (left.toFloat >>= fun x => right.toFloat >>= next x) = .error fault ↔
      (fault = .outOfRange ∧ (left.IsVast ∨ right.IsVast)) ∨
        ∃ x y, left.toFloat = .ok x ∧ right.toFloat = .ok y ∧ next x y = .error fault := by
  constructor
  · intro hfails
    obtain hleft | ⟨x, hx, hfails⟩ := except_bind_eq_error.mp hfails
    · obtain ⟨hfault, hvast⟩ := toFloat_error_iff.mp hleft
      exact Or.inl ⟨hfault, Or.inl hvast⟩
    obtain hright | ⟨y, hy, hfails⟩ := except_bind_eq_error.mp hfails
    · obtain ⟨hfault, hvast⟩ := toFloat_error_iff.mp hright
      exact Or.inl ⟨hfault, Or.inr hvast⟩
    · exact Or.inr ⟨x, y, hx, hy, hfails⟩
  · rintro (⟨rfl, hvast⟩ | ⟨x, y, hx, hy, hfails⟩)
    · cases hleft : left.toFloat with
      | error other =>
          obtain ⟨rfl, -⟩ := toFloat_error_iff.mp hleft
          rfl
      | ok x =>
          have hright : right.IsVast := hvast.resolve_left (not_vast_of_toFloat hleft)
          rw [toFloat_error_iff.mpr ⟨rfl, hright⟩]
          rfl
    · rw [hx, hy]
      exact hfails

theorem onFloats_error_iff {operate : Float → Float → Float} :
    onFloats operate left right = .error fault ↔
      fault = .outOfRange ∧ (left.IsVast ∨ right.IsVast) := by
  apply toFloats_bind_error_iff.trans
  apply or_iff_left
  rintro ⟨x, y, -, -, hnone⟩
  cases hnone

/-- With a float among them, two numbers are computed on as floats. -/
theorem onFloats_mixed_iff {operate : Float → Float → Float}
    (hfloat : left.IsFloat ∨ right.IsFloat) :
    onFloats operate left right = .error fault ↔ fault = .outOfRange ∧ Mixed left right := by
  rw [onFloats_error_iff]
  cases left <;> cases right <;> simp_all [Mixed, IsFloat, IsVast]

/-- Two whole numbers have an exact result. -/
theorem mixed_error_iff {combine : Number → Number → Except NumberFault Number}
    {onWholes : Int → Int → Int} {operate : Float → Float → Float}
    (hwhole : ∀ left right, combine (whole left) (whole right) = .ok (whole (onWholes left right)))
    (hleft : ∀ x right, combine (float x) right = onFloats operate (float x) right)
    (hright : ∀ left y, combine left (float y) = onFloats operate left (float y)) :
    combine left right = .error fault ↔ fault = .outOfRange ∧ Mixed left right := by
  cases left with
  | float x =>
      rw [hleft]
      exact onFloats_mixed_iff (Or.inl (isFloat_float x))
  | whole first =>
      cases right with
      | float y =>
          rw [hright]
          exact onFloats_mixed_iff (Or.inr (isFloat_float y))
      | whole second =>
          rw [hwhole]
          simp [Mixed, IsFloat]

theorem add_error_iff :
    add left right = .error fault ↔ fault = .outOfRange ∧ Mixed left right :=
  mixed_error_iff (fun _ _ => rfl) (fun _ right => by cases right <;> rfl) fun left _ => by
    cases left <;> rfl

theorem subtract_error_iff :
    subtract left right = .error fault ↔ fault = .outOfRange ∧ Mixed left right :=
  mixed_error_iff (fun _ _ => rfl) (fun _ right => by cases right <;> rfl) fun left _ => by
    cases left <;> rfl

theorem multiply_error_iff :
    multiply left right = .error fault ↔ fault = .outOfRange ∧ Mixed left right :=
  mixed_error_iff (fun _ _ => rfl) (fun _ right => by cases right <;> rfl) fun left _ => by
    cases left <;> rfl

theorem divide_error_iff (hright : right.isZero = false) :
    divide left right = .error fault ↔ fault = .outOfRange ∧
      (Mixed left right ∨ ∃ first second, left = whole first ∧ right = whole second ∧
        overflow * second.natAbs ≤ first.natAbs) := by
  cases left with
  | float x =>
      have hdivide : divide (float x) right = onFloats (· / ·) (float x) right := by
        cases right <;> rfl
      rw [hdivide, onFloats_mixed_iff (Or.inl (isFloat_float x))]
      simp
  | whole first =>
      cases right with
      | float y =>
          have hdivide : divide (whole first) (float y) =
              onFloats (· / ·) (whole first) (float y) := rfl
          rw [hdivide, onFloats_mixed_iff (Or.inr (isFloat_float y))]
          simp
      | whole second =>
          have hsecond : 0 < second.natAbs := by
            apply Int.natAbs_pos.mpr
            simpa [isZero] using hright
          have hquotient : divide (whole first) (whole second) = .error fault ↔
              fault = .outOfRange ∧ overflow * second.natAbs ≤ first.natAbs := by
            rw [divide, isFinite_nearest hsecond, ← Nat.not_lt]
            split
            · next h => simp [of_decide_eq_true h]
            · next h => simp [of_decide_eq_false (Bool.not_eq_true _ ▸ h), eq_comm]
          simp [hquotient, Mixed, IsFloat]

def IsNaN : Number → Prop
  | whole _ => False
  | float x => x.isNaN = true

def IsInfinite : Number → Prop
  | whole _ => False
  | float x => isFinite x = false ∧ x.isNaN = false

theorem isNaN_of_toFloat {x : Float} (hfloat : number.toFloat = .ok x) :
    number.IsNaN ↔ x.isNaN = true := by
  cases number with
  | whole value =>
      rw [isNaN_of_isFinite (isFinite_of_toFloat hfloat), IsNaN]
      decide
  | float y =>
      cases hfloat
      rfl

theorem isInfinite_of_toFloat {x : Float} (hfloat : number.toFloat = .ok x) :
    number.IsInfinite ↔ isFinite x = false ∧ x.isNaN = false := by
  cases number with
  | whole value => simp [IsInfinite, isFinite_of_toFloat hfloat]
  | float y =>
      cases hfloat
      rfl

theorem modulo_error_iff :
    modulo left right = .error fault ↔
      (fault = .outOfRange ∧ (left.IsVast ∨ right.IsVast)) ∨
        fault = .remainderOfInfinity ∧ left.IsInfinite ∧ ¬right.IsNaN ∧ ¬right.IsVast := by
  apply toFloats_bind_error_iff.trans
  apply or_congr_right
  have hfloats : ∀ x y : Float, (if x.isNaN || y.isNaN then Except.ok (float notANumber)
      else if !isFinite x then .error .remainderOfInfinity
      else if !isFinite y then .ok (float x)
      else .ok (float (remainder x y))) = .error fault ↔
        fault = .remainderOfInfinity ∧ (isFinite x = false ∧ x.isNaN = false) ∧
          ¬y.isNaN = true := by
    intro x y
    cases x.isNaN <;> cases y.isNaN <;> cases isFinite x <;> cases isFinite y <;> simp [eq_comm]
  constructor
  · rintro ⟨x, y, hx, hy, hfails⟩
    rw [isNaN_of_toFloat hy, isInfinite_of_toFloat hx, and_iff_left (not_vast_of_toFloat hy)]
    exact (hfloats x y).mp hfails
  · rintro ⟨hfault, hinfinite, hnumber, hvast⟩
    obtain ⟨y, hy⟩ := toFloat_of_not_vast hvast
    have hx : ∃ x, left.toFloat = .ok x := by
      cases left with
      | whole value => exact hinfinite.elim
      | float x => exact ⟨x, rfl⟩
    obtain ⟨x, hx⟩ := hx
    refine ⟨x, y, hx, hy, (hfloats x y).mpr ?_⟩
    rw [isNaN_of_toFloat hy] at hnumber
    exact ⟨hfault, (isInfinite_of_toFloat hx).mp hinfinite, hnumber⟩

theorem isTruthy_error_iff :
    isTruthy number = .error fault ↔ fault = .outOfRange ∧ number.IsVast := by
  cases number with
  | float x => simp [isTruthy, IsVast]
  | whole value =>
      rw [isTruthy]
      split
      · next hzero =>
        subst hzero
        have hvast : ¬(whole 0).IsVast := Nat.not_le.mpr overflow_pos
        simp [hvast, pure, Except.pure]
      · rw [except_bind_eq_error, toFloat_error_iff]
        apply or_iff_left
        rintro ⟨x, -, hnone⟩
        cases hnone

end PageLoom.Number
