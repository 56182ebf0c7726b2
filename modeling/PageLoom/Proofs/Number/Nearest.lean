import Mathlib
import PageLoom.Proofs.Number.Numeral
import PageLoom.Proofs.Number.Range

/-!
# The float nearest to a whole number

Up to the overflow of floats a whole number becomes the float that keeps its 53 greatest bits,
rounded by what is cut off, and that float equals a whole number again. It is the same number
exactly if the number is a float: at most 53 bits times a power of two. A numeral spells the float
nearest to its number.
-/

namespace PageLoom.Number

variable {negative : Bool} {number numerator denominator : Nat}

/-! ## Rounding to a multiple -/

theorem powerOfTwo_le {count more : Nat} (hle : count ≤ more) :
    powerOfTwo count ≤ powerOfTwo more :=
  Nat.pow_le_pow_right two_pos hle

theorem roundedQuotient_of_dvd (hpos : 0 < denominator) (hdvd : denominator ∣ numerator) :
    roundedQuotient numerator denominator = numerator / denominator := by
  rw [roundedQuotient, Nat.mod_eq_zero_of_dvd hdvd]
  simp [hpos]

/-- What one step in the 53 greatest bits of a number amounts to. -/
def unitOf (number : Nat) : Nat := powerOfTwo (number.log2 - mantissaBits)

/-- A number rounded to its 53 greatest bits. -/
def rounded (number : Nat) : Nat := roundedQuotient number (unitOf number) * unitOf number

theorem unitOf_pos (number : Nat) : 0 < unitOf number := powerOfTwo_pos _

theorem rounded_eq_self_iff : rounded number = number ↔ unitOf number ∣ number := by
  constructor
  · intro hsame
    exact Dvd.intro_left _ hsame
  · intro hdvd
    rw [rounded, roundedQuotient_of_dvd (unitOf_pos number) hdvd, Nat.div_mul_cancel hdvd]

theorem lt_unitOf (number : Nat) : number < 2 ^ 53 * unitOf number := by
  have hpower : 2 ^ 53 * unitOf number = 2 ^ (53 + (number.log2 - 52)) := (Nat.pow_add ..).symm
  rw [hpower]
  calc number
      < 2 ^ (number.log2 + 1) := Nat.lt_log2_self
    _ ≤ 2 ^ (53 + (number.log2 - 52)) := Nat.pow_le_pow_right two_pos (by omega)

/-- The whole numbers among the floats. -/
def IsFloatValue (number : Nat) : Prop :=
  ∃ mantissa exponent, mantissa < 2 ^ 53 ∧ exponent ≤ 971 ∧ number = mantissa * 2 ^ exponent

theorem log2_lt_of_lt {count : Nat} (hnumber : number ≠ 0) (hless : number < powerOfTwo count) :
    number.log2 < count :=
  (Nat.log2_lt hnumber).mpr hless

theorem log2_lt_of_lt_overflow (hless : number < overflow) (hnumber : number ≠ 0) :
    number.log2 < 1024 := by
  have hbound : overflow ≤ powerOfTwo 1024 := by decide +kernel
  exact log2_lt_of_lt hnumber (hless.trans_le hbound)

theorem isFloatValue_iff : IsFloatValue number ↔ number < overflow ∧ rounded number = number := by
  rw [rounded_eq_self_iff]
  constructor
  · rintro ⟨mantissa, exponent, hmantissa, hexponent, rfl⟩
    constructor
    · have hbound : (powerOfTwo 53 - 1) * powerOfTwo 971 < overflow := by decide +kernel
      calc mantissa * 2 ^ exponent
          ≤ (powerOfTwo 53 - 1) * powerOfTwo 971 :=
            Nat.mul_le_mul (Nat.le_pred_of_lt hmantissa) (powerOfTwo_le hexponent)
        _ < overflow := hbound
    · by_cases hzero : mantissa * 2 ^ exponent = 0
      · rw [hzero]
        exact dvd_zero _
      have hlog : (mantissa * 2 ^ exponent).log2 < 53 + exponent := by
        rw [Nat.log2_lt hzero, Nat.pow_add]
        exact Nat.mul_lt_mul_of_pos_right hmantissa (Nat.two_pow_pos _)
      have hunit : (mantissa * 2 ^ exponent).log2 - mantissaBits ≤ exponent := by
        rw [mantissaBits]
        omega
      exact (pow_dvd_pow 2 hunit).mul_left mantissa
  · rintro ⟨hless, quotient, hquotient⟩
    refine ⟨quotient, number.log2 - mantissaBits, ?_, ?_, ?_⟩
    · have hbits := lt_unitOf number
      have hproduct : unitOf number * quotient < unitOf number * 2 ^ 53 := by
        rwa [← hquotient, Nat.mul_comm]
      exact Nat.lt_of_mul_lt_mul_left hproduct
    · by_cases hzero : number = 0
      · rw [hzero]
        decide
      · have hlog := log2_lt_of_lt_overflow hless hzero
        rw [mantissaBits]
        omega
    · rw [Nat.mul_comm]
      exact hquotient

/-! ## The value of the nearest float -/

theorem Dyadic.numerator_eq {value : Dyadic} {whole : Nat}
    (hvalue : (value.mantissa : ℚ) * 2 ^ value.exponent = whole) :
    value.numerator = whole * value.denominator := by
  rw [← Nat.cast_inj (R := ℚ)]
  calc (value.numerator : ℚ)
      = value.mantissa * powerOfTwo value.exponent.toNat := Nat.cast_mul ..
    _ = value.mantissa * 2 ^ value.exponent * value.denominator := by
        rw [powerOfTwo_toNat, mul_assoc]
        rfl
    _ = (whole * value.denominator : Nat) := by rw [hvalue, Nat.cast_mul]

theorem wholeValue?_eq {x : Float} {whole : Nat} (hfinite : isFinite x = true)
    (hvalue : ((dyadic x).mantissa : ℚ) * 2 ^ (dyadic x).exponent = whole) :
    wholeValue? x = some (if (dyadic x).negative then -(whole : Int) else whole) := by
  have hpos : 0 < (dyadic x).denominator := powerOfTwo_pos _
  rw [wholeValue?]
  simp only [Dyadic.numerator_eq hvalue]
  simp [hfinite, hpos.ne']

/-- The value of the bits that a mantissa and the steps above the least exponent make. A mantissa of
54 bits is the power of two that the next exponent begins with. -/
theorem dyadic_ofMagnitude {mantissa steps : Nat} (hleast : 2 ^ 52 ≤ mantissa)
    (hmost : mantissa ≤ 2 ^ 53) (hle : mantissa + steps * powerOfTwo mantissaBits ≤ infinityBits) :
    let value := dyadic (ofMagnitude negative (mantissa + steps * powerOfTwo mantissaBits))
    value.negative = negative ∧
      (value.mantissa : ℚ) * 2 ^ value.exponent = mantissa * 2 ^ (leastExponent + steps) := by
  have hunit : powerOfTwo mantissaBits = 2 ^ 52 := rfl
  dsimp only
  unfold dyadic
  dsimp only
  rw [magnitude_ofMagnitude hle, isNegative_ofMagnitude hle, hunit, if_neg (by omega)]
  refine ⟨rfl, ?_⟩
  rcases hmost.lt_or_eq with hless | rfl
  · have hfield : (mantissa + steps * 2 ^ 52) / 2 ^ 52 = steps + 1 := by omega
    have hfraction : (mantissa + steps * 2 ^ 52) % 2 ^ 52 + 2 ^ 52 = mantissa := by omega
    rw [hfield, hfraction, Nat.cast_succ, add_sub_cancel_right]
  · have hfield : (2 ^ 53 + steps * 2 ^ 52) / 2 ^ 52 = steps + 1 + 1 := by omega
    have hfraction : (2 ^ 53 + steps * 2 ^ 52) % 2 ^ 52 + 2 ^ 52 = 2 ^ 52 := by omega
    rw [hfield, hfraction, Nat.cast_succ, add_sub_cancel_right, Nat.cast_succ, ← add_assoc,
      zpow_add_one₀ two_ne_zero]
    push_cast
    ring

theorem binaryMagnitude_one (hnumber : number ≠ 0) : binaryMagnitude number 1 = number.log2 := by
  have hreached : 1 * powerOfTwo number.log2 ≤ number * powerOfTwo (-(number.log2 : Int)).toNat := by
    rw [Nat.one_mul]
    exact (Nat.log2_self_le hnumber).trans (Nat.le_mul_of_pos_right _ (powerOfTwo_pos _))
  have hone : (1 : Nat).log2 = 0 := rfl
  rw [binaryMagnitude, hone, Nat.cast_zero, sub_zero]
  exact if_pos hreached

/-- The greatest 53 bits of a number, rounded. A small number is shifted to the front. -/
def leadingBits (number : Nat) : Nat :=
  roundedQuotient (number * powerOfTwo (mantissaBits - number.log2)) (unitOf number)

theorem leadingBits_bounds (hnumber : number ≠ 0) :
    2 ^ 52 ≤ leadingBits number ∧ leadingBits number ≤ 2 ^ 53 := by
  have hpos : 0 < powerOfTwo (52 - number.log2) := powerOfTwo_pos _
  have hunit : powerOfTwo number.log2 * powerOfTwo (52 - number.log2) =
      2 ^ 52 * unitOf number := by
    have hsum : number.log2 + (52 - number.log2) = 52 + (number.log2 - 52) := by omega
    exact (Nat.pow_add ..).symm.trans ((congrArg (2 ^ ·) hsum).trans (Nat.pow_add ..))
  constructor
  · apply le_roundedQuotient (unitOf_pos number)
    rw [← hunit]
    exact Nat.mul_le_mul_right _ (Nat.log2_self_le hnumber)
  · have hless : number * powerOfTwo (52 - number.log2) < 2 ^ 53 * unitOf number :=
      calc number * powerOfTwo (52 - number.log2)
        _ < powerOfTwo (number.log2 + 1) * powerOfTwo (52 - number.log2) :=
          Nat.mul_lt_mul_of_pos_right Nat.lt_log2_self hpos
        _ = 2 ^ 53 * unitOf number := by
          rw [powerOfTwo_succ, Nat.mul_assoc, hunit]
          omega
    have hquotient := (Nat.div_lt_iff_lt_mul (unitOf_pos number)).mpr hless
    exact (roundedQuotient_bounds ..).2.trans hquotient

theorem leadingBits_mul_unitOf (number : Nat) :
    leadingBits number * unitOf number =
      rounded number * powerOfTwo (mantissaBits - number.log2) := by
  rcases Nat.le_total mantissaBits number.log2 with hlarge | hsmall
  · have hshift : powerOfTwo (mantissaBits - number.log2) = 1 := by
      rw [Nat.sub_eq_zero_of_le hlarge]
      rfl
    rw [leadingBits, rounded, hshift, Nat.mul_one, Nat.mul_one]
  · have hunit : unitOf number = 1 := by
      rw [unitOf, Nat.sub_eq_zero_of_le hsmall]
      rfl
    rw [leadingBits, rounded, hunit, roundedQuotient_of_dvd one_pos (one_dvd _),
      roundedQuotient_of_dvd one_pos (one_dvd _)]
    simp only [Nat.div_one, Nat.mul_one]

theorem leadingBits_value (number : Nat) :
    (leadingBits number : ℚ) * 2 ^ ((number.log2 : Int) - mantissaBits) = rounded number := by
  have hpower := powerOfTwo_toNat ((number.log2 : Int) - mantissaBits)
  have hdown : ((number.log2 : Int) - mantissaBits).toNat = number.log2 - mantissaBits := by omega
  have hup : (-((number.log2 : Int) - mantissaBits)).toNat = mantissaBits - number.log2 := by omega
  rw [hdown, hup] at hpower
  have hproduct : (leadingBits number : ℚ) * unitOf number =
      rounded number * powerOfTwo (mantissaBits - number.log2) := by
    exact_mod_cast leadingBits_mul_unitOf number
  have hpos : (powerOfTwo (mantissaBits - number.log2) : ℚ) ≠ 0 := by
    exact_mod_cast (powerOfTwo_pos _).ne'
  apply mul_right_cancel₀ hpos
  rw [mul_assoc, ← hpower]
  exact hproduct

theorem nearestBits_one (hnumber : number ≠ 0) (hless : number < overflow) :
    nearestBits number 1 =
      leadingBits number + (number.log2 + 1022) * powerOfTwo mantissaBits := by
  have hfinite : nearestBits number 1 < infinityBits := by
    rwa [nearestBits_lt_iff one_pos, Nat.mul_one]
  rw [nearestBits, if_neg hnumber, binaryMagnitude_one hnumber] at hfinite ⊢
  have hmax : max ((number.log2 : Int) - mantissaBits) leastExponent =
      number.log2 - mantissaBits := by
    rw [leastExponent, mantissaBits]
    omega
  have hsteps : ((number.log2 : Int) - mantissaBits - leastExponent).toNat =
      number.log2 + 1022 := by
    rw [leastExponent, mantissaBits]
    omega
  have hdown : ((number.log2 : Int) - mantissaBits).toNat = number.log2 - mantissaBits := by omega
  have hup : (-((number.log2 : Int) - mantissaBits)).toNat = mantissaBits - number.log2 := by omega
  dsimp only at hfinite ⊢
  rw [hmax, hsteps, hdown, hup, Nat.one_mul] at hfinite ⊢
  exact min_eq_right ((min_lt_iff.mp hfinite).resolve_left (lt_irrefl _)).le

theorem wholeValue?_zero : wholeValue? (ofMagnitude false 0) = some 0 := by
  have hle : 0 ≤ infinityBits := Nat.zero_le _
  have hfinite : isFinite (ofMagnitude false 0) = true := isFinite_ofMagnitude hle
  have hdyadic : dyadic (ofMagnitude false 0) = ⟨false, 0, leastExponent⟩ := by
    unfold dyadic
    rw [magnitude_ofMagnitude hle, isNegative_ofMagnitude hle]
    rfl
  have hvalue : ((dyadic (ofMagnitude false 0)).mantissa : ℚ) *
      2 ^ (dyadic (ofMagnitude false 0)).exponent = (0 : Nat) := by
    rw [hdyadic, Nat.cast_zero, zero_mul]
  rw [wholeValue?_eq hfinite hvalue, hdyadic]
  rfl

/-- The float nearest to a whole number within the range of floats is a whole number. -/
theorem wholeValue?_nearest (hless : number < overflow) :
    wholeValue? (nearest false number 1) = some (rounded number : Int) := by
  by_cases hnumber : number = 0
  · subst hnumber
    exact wholeValue?_zero
  have hfinite : isFinite (nearest false number 1) = true := by
    rw [isFinite_nearest one_pos, Nat.mul_one]
    exact decide_eq_true hless
  have hle : nearestBits number 1 ≤ infinityBits := nearestBits_le
  have hexponent : leastExponent + (number.log2 + 1022 : Nat) =
      (number.log2 : Int) - mantissaBits := by
    rw [leastExponent, mantissaBits]
    omega
  obtain ⟨hleast, hmost⟩ := leadingBits_bounds hnumber
  rw [nearest, nearestBits_one hnumber hless] at hfinite ⊢
  rw [nearestBits_one hnumber hless] at hle
  obtain ⟨hnegative, hvalue⟩ := dyadic_ofMagnitude hleast hmost hle
  rw [hexponent, leadingBits_value] at hvalue
  rw [wholeValue?_eq hfinite hvalue, hnegative]
  rfl

/-- From the overflow on the nearest float is infinite. -/
theorem nearest_of_overflow_le (hle : overflow ≤ number) :
    nearest negative number 1 = infinity negative := by
  have hbits : nearestBits number 1 = infinityBits := by
    apply le_antisymm nearestBits_le
    rw [← Nat.not_lt, nearestBits_lt_iff one_pos, Nat.mul_one]
    exact Nat.not_lt.mpr hle
  rw [nearest, hbits, infinity]

/-! ## Numerals -/

theorem digitsValue_dropWhile_zero (digits : Text) :
    digitsValue (digits.dropWhile (· = '0')) = digitsValue digits := by
  induction digits with
  | nil => rfl
  | cons c digits ih =>
      by_cases hzero : c = '0'
      · subst hzero
        rw [List.dropWhile_cons_of_pos (by decide), ih]
        rfl
      · rw [List.dropWhile_cons_of_neg (by simpa using hzero)]

/-- Where the length of a numeral decides, it decides rightly. -/
theorem toFloat_ofNat (negative : Bool) (number : Nat) :
    Numeral.toFloat negative ⟨Text.ofNat number, [], 0⟩ = nearest negative number 1 := by
  have hvalue := (digitsValue_dropWhile_zero (Text.ofNat number)).trans (digitsValue_ofNat number)
  have hlength := (List.dropWhile_sublist (· = '0') (l := Text.ofNat number)).length_le
  unfold Numeral.toFloat
  dsimp only
  rw [List.append_nil, List.length_nil]
  generalize (Text.ofNat number).dropWhile (· = '0') = digits at hvalue hlength ⊢
  split
  · next hempty =>
    have hnone : digits = [] := by
      rw [Bool.or_eq_true, decide_eq_true_iff] at hempty
      exact hempty.elim List.isEmpty_iff.mp fun hshort => absurd hshort (by omega)
    rw [← hvalue, hnone]
    rfl
  · split
    · next hlong =>
      have hbound : overflow ≤ powerOfTen 400 := by decide +kernel
      have hnumber : powerOfTen 400 ≤ number := by
        rw [← Nat.not_lt, ← length_ofNat_le_iff (by decide)]
        omega
      rw [nearest_of_overflow_le (hbound.trans hnumber)]
    · rw [hvalue]
      exact congrArg (nearest negative · 1) (Nat.mul_one number)

/-- A numeral of any length spells the float nearest to its number. -/
theorem readFloat?_ofNat (number : Nat) :
    readFloat? (Text.ofNat number) = some (nearest false number 1) := by
  have hinf : Text.ofNat number ≠ "inf".toList := ofNat_ne_cons rfl _
  have hinfinity : Text.ofNat number ≠ "infinity".toList := ofNat_ne_cons rfl _
  have hnan : Text.ofNat number ≠ "nan".toList := ofNat_ne_cons rfl _
  rw [readFloat?, trim_ofNat, map_plainDigit_ofNat,
    dropUnderscores?_of_not_mem (not_mem_ofNat rfl)]
  dsimp only
  rw [splitSign_ofNat]
  dsimp only
  rw [asciiLower_ofNat, readNumeral?_ofNat, Option.map_some, toFloat_ofNat,
    decide_eq_false hinf, decide_eq_false hinfinity, if_neg hnan]
  rfl

end PageLoom.Number
