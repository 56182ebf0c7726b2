import Mathlib
import PageLoom.Number.Rounding

/-!
# The range of floats

A quotient rounds to a finite float exactly if it is less than the middle between the greatest float
and the power of two beyond it: there the even neighbour is the infinite one. A whole number from
that middle on is vast. It cannot take part in what is computed on floats.
-/

namespace PageLoom.Number

open Float.Model Float.Model.UnpackedFloat

variable {negative : Bool} {magnitude numerator denominator : Nat}

/-! ## Bits -/

theorem toBits_ofBits {bits : UInt64} (hvalid : Format.binary64.Valid bits.toBitVec) :
    (Float.ofBits bits).toBits = bits := by
  apply UInt64.toBitVec_inj.mp
  exact pack_unpack_of_valid hvalid

/-- Only what is greater than infinity stands for no number. -/
theorem valid_of_le {bits : UInt64} (hle : bits.toNat % signBit ≤ infinityBits) :
    Format.binary64.Valid bits.toBitVec := by
  constructor
  intro hexponent hmantissa
  rw [unpackExponent_def] at hexponent
  have hfield : bits.toNat / 2 ^ 52 % 2 ^ 11 = 2047 := by
    have hfield := congrArg BitVec.toNat hexponent
    rwa [BitVec.extractLsb'_toNat, Nat.shiftRight_eq_div_pow] at hfield
  have hfraction : bits.toNat % 2 ^ 52 = 0 := by
    have hbits : bits.toNat % 2 ^ 63 ≤ 2047 * 2 ^ 52 := hle
    omega
  refine absurd ?_ hmantissa
  apply BitVec.eq_of_toNat_eq
  rw [unpackMantissa_def, BitVec.extractLsb'_toNat, Nat.shiftRight_zero]
  exact hfraction

/-- The bits of a signed magnitude. -/
def signedBits (negative : Bool) (magnitude : Nat) : Nat :=
  if negative then signBit + magnitude else magnitude

theorem signedBits_mod (hless : magnitude < signBit) :
    signedBits negative magnitude % signBit = magnitude := by
  cases negative with
  | true => exact (Nat.add_mod_left ..).trans (Nat.mod_eq_of_lt hless)
  | false => exact Nat.mod_eq_of_lt hless

theorem bits_ofMagnitude (hle : magnitude ≤ infinityBits) :
    (ofMagnitude negative magnitude).toBits.toNat = signedBits negative magnitude := by
  have hless : magnitude < signBit := Nat.lt_of_le_of_lt hle (by decide)
  have hbits : (UInt64.ofNat (signedBits negative magnitude)).toNat =
      signedBits negative magnitude := by
    apply UInt64.toNat_ofNat_of_lt'
    calc signedBits negative magnitude
        ≤ signBit + magnitude := by
          unfold signedBits
          split <;> omega
      _ < signBit + signBit := Nat.add_lt_add_left hless _
  have hvalid : (UInt64.ofNat (signedBits negative magnitude)).toNat % signBit ≤ infinityBits := by
    rwa [hbits, signedBits_mod hless]
  exact (congrArg UInt64.toNat (toBits_ofBits (valid_of_le hvalid))).trans hbits

theorem magnitude_ofMagnitude (hle : magnitude ≤ infinityBits) :
    (ofMagnitude negative magnitude).toBits.toNat % signBit = magnitude := by
  rw [bits_ofMagnitude hle, signedBits_mod (Nat.lt_of_le_of_lt hle (by decide))]

theorem isNegative_ofMagnitude (hle : magnitude ≤ infinityBits) :
    isNegative (ofMagnitude negative magnitude) = negative := by
  have hless : magnitude < signBit := Nat.lt_of_le_of_lt hle (by decide)
  rw [isNegative, bits_ofMagnitude hle, signedBits]
  cases negative <;> simp [hless]

theorem isFinite_ofMagnitude (hle : magnitude ≤ infinityBits) :
    isFinite (ofMagnitude negative magnitude) = decide (magnitude < infinityBits) := by
  rw [isFinite, magnitude_ofMagnitude hle]

/-! ## Rounding to a whole number -/

theorem roundedQuotient_bounds (numerator denominator : Nat) :
    numerator / denominator ≤ roundedQuotient numerator denominator ∧
      roundedQuotient numerator denominator ≤ numerator / denominator + 1 := by
  unfold roundedQuotient
  grind

theorem le_roundedQuotient {whole : Nat} (hpos : 0 < denominator)
    (hle : whole * denominator ≤ numerator) : whole ≤ roundedQuotient numerator denominator :=
  calc whole
    _ ≤ numerator / denominator := (Nat.le_div_iff_mul_le hpos).mpr hle
    _ ≤ roundedQuotient numerator denominator := (roundedQuotient_bounds ..).1

/-- From an odd number a quotient is rounded down only below the half. -/
theorem roundedQuotient_odd (hodd : numerator / denominator % 2 = 1) :
    roundedQuotient numerator denominator < numerator / denominator + 1 ↔
      2 * (numerator % denominator) < denominator := by
  unfold roundedQuotient
  grind

/-- A half is rounded away from an odd number, so a quotient rounds to less than an even number
exactly if it is less than that by more than a half. -/
theorem roundedQuotient_lt_iff {half : Nat} (hpos : 0 < denominator) :
    roundedQuotient numerator denominator < 2 * half ↔
      2 * numerator + denominator < 4 * half * denominator := by
  obtain ⟨hdown, hup⟩ := roundedQuotient_bounds numerator denominator
  have hdivided := Nat.div_add_mod numerator denominator
  have hrest := Nat.mod_lt numerator hpos
  have hrounded := @roundedQuotient_odd numerator denominator
  generalize roundedQuotient numerator denominator = rounded at *
  generalize numerator / denominator = whole at *
  generalize numerator % denominator = rest at *
  subst hdivided
  rcases Nat.lt_trichotomy (whole + 1) (2 * half) with hless | hsame | hmore
  · have hbelow : (whole + 2) * denominator ≤ 2 * half * denominator :=
      Nat.mul_le_mul_right _ hless
    exact iff_of_true (by omega) (by linarith)
  · -- Next to an even number: below the half the quotient is rounded down, from it on up.
    rw [← hsame, hrounded (by omega)]
    have hnext : 4 * half * denominator = 2 * ((whole + 1) * denominator) := by
      rw [hsame]
      ring
    rw [hnext]
    constructor
    · intro hbelow
      linarith
    · intro hbelow
      linarith
  · have habove : 2 * half * denominator ≤ whole * denominator :=
      Nat.mul_le_mul_right _ (by omega)
    exact iff_of_false (by omega) (by linarith)

/-! ## The exponent of a quotient -/

theorem powerOfTwo_pos (count : Nat) : 0 < powerOfTwo count := Nat.two_pow_pos count

theorem powerOfTwo_succ (count : Nat) : powerOfTwo (count + 1) = 2 * powerOfTwo count :=
  Nat.pow_succ'

theorem powerOfTwo_toNat (exponent : Int) :
    (powerOfTwo exponent.toNat : ℚ) = 2 ^ exponent * powerOfTwo (-exponent).toNat := by
  have hpower : ∀ count : Nat, (powerOfTwo count : ℚ) = 2 ^ count := by
    intro count
    exact Nat.cast_pow 2 count
  rw [hpower, hpower, ← zpow_natCast, ← zpow_natCast, ← zpow_add₀ two_ne_zero]
  congr 1
  omega

/-- Both sides of a comparison at a power of two are whole numbers. -/
theorem scaled_le_iff (exponent : Int) (whole : Nat) :
    whole * (denominator * powerOfTwo exponent.toNat) ≤
        numerator * powerOfTwo (-exponent).toNat ↔
      (whole : ℚ) * 2 ^ exponent * denominator ≤ numerator := by
  have hpos : (0 : ℚ) < powerOfTwo (-exponent).toNat := by
    exact_mod_cast powerOfTwo_pos _
  have hscaled : (whole * (denominator * powerOfTwo exponent.toNat) : ℚ) =
      whole * 2 ^ exponent * denominator * powerOfTwo (-exponent).toNat := by
    rw [powerOfTwo_toNat]
    ring
  rw [← Nat.cast_le (α := ℚ)]
  push_cast
  rw [hscaled, mul_le_mul_iff_left₀ hpos]

theorem binaryMagnitude_spec (hpos : 0 < denominator) (hnumerator : numerator ≠ 0) :
    2 ^ binaryMagnitude numerator denominator * (denominator : ℚ) ≤ numerator ∧
      (numerator : ℚ) < 2 ^ (binaryMagnitude numerator denominator + 1) * denominator := by
  have hlow : (2 : ℚ) ^ (numerator.log2 : Int) ≤ numerator := by
    exact_mod_cast Nat.log2_self_le hnumerator
  have hhigh : (numerator : ℚ) < 2 ^ ((numerator.log2 : Int) + 1) := by
    exact_mod_cast Nat.lt_log2_self
  have hlow' : (2 : ℚ) ^ (denominator.log2 : Int) ≤ denominator := by
    exact_mod_cast Nat.log2_self_le hpos.ne'
  have hhigh' : (denominator : ℚ) < 2 ^ ((denominator.log2 : Int) + 1) := by
    exact_mod_cast Nat.lt_log2_self
  unfold binaryMagnitude
  dsimp only
  generalize (numerator.log2 : Int) = most at *
  generalize (denominator.log2 : Int) = least at *
  have hreached := @scaled_le_iff numerator denominator (most - least) 1
  rw [one_mul, Nat.cast_one, one_mul] at hreached
  split
  · next h =>
    refine ⟨hreached.mp h, ?_⟩
    calc (numerator : ℚ)
        < 2 ^ (most + 1) := hhigh
      _ = 2 ^ (most - least + 1) * 2 ^ least := by
          rw [← zpow_add₀ two_ne_zero]
          congr 1
          omega
      _ ≤ 2 ^ (most - least + 1) * denominator := by gcongr
  · next h =>
    rw [hreached, not_le] at h
    refine ⟨?_, by rwa [sub_add_cancel]⟩
    calc 2 ^ (most - least - 1) * (denominator : ℚ)
        ≤ 2 ^ (most - least - 1) * 2 ^ (least + 1) := by gcongr
      _ = 2 ^ most := by
          rw [← zpow_add₀ two_ne_zero]
          congr 1
          omega
      _ ≤ numerator := hlow

/-! ## The overflow of floats -/

/-- The middle between the greatest float and the power of two beyond it. -/
def overflow : Nat := (powerOfTwo 54 - 1) * powerOfTwo 970

theorem overflow_pos : 0 < overflow := by decide +kernel

theorem nearestBits_le : nearestBits numerator denominator ≤ infinityBits := by
  unfold nearestBits
  dsimp only
  split
  · exact Nat.zero_le _
  · exact Nat.min_le_left ..

/-- Below the greatest exponent a quotient is neither rounded to infinity nor close to it. -/
theorem lt_overflow {exponent size : Int} (hpos : 0 < denominator) (hsize : size - 52 ≤ exponent)
    (hexponent : exponent ≤ 970) (hhigh : (numerator : ℚ) < 2 ^ (size + 1) * denominator) :
    roundedQuotient (numerator * powerOfTwo (-exponent).toNat)
        (denominator * powerOfTwo exponent.toNat) < 2 * (2 ^ 52 + 1) ∧
      numerator < overflow * denominator := by
  constructor
  · have hpos' : 0 < denominator * powerOfTwo exponent.toNat :=
      Nat.mul_pos hpos (powerOfTwo_pos _)
    have hless : numerator * powerOfTwo (-exponent).toNat <
        2 ^ 53 * (denominator * powerOfTwo exponent.toNat) := by
      rw [← not_le, scaled_le_iff, not_le]
      calc (numerator : ℚ)
          < 2 ^ (size + 1) * denominator := hhigh
        _ ≤ 2 ^ (53 + exponent) * denominator := by
            apply mul_le_mul_of_nonneg_right _ (Nat.cast_nonneg _)
            exact zpow_le_zpow_right₀ one_le_two (by omega)
        _ = (2 ^ 53 : Nat) * 2 ^ exponent * denominator := by
            rw [zpow_add₀ two_ne_zero]
            norm_cast
    rw [roundedQuotient_lt_iff hpos']
    omega
  · have hbound : 2 ^ 1023 ≤ overflow := by decide +kernel
    rw [← Nat.cast_lt (α := ℚ)]
    calc (numerator : ℚ)
        < 2 ^ (size + 1) * denominator := hhigh
      _ ≤ 2 ^ (1023 : Int) * denominator := by
          apply mul_le_mul_of_nonneg_right _ (Nat.cast_nonneg _)
          exact zpow_le_zpow_right₀ one_le_two (by omega)
      _ ≤ (overflow : ℚ) * denominator := by
          gcongr
          exact_mod_cast hbound
      _ = (overflow * denominator : Nat) := (Nat.cast_mul ..).symm

/-- At the greatest exponent it matters whether a quotient is rounded up to the next one. -/
theorem roundedQuotient_lt_iff_lt_overflow (hpos : 0 < denominator) :
    roundedQuotient numerator (denominator * powerOfTwo (971 : Int).toNat) < 2 * 2 ^ 52 ↔
      numerator < overflow * denominator := by
  have hpos' : 0 < denominator * powerOfTwo (971 : Int).toNat :=
    Nat.mul_pos hpos (powerOfTwo_pos _)
  have hdouble : denominator * powerOfTwo (971 : Int).toNat =
      2 * (denominator * powerOfTwo 970) := by
    have hpower : powerOfTwo (971 : Int).toNat = 2 * powerOfTwo 970 := powerOfTwo_succ 970
    rw [hpower, Nat.mul_left_comm]
  have hoverflow : overflow * denominator = (2 ^ 54 - 1) * (denominator * powerOfTwo 970) := by
    have hodd : powerOfTwo 54 - 1 = 2 ^ 54 - 1 := rfl
    rw [overflow, hodd, Nat.mul_assoc, Nat.mul_comm denominator (powerOfTwo 970)]
  rw [roundedQuotient_lt_iff hpos', hdouble, hoverflow]
  generalize denominator * powerOfTwo 970 = unit
  omega

/-- Beyond the greatest exponent a quotient is rounded to infinity. -/
theorem overflow_le {size : Int} (hpos : 0 < denominator) (hsize : 1024 ≤ size)
    (hlow : 2 ^ size * (denominator : ℚ) ≤ numerator) :
    2 ^ 52 ≤ roundedQuotient (numerator * powerOfTwo (-(size - 52)).toNat)
        (denominator * powerOfTwo (size - 52).toNat) ∧
      overflow * denominator ≤ numerator := by
  constructor
  · have hpos' : 0 < denominator * powerOfTwo (size - 52).toNat :=
      Nat.mul_pos hpos (powerOfTwo_pos _)
    apply le_roundedQuotient hpos'
    rw [scaled_le_iff]
    calc ((2 ^ 52 : Nat) : ℚ) * 2 ^ (size - 52) * denominator
        = 2 ^ (52 + (size - 52)) * denominator := by
          rw [zpow_add₀ two_ne_zero]
          norm_cast
      _ = 2 ^ size * denominator := by rw [add_sub_cancel]
      _ ≤ numerator := hlow
  · have hbound : overflow ≤ 2 ^ 1024 := by decide +kernel
    rw [← Nat.cast_le (α := ℚ)]
    calc ((overflow * denominator : Nat) : ℚ)
        = overflow * denominator := Nat.cast_mul ..
      _ ≤ 2 ^ (1024 : Int) * denominator := by
          gcongr
          exact_mod_cast hbound
      _ ≤ 2 ^ size * denominator := by
          gcongr
          exact one_le_two
      _ ≤ numerator := hlow

theorem nearestBits_lt_iff (hpos : 0 < denominator) :
    nearestBits numerator denominator < infinityBits ↔ numerator < overflow * denominator := by
  unfold nearestBits
  dsimp only
  split
  · next h =>
    subst h
    exact iff_of_true (by decide) (Nat.mul_pos overflow_pos hpos)
  · next h =>
    obtain ⟨hlow, hhigh⟩ := binaryMagnitude_spec hpos h
    generalize binaryMagnitude numerator denominator = size at *
    have hinfinity : infinityBits = 2047 * 2 ^ 52 := rfl
    have hunit : powerOfTwo mantissaBits = 2 ^ 52 := rfl
    have hleast : leastExponent = -1074 := rfl
    have hbits : (mantissaBits : Int) = 52 := rfl
    rw [hinfinity, hunit, hleast, hbits]
    rcases lt_trichotomy size 1023 with hless | hsame | hmore
    · obtain ⟨hmantissa, hfits⟩ := lt_overflow hpos (le_max_left (size - 52) (-1074)) (by omega)
        hhigh
      apply iff_of_true _ hfits
      clear hfits
      generalize roundedQuotient _ _ = mantissa at hmantissa ⊢
      omega
    · subst hsame
      -- The greatest exponent: what decides is whether the mantissa is rounded up to the next one.
      have hmax : max ((1023 : Int) - 52) (-1074) = 971 := rfl
      have hone : numerator * powerOfTwo (-971 : Int).toNat = numerator := Nat.mul_one numerator
      rw [hmax, hone, ← roundedQuotient_lt_iff_lt_overflow hpos]
      generalize roundedQuotient _ _ = mantissa
      omega
    · obtain ⟨hmantissa, hlarge⟩ := overflow_le hpos hmore hlow
      have hmax : max (size - 52) (-1074) = size - 52 := by omega
      rw [hmax]
      apply iff_of_false _ (Nat.not_lt.mpr hlarge)
      clear hlarge
      generalize roundedQuotient _ _ = mantissa at hmantissa ⊢
      omega

theorem isFinite_nearest (hpos : 0 < denominator) :
    isFinite (nearest negative numerator denominator) =
      decide (numerator < overflow * denominator) := by
  rw [nearest, isFinite_ofMagnitude nearestBits_le]
  exact decide_eq_decide.mpr (nearestBits_lt_iff hpos)

theorem isNaN_of_isFinite {x : Float} (hfinite : isFinite x = true) : x.isNaN = false := by
  rw [Float.isNaN_eq_decide_eq_nan, decide_eq_false_iff_not]
  rintro rfl
  cases hfinite

/-- The whole numbers out of the range of floats. -/
theorem ofInt?_eq_none_iff {value : Int} : ofInt? value = none ↔ overflow ≤ value.natAbs := by
  rw [ofInt?, isFinite_nearest one_pos, Nat.mul_one]
  simp

end PageLoom.Number
