import Mathlib.Data.List.TakeWhile
import Mathlib.Tactic.Common
import PageLoom.Number.Numeral

/-!
# Reading numerals back

The numeral of a whole number consists of ASCII digits. As long as there are not too many of them it
is read back as the number.
-/

namespace PageLoom.Number

variable {number limit : Nat} {c : Char}

/-! ## The digits of a numeral -/

theorem of_isDigit (property : Char → Bool)
    (hcodes : ∀ code ∈ List.range' 48 10, property (Char.ofNat code) = true)
    (hdigit : c.isDigit = true) : property c = true := by
  have hcode : 48 ≤ c.toNat ∧ c.toNat ≤ 57 := by
    simpa [Char.isDigit, UInt32.le_iff_toNat_le] using hdigit
  rw [← Char.ofNat_toNat c]
  exact hcodes _ (List.mem_range'_1.mpr (by omega))

/-- What all ten digits have, every character of a numeral has. -/
theorem of_mem_ofNat (property : Char → Bool)
    (hcodes : ∀ code ∈ List.range' 48 10, property (Char.ofNat code) = true)
    (hmem : c ∈ Text.ofNat number) : property c = true :=
  of_isDigit property hcodes (Nat.isDigit_of_mem_toDigits (by decide) (by decide) hmem)

theorem isDigit_of_mem_ofNat (hmem : c ∈ Text.ofNat number) : Text.isDigit c = true :=
  of_mem_ofNat Text.isDigit (by decide) hmem

theorem isAsciiDigit_of_mem_ofNat (hmem : c ∈ Text.ofNat number) : Text.isAsciiDigit c = true :=
  of_mem_ofNat Text.isAsciiDigit (by decide) hmem

theorem isBlank_of_mem_ofNat (hmem : c ∈ Text.ofNat number) : Text.isBlank c = false := by
  rw [← Bool.not_eq_true']
  exact of_mem_ofNat (fun c => !Text.isBlank c) (by decide) hmem

theorem not_mem_ofNat (hdigit : Text.isAsciiDigit c = false) : c ∉ Text.ofNat number := by
  intro hmem
  exact Bool.false_ne_true (hdigit.symm.trans (isAsciiDigit_of_mem_ofNat hmem))

theorem ofNat_ne_nil (number : Nat) : Text.ofNat number ≠ [] :=
  List.ne_nil_of_length_pos Nat.length_toDigits_pos

theorem length_ofNat_le_iff (hlimit : 0 < limit) :
    (Text.ofNat number).length ≤ limit ↔ number < powerOfTen limit :=
  Nat.length_toDigits_le_iff (by decide) hlimit

theorem map_plainDigit_ofNat (number : Nat) :
    (Text.ofNat number).map plainDigit = Text.ofNat number := by
  refine (List.map_congr_left fun c hmem => ?_).trans (List.map_id _)
  exact beq_iff_eq.mp (of_mem_ofNat (fun c => plainDigit c == c) (by decide) hmem)

theorem digitsValue_ofNat (number : Nat) : digitsValue (Text.ofNat number) = number := by
  rw [digitsValue]
  simp only [Nat.mul_comm _ 10]
  exact (Nat.ofDigitChars_eq_foldl ..).symm.trans
    (Nat.ofDigitChars_toDigits (by decide) (by decide))

/-! ## Whole numbers -/

theorem readWhole?_ofNat (hnumber : number < powerOfTen digitLimit) :
    readWhole? (Text.ofNat number) = some number := by
  have hlength : ¬digitLimit < (Text.ofNat number).length :=
    Nat.not_lt.mpr ((length_ofNat_le_iff (by decide)).mpr hnumber)
  rw [readWhole?, if_neg hlength, map_plainDigit_ofNat, digitsValue_ofNat]

/-- The digits of a number can be too many to be read back. -/
theorem readWhole?_ofNat_eq_none (hnumber : powerOfTen digitLimit ≤ number) :
    readWhole? (Text.ofNat number) = none := by
  have hlength : digitLimit < (Text.ofNat number).length := by
    rw [← Nat.not_le, length_ofNat_le_iff (by decide)]
    exact Nat.not_lt.mpr hnumber
  rw [readWhole?, if_pos hlength]

/-! ## What reading makes of a numeral -/

/-- No numeral is a word. -/
theorem ofNat_ne_cons (hletter : Text.isAsciiDigit c = false) (word : Text) :
    Text.ofNat number ≠ c :: word := by
  intro hsame
  exact not_mem_ofNat hletter (hsame ▸ List.mem_cons_self : c ∈ Text.ofNat number)

theorem trim_ofNat (number : Nat) : Text.trim (Text.ofNat number) = Text.ofNat number := by
  have hkept : ∀ digits : Text, (∀ c ∈ digits, Text.isBlank c = false) →
      digits.dropWhile Text.isBlank = digits := by
    intro digits hdigits
    cases digits with
    | nil => rfl
    | cons c digits =>
        have hdigit := hdigits c List.mem_cons_self
        exact List.dropWhile_cons_of_neg (Bool.eq_false_iff.mp hdigit)
  rw [Text.trim, Text.trimWhile, hkept _ fun c => isBlank_of_mem_ofNat, Text.trimEndWhile,
    hkept _ fun c hmem => isBlank_of_mem_ofNat (List.mem_reverse.mp hmem), List.reverse_reverse]

theorem dropUnderscores?_of_not_mem {digits : Text} {before : Option Char} (habsent : '_' ∉ digits) :
    dropUnderscores? before digits = some digits := by
  induction digits generalizing before with
  | nil => rfl
  | cons c digits ih =>
      rw [List.mem_cons, not_or] at habsent
      rw [dropUnderscores?, ih habsent.2]
      · rfl
      · exact fun h => habsent.1 h.symm

theorem splitSign_ofNat (number : Nat) :
    splitSign (Text.ofNat number) = (false, Text.ofNat number) := by
  unfold splitSign
  split
  · next hminus => exact absurd hminus (ofNat_ne_cons rfl _)
  · next hplus => exact absurd hplus (ofNat_ne_cons rfl _)
  · rfl

theorem asciiLower_ofNat (number : Nat) : asciiLower (Text.ofNat number) = Text.ofNat number := by
  refine (List.map_congr_left fun c hmem => ?_).trans (List.map_id _)
  exact beq_iff_eq.mp (of_mem_ofNat
    (fun c => (if 'A' ≤ c && c ≤ 'Z' then Char.ofNat (c.toNat + 32) else c) == c) (by decide) hmem)

theorem readNumeral?_ofNat (number : Nat) :
    readNumeral? (Text.ofNat number) = some ⟨Text.ofNat number, [], 0⟩ := by
  have hwhole : (Text.ofNat number).takeWhile Text.isAsciiDigit = Text.ofNat number :=
    List.takeWhile_eq_self_iff.mpr fun c => isAsciiDigit_of_mem_ofNat
  have hrest : (Text.ofNat number).dropWhile Text.isAsciiDigit = [] :=
    List.dropWhile_eq_nil_iff.mpr fun c => isAsciiDigit_of_mem_ofNat
  rw [readNumeral?, hwhole, hrest]
  simp [ofNat_ne_nil, readExponent?]

end PageLoom.Number
