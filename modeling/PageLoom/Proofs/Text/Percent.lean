import Mathlib.Tactic.Common
import PageLoom.Text.Percent

/-!
# Reading what is percent encoded

A text that is percent encoded is read back as it was. Reading any text gives that text again if
nothing in it is encoded, and a shorter text if something is.
-/

namespace PageLoom.Utf8

variable {c : Char} {text : Text}

theorem toNat_byte {value : Nat} (hvalue : value < 256) : (byte value).toNat = value := by
  rw [byte, UInt8.toNat_ofNat']
  exact Nat.mod_eq_of_lt hvalue

theorem readFollowing_byte {following low high value seen next : Nat} (hlow : low ≤ next)
    (hhigh : next ≤ high) (hnext : next < 256) (bytes : Bytes) :
    readFollowing (following + 1) low high value seen (byte next :: bytes) =
      readFollowing following 128 191 (value * 64 + (next - 128)) (seen + 1) bytes := by
  rw [readFollowing, toNat_byte hnext, if_pos (by simp [hlow, hhigh])]

/-- The lead byte of a sequence allows for the byte after it. -/
theorem lead?_eq (c : Char) :
    (c.toNat < 128 → lead? c.toNat = some ⟨0, 128, 191, c.toNat⟩) ∧
      (128 ≤ c.toNat → c.toNat < 2048 →
        lead? (192 + c.toNat / 64) = some ⟨1, 128, 191, c.toNat / 64⟩) ∧
      (2048 ≤ c.toNat → c.toNat < 65536 → ∃ low high,
        lead? (224 + c.toNat / 4096) = some ⟨2, low, high, c.toNat / 4096⟩ ∧
          low ≤ 128 + c.toNat / 64 % 64 ∧ 128 + c.toNat / 64 % 64 ≤ high) ∧
      (65536 ≤ c.toNat → ∃ low high,
        lead? (240 + c.toNat / 262144) = some ⟨3, low, high, c.toNat / 262144⟩ ∧
          low ≤ 128 + c.toNat / 4096 % 64 ∧ 128 + c.toNat / 4096 % 64 ≤ high) := by
  have hvalid : c.toNat < 55296 ∨ 57343 < c.toNat ∧ c.toNat < 1114112 := c.valid
  refine ⟨fun _ => ?_, fun _ _ => ?_, fun _ _ => ?_, fun _ => ?_⟩
  · grind [lead?]
  · grind [lead?]
  · by_cases hfirst : c.toNat / 4096 = 0
    · exact ⟨160, 191, by grind [lead?], by omega, by omega⟩
    by_cases hsurrogate : c.toNat / 4096 = 13
    · exact ⟨128, 159, by grind [lead?], by omega, by omega⟩
    · exact ⟨128, 191, by grind [lead?], by omega, by omega⟩
  · by_cases hfirst : c.toNat / 262144 = 0
    · exact ⟨144, 191, by grind [lead?], by omega, by omega⟩
    by_cases hlast : c.toNat / 262144 = 4
    · exact ⟨128, 143, by grind [lead?], by omega, by omega⟩
    · exact ⟨128, 191, by grind [lead?], by omega, by omega⟩

/-- The first character is read off the bytes that encode it, whatever follows them. -/
theorem headChar_encodeChar (c : Char) (rest : Bytes) :
    ∃ first more, encodeChar c = first :: more ∧
      headChar first (more ++ rest) = .ok (c, more.length) := by
  have hvalid : c.toNat < 55296 ∨ 57343 < c.toNat ∧ c.toNat < 1114112 := c.valid
  have hchar : ∀ {code}, code = c.toNat → Char.ofNat code = c := by
    rintro code rfl
    exact Char.ofNat_toNat c
  obtain ⟨hone, htwo, hthree, hfour⟩ := lead?_eq c
  unfold encodeChar
  dsimp only
  split_ifs with h₁ h₂ h₃
  · refine ⟨_, _, rfl, ?_⟩
    rw [headChar, toNat_byte (by omega), hone h₁]
    simp [readFollowing, hchar]
  · refine ⟨_, _, rfl, ?_⟩
    rw [headChar, toNat_byte (by omega), htwo (by omega) h₂]
    simp only [List.cons_append]
    rw [readFollowing_byte (by omega) (by omega) (by omega), readFollowing]
    dsimp only
    rw [hchar (by omega)]
    rfl
  · obtain ⟨low, high, hlead, hlow, hhigh⟩ := hthree (by omega) h₃
    refine ⟨_, _, rfl, ?_⟩
    rw [headChar, toNat_byte (by omega), hlead]
    simp only [List.cons_append]
    rw [readFollowing_byte hlow hhigh (by omega),
      readFollowing_byte (by omega) (by omega) (by omega), readFollowing]
    dsimp only
    rw [hchar (by omega)]
    rfl
  · obtain ⟨low, high, hlead, hlow, hhigh⟩ := hfour (by omega)
    refine ⟨_, _, rfl, ?_⟩
    rw [headChar, toNat_byte (by omega), hlead]
    simp only [List.cons_append]
    rw [readFollowing_byte hlow hhigh (by omega),
      readFollowing_byte (by omega) (by omega) (by omega),
      readFollowing_byte (by omega) (by omega) (by omega), readFollowing]
    dsimp only
    rw [hchar (by omega)]
    rfl

theorem decodeReplacingFrom_skip (covered rest : Bytes) :
    decodeReplacingFrom covered.length (covered ++ rest) = decodeReplacing rest := by
  induction covered with
  | nil => rfl
  | cons first covered ih => exact ih

theorem decodeReplacing_encodeChar (c : Char) (rest : Bytes) :
    decodeReplacing (encodeChar c ++ rest) = c :: decodeReplacing rest := by
  obtain ⟨first, more, hbytes, hhead⟩ := headChar_encodeChar c rest
  rw [hbytes, List.cons_append, decodeReplacing, decodeReplacingFrom, hhead]
  exact congrArg (c :: ·) (decodeReplacingFrom_skip more rest)

/-- Bytes that encode a text are read back, and so is what follows them. -/
theorem decodeReplacing_encode_append (text : Text) (rest : Bytes) :
    decodeReplacing (encode text ++ rest) = text ++ decodeReplacing rest := by
  induction text with
  | nil => rfl
  | cons c text ih =>
      rw [encode, List.flatMap_cons, List.append_assoc, decodeReplacing_encodeChar]
      exact congrArg (c :: ·) ih

theorem decodeReplacing_encode (text : Text) : decodeReplacing (encode text) = text := by
  have hread := decodeReplacing_encode_append text []
  rw [List.append_nil] at hread
  exact hread.trans (List.append_nil text)

theorem encodeChar_ascii (hc : c.toNat < 128) : encodeChar c = [byte c.toNat] := if_pos hc

/-- No more characters are read than there are bytes. -/
theorem length_decodeReplacing_le (bytes : Bytes) :
    (decodeReplacing bytes).length ≤ bytes.length := by
  have hskip : ∀ (skip : Nat) (bytes : Bytes),
      (decodeReplacingFrom skip bytes).length ≤ bytes.length := by
    intro skip bytes
    induction bytes generalizing skip with
    | nil => cases skip <;> exact Nat.le_refl _
    | cons first bytes ih =>
        cases skip with
        | succ skip => exact Nat.le_trans (ih skip) (Nat.le_succ _)
        | zero =>
            rw [decodeReplacingFrom]
            split
            · exact Nat.succ_le_succ (ih _)
            · exact Nat.succ_le_succ (ih _)
  exact hskip 0 bytes

end PageLoom.Utf8

namespace PageLoom.Percent

open Utf8

variable {isSafe : Char → Bool} {c : Char} {text : Text}

/-! ## What is encoded is read back -/

theorem hexValue?_hexDigit {value : Nat} (hvalue : value < 16) :
    Text.hexValue? (hexDigit value) = some value := by
  have hall : ∀ value < 16, Text.hexValue? (hexDigit value) = some value := by decide
  exact hall value hvalue

theorem hexByte?_triple (byte : UInt8) (rest : Text) :
    hexByte? (hexDigit (byte.toNat / 16) :: hexDigit (byte.toNat % 16) :: rest) = some byte := by
  have hbyte : byte.toNat < 256 := byte.toNat_lt
  rw [hexByte?, hexValue?_hexDigit (by omega), hexValue?_hexDigit (by omega)]
  dsimp only
  rw [Nat.mul_comm, Nat.div_add_mod, UInt8.ofNat_toNat]

theorem decodeFrom_triple (bytes : Bytes) (byte : UInt8) (rest : Text) :
    decodeFrom 0 bytes (triple byte ++ rest) = decodeFrom 0 (bytes ++ [byte]) rest := by
  simp only [triple, List.cons_append, List.nil_append]
  rw [decodeFrom, if_neg (by decide), if_pos rfl, hexByte?_triple]
  rfl

theorem decodeFrom_triples (bytes more : Bytes) (rest : Text) :
    decodeFrom 0 bytes (more.flatMap triple ++ rest) = decodeFrom 0 (bytes ++ more) rest := by
  induction more generalizing bytes with
  | nil => rw [List.append_nil]; rfl
  | cons byte more ih =>
      rw [List.flatMap_cons, List.append_assoc, decodeFrom_triple, ih, List.append_assoc]
      rfl

theorem decodeFrom_plain (hascii : c.toNat < 128) (hpercent : c ≠ '%') (bytes : Bytes)
    (rest : Text) : decodeFrom 0 bytes (c :: rest) = decodeFrom 0 (bytes ++ encodeChar c) rest := by
  rw [decodeFrom, if_neg (by omega), if_neg hpercent, encodeChar_ascii hascii]

/-- A text is read back if its safe characters are such that stand for themselves. -/
theorem decode_encode (hsafe : ∀ c, isSafe c = true → c.toNat < 128 ∧ c ≠ '%') (text : Text) :
    decode (encode isSafe text) = text := by
  have hbytes : ∀ bytes, decodeFrom 0 bytes (encode isSafe text) =
      decodeReplacing (bytes ++ Utf8.encode text) := by
    induction text with
    | nil => exact fun bytes => by rw [Utf8.encode, List.flatMap_nil, List.append_nil]; rfl
    | cons c text ih =>
        intro bytes
        rw [encode, List.flatMap_cons, ← encode, Utf8.encode, List.flatMap_cons, ← Utf8.encode,
          ← List.append_assoc, ← ih]
        split
        · next hc => exact decodeFrom_plain (hsafe c hc).1 (hsafe c hc).2 bytes _
        · exact decodeFrom_triples bytes _ _
  rw [decode, hbytes, List.nil_append, decodeReplacing_encode]

/-- A character that is not safe, not a digit and not the sign of a triple does not come up. -/
theorem not_mem_encode (hencoded : isSafe c = false) (hpercent : c ≠ '%')
    (hdigit : ∀ value < 16, hexDigit value ≠ c) (text : Text) : c ∉ encode isSafe text := by
  intro hmem
  obtain ⟨other, -, hmem⟩ := List.mem_flatMap.mp hmem
  split at hmem
  · next hsafe =>
    cases List.mem_singleton.mp hmem
    rw [hencoded] at hsafe
    cases hsafe
  · obtain ⟨byte, -, hmem⟩ := List.mem_flatMap.mp hmem
    have hbyte : byte.toNat < 256 := byte.toNat_lt
    simp only [triple, List.mem_cons, List.not_mem_nil, or_false] at hmem
    rcases hmem with hsame | hsame | hsame
    · exact hpercent hsame
    · exact hdigit _ (by omega) hsame.symm
    · exact hdigit _ (by omega) hsame.symm

/-! ## Text that is not encoded -/

theorem length_decodeFrom_le (skip : Nat) (bytes : Bytes) (text : Text) :
    (decodeFrom skip bytes text).length ≤ bytes.length + (text.length - skip) := by
  induction text generalizing skip bytes with
  | nil =>
      have hbytes := length_decodeReplacing_le bytes
      cases skip <;> simpa [decodeFrom] using hbytes
  | cons c text ih =>
      cases skip with
      | succ skip =>
          rw [decodeFrom, List.length_cons, Nat.succ_sub_succ]
          exact ih skip bytes
      | zero =>
          have hbytes := length_decodeReplacing_le bytes
          have hrest := ih 0 []
          have htriple := fun byte => ih 2 (bytes ++ [byte])
          have hplain := ih 0 (bytes ++ [byte c.toNat])
          simp only [List.length_append, List.length_cons, List.length_nil] at hrest htriple hplain
          rw [decodeFrom, List.length_cons]
          split
          · rw [List.length_append, List.length_cons]
            omega
          split
          · exact Nat.le_trans (htriple _) (by omega)
          · exact Nat.le_trans hplain (by omega)

theorem two_le_length_of_hexByte? {byte : UInt8} (hbyte : hexByte? text = some byte) :
    2 ≤ text.length := by
  match text with
  | [] => cases hbyte
  | [_] => cases hbyte
  | _ :: _ :: _ => exact Nat.le_add_left 2 _

theorem length_encode_ascii {before : Text} (hbefore : ∀ c ∈ before, c.toNat < 128) :
    (Utf8.encode before).length = before.length := by
  induction before with
  | nil => rfl
  | cons c before ih =>
      have hrest := ih fun other hmem => hbefore other (List.mem_cons_of_mem _ hmem)
      rw [Utf8.encode, List.flatMap_cons, encodeChar_ascii (hbefore c (List.mem_cons_self ..)),
        ← Utf8.encode, List.length_append, hrest, Nat.add_comm]
      rfl

/-- After a stretch of ASCII characters that stand for themselves. -/
theorem decodeFrom_or_length (before text : Text) (hbefore : ∀ c ∈ before, c.toNat < 128) :
    decodeFrom 0 (Utf8.encode before) text = before ++ text ∨
      (decodeFrom 0 (Utf8.encode before) text).length + 2 ≤ before.length + text.length := by
  induction text generalizing before with
  | nil =>
      left
      rw [decodeFrom, decodeReplacing_encode, List.append_nil]
  | cons c text ih =>
      rw [decodeFrom]
      split
      · have hrest := ih [] (by simp)
        rw [Utf8.encode, List.flatMap_nil, List.nil_append, List.length_nil, Nat.zero_add] at hrest
        rw [decodeReplacing_encode, List.length_append, List.length_cons, List.length_cons]
        rcases hrest with hsame | hshorter
        · exact .inl (by rw [hsame])
        · exact .inr (by omega)
      · next hascii =>
        have hascii : c.toNat < 128 := Nat.lt_of_not_le hascii
        split
        · next byte hbyte =>
          right
          have htriple : hexByte? text = some byte := by
            split at hbyte
            · exact hbyte
            · cases hbyte
          have hlength := two_le_length_of_hexByte? htriple
          have hrest := length_decodeFrom_le 2 (Utf8.encode before ++ [byte]) text
          rw [List.length_append, length_encode_ascii hbefore, List.length_singleton] at hrest
          rw [List.length_cons]
          omega
        · have hencoded : Utf8.encode before ++ [byte c.toNat] = Utf8.encode (before ++ [c]) := by
            rw [Utf8.encode, Utf8.encode, List.flatMap_append, List.flatMap_singleton,
              encodeChar_ascii hascii]
          have hrest := ih (before ++ [c]) fun other hmem => by
            rcases List.mem_append.mp hmem with hmem | hmem
            · exact hbefore other hmem
            · cases List.mem_singleton.mp hmem
              exact hascii
          rw [hencoded, List.length_cons]
          rw [List.append_assoc, List.length_append, List.length_singleton] at hrest
          rcases hrest with hsame | hshorter
          · exact .inl hsame
          · exact .inr (by omega)

/-- Reading a text gives that text again, or a text that is shorter by two characters. -/
theorem decode_eq_or_length (text : Text) :
    decode text = text ∨ (decode text).length + 2 ≤ text.length := by
  have hread := decodeFrom_or_length [] text (by simp)
  rwa [List.length_nil, Nat.zero_add] at hread

theorem decodeFrom_encodeChar_append (c : Char) (skip : Nat) (bytes : Bytes) (text : Text) :
    decodeFrom skip (encodeChar c ++ bytes) text = c :: decodeFrom skip bytes text := by
  induction text generalizing skip bytes with
  | nil => cases skip <;> exact decodeReplacing_encodeChar c bytes
  | cons next text ih =>
      cases skip with
      | succ skip => exact ih skip bytes
      | zero =>
          rw [decodeFrom, decodeFrom, decodeReplacing_encodeChar]
          split
          · rfl
          split
          · rw [List.append_assoc, ih]
          · rw [List.append_assoc, ih]

/-- A slash stands for itself. -/
theorem decode_slash (text : Text) : decode ('/' :: text) = '/' :: decode text :=
  calc decode ('/' :: text)
      = decodeFrom 0 ([] ++ encodeChar '/') text := decodeFrom_plain (by decide) (by decide) [] text
    _ = decodeFrom 0 (encodeChar '/' ++ []) text := rfl
    _ = '/' :: decode text := decodeFrom_encodeChar_append '/' 0 [] text

end PageLoom.Percent
