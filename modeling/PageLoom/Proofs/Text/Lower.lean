import Mathlib.Data.List.Basic
import PageLoom.Proofs.Text.Blank
import PageLoom.Text.Lower

/-!
# Texts in small letters

Lower-casing twice is lower-casing once, as no small letter is a capital in its turn: the runs of
the table are compared in pairs, by their ends or by which of every other code they take. Nor does
it bring blanks to the ends of a text.
-/

namespace PageLoom.Text

namespace LowerRun

def up (run : LowerRun) : Nat := run.distance.toNat

def down (run : LowerRun) : Nat := (-run.distance).toNat

/-- No small letter of a run is in the other one. Where they overlap they take turns. -/
def avoids (run other : LowerRun) : Bool :=
  Nat.blt (run.last + run.up) (other.first + run.down) ||
    Nat.blt (other.last + run.down) (run.first + run.up) ||
    (Nat.beq other.step 2 && (Nat.beq run.step 2 || Nat.beq run.first run.last) &&
      Nat.beq ((run.first + run.up + run.down - other.first) % 2) 1)

/-- What small letters of the table must not be: blanks, the two capitals that the table leaves out,
and what is no character. -/
def barred : List LowerRun :=
  [(0, 90), (133, 133), (160, 160), (304, 304), (931, 931), (5760, 5760), (8192, 8202),
    (8232, 8233), (8239, 8239), (8287, 8287), (12288, 12288), (55296, 57343)].map fun range =>
      ⟨range.1, range.2, 1, 0⟩

theorem avoids_lowerRuns :
    (lowerRuns.all fun run => (barred ++ lowerRuns).all run.avoids) = true := by decide +kernel

theorem bounded_lowerRuns : ∀ run ∈ lowerRuns,
    run.down ≤ run.first + run.up ∧ run.last + run.up < 1114112 + run.down := by decide +kernel

variable {run other : LowerRun} {code : Nat}

theorem covers_iff :
    run.covers code = true ↔
      run.first ≤ code ∧ code ≤ run.last ∧ (code - run.first) % run.step = 0 := by
  simp [covers, and_assoc]

/-- The code of the small letter of a capital. -/
def imageCode (run : LowerRun) (code : Nat) : Nat := (Int.ofNat code + run.distance).toNat

theorem imageCode_eq : run.imageCode code = code + run.up - run.down := by
  rw [imageCode, up, down, Int.ofNat_eq_natCast]
  omega

theorem not_covers_of_avoids (havoids : run.avoids other = true)
    (hcovers : run.covers code = true) (hdown : run.down ≤ code + run.up) :
    other.covers (run.imageCode code) = false := by
  rw [Bool.eq_false_iff]
  intro hother
  rw [covers_iff] at hcovers hother
  rw [imageCode_eq] at hother
  simp only [avoids, Bool.or_eq_true, Bool.and_eq_true, Nat.blt_eq, Nat.beq_eq] at havoids
  have hone : run.up = 0 ∨ run.down = 0 := by
    rw [up, down]
    omega
  rcases havoids with (hbelow | habove) | ⟨⟨hstep, hturn⟩, hparity⟩
  · omega
  · omega
  · rw [hstep] at hother
    rcases hturn with hturn | hturn
    · rw [hturn] at hcovers
      omega
    · omega

/-- The small letter of a capital in the table is in no run, and barred in no way. -/
theorem not_covers_imageCode (hrun : run ∈ lowerRuns) (hcovers : run.covers code = true) :
    (∀ other ∈ barred ++ lowerRuns, other.covers (run.imageCode code) = false) ∧
      run.imageCode code < 1114112 := by
  obtain ⟨hdown, hup⟩ := bounded_lowerRuns run hrun
  have hbounds := covers_iff.mp hcovers
  refine ⟨fun other hother => not_covers_of_avoids ?_ hcovers (by omega), ?_⟩
  · exact List.all_eq_true.mp (List.all_eq_true.mp avoids_lowerRuns run hrun) other hother
  · rw [imageCode_eq]
    omega

end LowerRun

open LowerRun

/-! ## Small letters -/

/-- Lower-casing leaves a character as it is, wherever it stands in a text. -/
structure IsSmall (c : Char) : Prop where
  ne_dotted : c ≠ 'İ'
  ne_sigma : c ≠ 'Σ'
  fixed : lowerChar c = c

variable {c : Char} {text before : Text}

theorem lowerChar_ascii : ∀ code < 128,
    lowerChar (lowerChar (Char.ofNat code)) = lowerChar (Char.ofNat code) ∧
      (lowerChar (Char.ofNat code)).toNat < 128 ∧
      (isBlank (Char.ofNat code) = false → isBlank (lowerChar (Char.ofNat code)) = false) := by
  decide

theorem toNat_ofNat {code : Nat} (hvalid : code.isValidChar) : (Char.ofNat code).toNat = code := by
  rw [Char.ofNat, dif_pos hvalid]
  rfl

theorem isSmall_ofNat {code : Nat} (hbelow : code < 1114112)
    (hfree : ∀ other ∈ barred ++ lowerRuns, other.covers code = false) :
    IsSmall (Char.ofNat code) ∧ isBlank (Char.ofNat code) = false := by
  obtain ⟨hbarred, hruns⟩ := List.forall_mem_append.mp hfree
  simp [barred, covers, Nat.mod_one] at hbarred
  have hcode : (Char.ofNat code).toNat = code := toNat_ofNat (by
    rw [Nat.isValidChar]
    omega)
  have hne : ∀ c : Char, c.toNat ≠ code → Char.ofNat code ≠ c := by
    rintro c hdiffers rfl
    exact hdiffers hcode
  refine ⟨⟨hne _ fun hsame => ?_, hne _ fun hsame => ?_, ?_⟩, ?_⟩
  · have hdotted : 'İ'.toNat = 304 := rfl
    omega
  · have hsigma : 'Σ'.toNat = 931 := rfl
    omega
  · have hnone : lowerRuns.find? (LowerRun.covers · code) = none :=
      List.find?_eq_none.mpr fun run hrun => by simp [hruns run hrun]
    have hcapital : ('A' ≤ Char.ofNat code && Char.ofNat code ≤ 'Z') = false := by
      have hz : ¬Char.ofNat code ≤ 'Z' := by
        rw [Char.le_def, UInt32.le_iff_toNat_le]
        have hz : 'Z'.val.toNat = 90 := rfl
        change ¬(Char.ofNat code).toNat ≤ _
        omega
      simp [hz]
    simp only [lowerChar, hcode, hcapital, hnone]
    split <;> rfl
  · rw [Bool.eq_false_iff]
    intro hblank
    have hmem := mem_blankCodes hblank
    simp only [blankCodes, List.mem_cons, List.not_mem_nil, or_false, hcode] at hmem
    omega

/-- The small letter of a character is small, and no blank unless the character is one. -/
theorem isSmall_lowerChar (hdotted : c ≠ 'İ') (hsigma : c ≠ 'Σ') :
    IsSmall (lowerChar c) ∧ (isBlank c = false → isBlank (lowerChar c) = false) := by
  by_cases hascii : c.toNat < 128
  · obtain ⟨hfixed, hstays, hblank⟩ := lowerChar_ascii c.toNat hascii
    rw [Char.ofNat_toNat] at hfixed hstays hblank
    refine ⟨⟨?_, ?_, hfixed⟩, hblank⟩
    · rintro heq
      rw [heq] at hstays
      revert hstays
      decide
    · rintro heq
      rw [heq] at hstays
      revert hstays
      decide
  · cases hfind : lowerRuns.find? (·.covers c.toNat) with
    | none =>
        have hsame : lowerChar c = c := by
          simp only [lowerChar, if_neg hascii, hfind]
        rw [hsame]
        exact ⟨⟨hdotted, hsigma, hsame⟩, id⟩
    | some run =>
        have hlower : lowerChar c = Char.ofNat (run.imageCode c.toNat) := by
          simp only [lowerChar, if_neg hascii, hfind, imageCode]
        obtain ⟨hfree, hbelow⟩ := not_covers_imageCode (List.mem_of_find?_eq_some hfind)
          (List.find?_some (p := (LowerRun.covers · c.toNat)) hfind)
        obtain ⟨hsmall, hblank⟩ := isSmall_ofNat hbelow hfree
        rw [hlower]
        exact ⟨hsmall, fun _ => hblank⟩

/-! ## Whole texts -/

/-- The letters that a character becomes. -/
theorem exists_lowerAfter_cons (before : Text) (c : Char) (text : Text) :
    ∃ letters, lowerAfter before (c :: text) = letters ++ lowerAfter (c :: before) text ∧
      letters ≠ [] ∧ ∀ d ∈ letters, IsSmall d ∧ (isBlank c = false → isBlank d = false) := by
  have hspecial : ∀ d ∈ ['i', '\u0307', 'ς', 'σ'],
      IsSmall d ∧ (isBlank c = false → isBlank d = false) := by
    have hcodes : ∀ d ∈ ['i', '\u0307', 'ς', 'σ'],
        d ≠ 'İ' ∧ d ≠ 'Σ' ∧ lowerChar d = d ∧ isBlank d = false := by
      simp only [List.forall_mem_cons, List.not_mem_nil, false_imp_iff, implies_true, and_true]
      decide +kernel
    intro d hmem
    obtain ⟨hdotted, hsigma, hfixed, hblank⟩ := hcodes d hmem
    exact ⟨⟨hdotted, hsigma, hfixed⟩, fun _ => hblank⟩
  refine ⟨_, rfl, ?_⟩
  split
  · exact ⟨List.cons_ne_nil _ _, fun d hmem => hspecial d (List.mem_append_left ['ς', 'σ'] hmem)⟩
  · next hdotted =>
    split
    · split
      · exact ⟨List.cons_ne_nil _ _, List.forall_mem_singleton.mpr (hspecial 'ς' (by decide))⟩
      · exact ⟨List.cons_ne_nil _ _, List.forall_mem_singleton.mpr (hspecial 'σ' (by decide))⟩
    · next hsigma =>
      exact ⟨List.cons_ne_nil _ _,
        List.forall_mem_singleton.mpr (isSmall_lowerChar hdotted hsigma)⟩

theorem isSmall_of_mem_lowerAfter (hmem : c ∈ lowerAfter before text) : IsSmall c := by
  induction text generalizing before with
  | nil => cases hmem
  | cons first rest ih =>
      obtain ⟨letters, hlower, -, hletters⟩ := exists_lowerAfter_cons before first rest
      rw [hlower] at hmem
      rcases List.mem_append.mp hmem with hmem | hmem
      · exact (hletters c hmem).1
      · exact ih hmem

theorem lowerAfter_of_isSmall (hsmall : ∀ c ∈ text, IsSmall c) : lowerAfter before text = text := by
  induction text generalizing before with
  | nil => rfl
  | cons c rest ih =>
      rw [List.forall_mem_cons] at hsmall
      obtain ⟨⟨hdotted, hsigma, hfixed⟩, hrest⟩ := hsmall
      rw [lowerAfter, if_neg hdotted, if_neg hsigma, hfixed, ih hrest]
      rfl

theorem isSmall_of_mem_lower (hmem : c ∈ lower text) : IsSmall c := isSmall_of_mem_lowerAfter hmem

theorem lower_of_isSmall (hsmall : ∀ c ∈ text, IsSmall c) : lower text = text :=
  lowerAfter_of_isSmall hsmall

theorem lower_lower (text : Text) : lower (lower text) = lower text :=
  lower_of_isSmall fun _ => isSmall_of_mem_lower

theorem lowerAfter_ne_nil (before : Text) (c : Char) (text : Text) :
    lowerAfter before (c :: text) ≠ [] := by
  obtain ⟨letters, hlower, hletters, -⟩ := exists_lowerAfter_cons before c text
  rw [hlower]
  exact List.append_ne_nil_of_left_ne_nil hletters _

theorem isBlank_last_lowerAfter (hlast : ∀ c ∈ text.getLast?, isBlank c = false) :
    ∀ c ∈ (lowerAfter before text).getLast?, isBlank c = false := by
  induction text generalizing before with
  | nil => nofun
  | cons c rest ih =>
      obtain ⟨letters, hlower, -, hletters⟩ := exists_lowerAfter_cons before c rest
      rw [hlower]
      cases rest with
      | nil =>
          intro d hd
          rw [lowerAfter, List.append_nil] at hd
          exact (hletters d (List.mem_of_getLast? hd)).2 (hlast c rfl)
      | cons next rest =>
          rw [List.getLast?_append_of_ne_nil _ (lowerAfter_ne_nil _ next rest)]
          exact ih (by rwa [List.getLast?_cons_cons] at hlast)

/-- Lower-casing leaves a text without blanks at its ends without them. -/
theorem Trimmed.lower (htext : Trimmed text) : Trimmed (lower text) where
  first c hfirst := by
    cases text with
    | nil => cases hfirst
    | cons d rest =>
        obtain ⟨letters, hlower, hsome, hletters⟩ := exists_lowerAfter_cons [] d rest
        obtain ⟨letter, letters, rfl⟩ := List.exists_cons_of_ne_nil hsome
        rw [Text.lower, hlower] at hfirst
        cases hfirst
        exact (hletters c (List.mem_cons_self ..)).2 (htext.first d rfl)
  last := isBlank_last_lowerAfter htext.last

end PageLoom.Text
