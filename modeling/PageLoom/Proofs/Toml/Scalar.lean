import PageLoom.Proofs.Action
import PageLoom.Toml.Scalar

/-!
# What the reading of a scalar leaves

Whatever is read from the head of a text leaves an end of it. Only a number with too many digits
fails in another way than by being malformed, and then these digits stand in the text.
-/

namespace PageLoom.Toml

open Config

variable {α β : Type} {room : Nat} {text rest inside : Text}

/-! ## Causes of errors -/

/-- More digits in a row than a number may have, underscores among them aside. -/
def HasLongNumber (text : Text) : Prop :=
  ∃ run, run <:+: text ∧ (∀ c ∈ run, Text.isAsciiDigit c ∨ c = '_') ∧
    Number.digitLimit < (run.filter Text.isAsciiDigit).length

/-- The room that a character takes if it opens an array or an inline table. -/
def openingRoom (c : Char) : Nat := if c = '[' then 2 else if c = '\x7b' then 3 else 0

def nestingWeight : Text → Nat
  | [] => 0
  | c :: text => openingRoom c + nestingWeight text

/-- Where the cause of an error has to be found in a text, given the room for nesting. -/
def Blames (room : Nat) (text : Text) : TomlError → Prop
  | .malformed | .conflict _ => True
  | .tooManyDigits => HasLongNumber text
  | .tooDeep => room < nestingWeight text

theorem nestingWeight_append (before after : Text) :
    nestingWeight (before ++ after) = nestingWeight before + nestingWeight after := by
  induction before with
  | nil => exact (Nat.zero_add _).symm
  | cons c before ih =>
      rw [List.cons_append, nestingWeight, nestingWeight, ih, Nat.add_assoc]

theorem HasLongNumber.mono (hsuffix : rest <:+ text) (hrest : HasLongNumber rest) :
    HasLongNumber text := by
  obtain ⟨run, hrun, hlong⟩ := hrest
  exact ⟨run, hrun.trans hsuffix.isInfix, hlong⟩

theorem Blames.mono {error : TomlError} (hsuffix : rest <:+ text) (hrest : Blames room rest error) :
    Blames room text error := by
  cases error with
  | malformed | conflict => exact trivial
  | tooManyDigits => exact HasLongNumber.mono hsuffix hrest
  | tooDeep =>
      obtain ⟨before, rfl⟩ := hsuffix
      rw [Blames, nestingWeight_append]
      exact Nat.lt_of_lt_of_le hrest (Nat.le_add_left _ _)

/-- A reading that leaves an end of a text, or fails for a cause in it. -/
def Within (room : Nat) (text : Text) (result : Except TomlError (α × Text)) : Prop :=
  Meets (fun read => read.2 <:+ text) (Blames room text) result

theorem Within.mono {result : Except TomlError (α × Text)} (hresult : Within room rest result)
    (hsuffix : rest <:+ text) : Within room text result :=
  Meets.imp hresult (fun _ hleft => hleft.trans hsuffix) fun _ => Blames.mono hsuffix

theorem Within.bind {first : Except TomlError (α × Text)}
    {next : α × Text → Except TomlError (β × Text)} (hfirst : Within room text first)
    (hnext : ∀ value rest, rest <:+ text → Within room text (next (value, rest))) :
    Within room text (first >>= next) :=
  Meets.bind hfirst fun _ => hnext _ _

/-! ## Strings -/

theorem suffix_of_cutAt? {mark before after : Text}
    (hcut : Text.cutAt? mark text = some (before, after)) : after <:+ text :=
  ⟨before ++ mark, (Text.eq_append_of_cutAt? hcut).symm⟩

theorem suffix_of_afterStart? {start : Text} (hstart : Text.afterStart? start text = some rest) :
    rest <:+ text :=
  ⟨start, (Text.eq_append_of_afterStart? hstart).symm⟩

theorem within_codePoint (width : Nat) (text : Text) :
    Within room text (codePoint width text) := by
  rw [codePoint]
  split
  · exact List.drop_suffix width text
  · exact trivial

theorem skipSpaces_suffix (text : Text) : skipSpaces text <:+ text := List.dropWhile_suffix isSpace

theorem within_escape (severalLines : Bool) (text : Text) :
    Within room text (escape severalLines text) := by
  cases text with
  | nil => exact trivial
  | cons c rest =>
      have hrest := List.suffix_cons c rest
      rw [escape]
      split
      · have hblanks : (if c = '\n' then c :: rest else skipSpaces rest) <:+ c :: rest := by
          split
          · exact List.suffix_rfl
          · exact (skipSpaces_suffix rest).trans hrest
        split
        · exact List.nil_suffix
        · next after hline =>
          rw [hline] at hblanks
          exact ((List.dropWhile_suffix _).trans (List.suffix_cons _ after)).trans hblanks
        · exact trivial
      split
      · exact (within_codePoint 4 rest).mono hrest
      split
      · exact (within_codePoint 8 rest).mono hrest
      split
      · exact hrest
      · exact trivial

theorem within_basicFrom (severalLines : Bool) (steps : Nat) (text : Text) :
    Within room text (basicFrom severalLines steps text) := by
  induction steps generalizing text with
  | zero => exact trivial
  | succ steps ih =>
      cases text with
      | nil => exact trivial
      | cons c text =>
          have htext := List.suffix_cons c text
          unfold basicFrom
          split
          · split
            · exact htext
            split
            · next rest => exact ((List.suffix_cons _ _).trans (List.suffix_cons _ _)).trans htext
            · exact ((ih text).mono htext).bind fun _ _ hrest => hrest
          split
          · refine ((within_escape severalLines text).mono htext).bind fun _ rest hrest => ?_
            exact ((ih rest).mono hrest).bind fun _ _ hrest => hrest
          split
          · exact trivial
          · exact ((ih text).mono htext).bind fun _ _ hrest => hrest

theorem within_basic (text : Text) : Within room text (basic text) := within_basicFrom _ _ _

theorem within_literal (text : Text) : Within room text (literal text) := by
  rw [literal]
  split
  · next inside rest hcut =>
    split
    · exact trivial
    · exact suffix_of_cutAt? hcut
  · exact trivial

theorem withExtraQuotes_suffix (quote : Char) (inside text : Text) :
    (withExtraQuotes quote inside text).2 <:+ text := by
  unfold withExtraQuotes
  split
  · next first second rest =>
    have hrest := List.suffix_cons second rest
    have htext := List.suffix_cons first (second :: rest)
    split
    · split
      · exact hrest.trans htext
      · exact htext
    · exact List.suffix_rfl
  · split
    · exact List.nil_suffix
    · exact List.suffix_rfl
  · exact List.suffix_rfl

theorem dropFirstNewline_suffix (text : Text) : dropFirstNewline text <:+ text := by
  unfold dropFirstNewline
  split
  · exact List.suffix_cons _ _
  · exact List.suffix_rfl

theorem within_basicLines (text : Text) : Within room text (basicLines text) :=
  ((within_basicFrom true _ _).mono (dropFirstNewline_suffix text)).bind fun inside rest hrest =>
    (withExtraQuotes_suffix '"' inside rest).trans hrest

theorem within_literalLines (text : Text) : Within room text (literalLines text) := by
  rw [literalLines]
  split
  · next inside rest hcut =>
    split
    · exact trivial
    · exact ((withExtraQuotes_suffix '\'' inside rest).trans (suffix_of_cutAt? hcut)).trans
        (dropFirstNewline_suffix text)
  · exact trivial

/-! ## Numbers -/

/-- Some digits of a number, with the text that is left after them. -/
def DigitsOf (isDigit : Char → Bool) (text digits rest : Text) : Prop :=
  ∃ run, text = run ++ rest ∧ (∀ c ∈ run, isDigit c ∨ c = '_') ∧ digits = run.filter isDigit

section Digits

variable {isDigit : Char → Bool} {digits : Text} {c : Char}

theorem DigitsOf.none (isDigit : Char → Bool) (text : Text) : DigitsOf isDigit text [] text :=
  ⟨[], rfl, nofun, rfl⟩

theorem DigitsOf.digit (hdigits : DigitsOf isDigit text digits rest) (hdigit : isDigit c) :
    DigitsOf isDigit (c :: text) (c :: digits) rest := by
  obtain ⟨run, rfl, hrun, rfl⟩ := hdigits
  refine ⟨c :: run, rfl, List.forall_mem_cons.mpr ⟨.inl hdigit, hrun⟩, ?_⟩
  rw [List.filter_cons_of_pos hdigit]

theorem DigitsOf.underscore (hdigits : DigitsOf isDigit text digits rest)
    (hunderscore : isDigit '_' = false) : DigitsOf isDigit ('_' :: text) digits rest := by
  obtain ⟨run, rfl, hrun, rfl⟩ := hdigits
  refine ⟨'_' :: run, rfl, List.forall_mem_cons.mpr ⟨.inr rfl, hrun⟩, ?_⟩
  rw [List.filter_cons_of_neg (Bool.eq_false_iff.mp hunderscore)]

theorem DigitsOf.suffix (hdigits : DigitsOf isDigit text digits rest) : rest <:+ text := by
  obtain ⟨run, rfl, -⟩ := hdigits
  exact List.suffix_append run rest

theorem digitsOf_moreDigits (hunderscore : isDigit '_' = false) (text : Text) :
    DigitsOf isDigit text (moreDigits isDigit text).1 (moreDigits isDigit text).2 := by
  fun_induction moreDigits isDigit text with
  | case1 c text hdigit digits rest hmore ih =>
      rw [hmore] at ih
      exact (ih.digit hdigit).underscore hunderscore
  | case2 | case4 | case5 => exact DigitsOf.none isDigit _
  | case3 c text _ hdigit digits rest hmore ih =>
      rw [hmore] at ih
      exact ih.digit hdigit

theorem digitsOf_digits? (hunderscore : isDigit '_' = false)
    (hdigits : digits? isDigit text = some (digits, rest)) :
    DigitsOf isDigit text digits rest := by
  cases text with
  | nil => cases hdigits
  | cons c text =>
      rw [digits?] at hdigits
      split at hdigits
      · next hdigit =>
        cases hdigits
        exact (digitsOf_moreDigits hunderscore text).digit hdigit
      · cases hdigits

end Digits

theorem splitSign_suffix (text : Text) : (Number.splitSign text).2 <:+ text := by
  unfold Number.splitSign
  split
  · exact List.suffix_cons _ _
  · exact List.suffix_cons _ _
  · exact List.suffix_rfl

theorem suffix_of_map_digits? {isDigit : Char → Bool} {make : Text × Text → Datum × Text}
    {datum : Datum} (hmade : (digits? isDigit text).map make = some (datum, rest))
    (hrest : ∀ read, (make read).2 = read.2) (hunderscore : isDigit '_' = false) :
    rest <:+ text := by
  obtain ⟨⟨digits, after⟩, hdigits, hsame⟩ := Option.map_eq_some_iff.mp hmade
  obtain rfl : after = rest := (hrest _).symm.trans (congrArg Prod.snd hsame)
  exact (digitsOf_digits? hunderscore hdigits).suffix

theorem suffix_of_basedNumber? {datum : Datum} (hnumber : basedNumber? text = some (datum, rest)) :
    rest <:+ text := by
  have htwo : ∀ (first second : Char) (after : Text), after <:+ first :: second :: after :=
    fun first second => List.suffix_append [first, second]
  unfold basedNumber? at hnumber
  split at hnumber
  · exact (suffix_of_map_digits? hnumber (fun _ => rfl) (by decide)).trans (htwo _ _ _)
  · exact (suffix_of_map_digits? hnumber (fun _ => rfl) (by decide)).trans (htwo _ _ _)
  · exact (suffix_of_map_digits? hnumber (fun _ => rfl) (by decide)).trans (htwo _ _ _)
  · cases hnumber

theorem digitsOf_wholePart? {whole : Text} (hwhole : wholePart? text = some (whole, rest)) :
    DigitsOf Text.isAsciiDigit text whole rest := by
  unfold wholePart? at hwhole
  split at hwhole
  · cases hwhole
    exact (DigitsOf.none Text.isAsciiDigit _).digit (by decide)
  · exact digitsOf_digits? (by decide) hwhole

theorem fractionPart_suffix (text : Text) : (fractionPart text).2 <:+ text := by
  unfold fractionPart
  split
  · next rest =>
    cases hdigits : digits? Text.isAsciiDigit rest with
    | none => exact List.suffix_rfl
    | some read =>
        exact (digitsOf_digits? (by decide) hdigits).suffix.trans (List.suffix_cons _ _)
  · exact List.suffix_rfl

theorem exponentPart_suffix (text : Text) : (exponentPart text).2 <:+ text := by
  cases text with
  | nil => exact List.suffix_rfl
  | cons mark rest =>
      rw [exponentPart]
      split
      · dsimp only
        split
        · next digits after hdigits =>
          exact ((digitsOf_digits? (by decide) hdigits).suffix.trans (splitSign_suffix rest)).trans
            (List.suffix_cons mark rest)
        · exact List.suffix_rfl
      · exact List.suffix_rfl

/-- A number with too many digits has them in the text. -/
theorem hasLongNumber_of_readWhole? {whole : Text}
    (hdigits : DigitsOf Text.isAsciiDigit text whole rest)
    (htoo : Number.readWhole? whole = none) : HasLongNumber text := by
  obtain ⟨run, rfl, hrun, rfl⟩ := hdigits
  refine ⟨run, (List.prefix_append run rest).isInfix, hrun, ?_⟩
  rw [Number.readWhole?] at htoo
  split at htoo
  · assumption
  · cases htoo

theorem meets_decimalNumber? (text : Text) :
    Meets (fun read? => ∀ read ∈ read?, read.2 <:+ text) (Blames room text)
      (decimalNumber? text) := by
  have hsign := splitSign_suffix text
  unfold decimalNumber?
  cases hsplit : Number.splitSign text with
  | mk negative unsigned =>
      rw [hsplit] at hsign
      dsimp only at hsign ⊢
      cases hwhole : wholePart? unsigned with
      | none => exact nofun
      | some read =>
          obtain ⟨whole, afterWhole⟩ := read
          have hdigits := digitsOf_wholePart? hwhole
          have hrest : (exponentPart (fractionPart afterWhole).2).2 <:+ text :=
            (((exponentPart_suffix _).trans (fractionPart_suffix afterWhole)).trans
              hdigits.suffix).trans hsign
          dsimp only
          split
          · cases hvalue : Number.readWhole? whole with
            | none =>
                exact (hasLongNumber_of_readWhole? hdigits hvalue).mono hsign
            | some value =>
                rintro _ ⟨⟩
                exact hrest
          · rintro _ ⟨⟩
            exact hrest

theorem suffix_of_specialFloat? {datum : Datum}
    (hnumber : specialFloat? text = some (datum, rest)) : rest <:+ text := by
  unfold specialFloat? at hnumber
  dsimp only at hnumber
  split at hnumber
  · next hinfinity =>
    cases hnumber
    exact (suffix_of_afterStart? hinfinity).trans (splitSign_suffix text)
  · next hnan =>
    cases hnumber
    exact (suffix_of_afterStart? hnan).trans (splitSign_suffix text)
  · cases hnumber

/-! ## Dates and times -/

theorem suffix_of_fixedDigits? {width least greatest value : Nat}
    (hdigits : fixedDigits? width least greatest text = some (value, rest)) : rest <:+ text := by
  rw [fixedDigits?] at hdigits
  split at hdigits
  · cases hdigits
    exact List.drop_suffix width text
  · cases hdigits

theorem suffix_of_afterChar? {expected : Char} (hchar : afterChar? expected text = some rest) :
    rest <:+ text := by
  cases text with
  | nil => cases hchar
  | cons c text =>
      rw [afterChar?] at hchar
      split at hchar
      · cases hchar
        exact List.suffix_cons c rest
      · cases hchar

theorem suffix_of_afterTime? (htime : afterTime? text = some rest) : rest <:+ text := by
  simp only [afterTime?, Option.bind_eq_bind, Option.bind_eq_some_iff, Prod.exists] at htime
  obtain ⟨_, _, hhour, _, hcolon, _, _, hminute, _, hcolon', _, afterSecond, hsecond, hlast⟩ :=
    htime
  have hsuffix : afterSecond <:+ text :=
    (((suffix_of_fixedDigits? hsecond).trans (suffix_of_afterChar? hcolon')).trans
      (suffix_of_fixedDigits? hminute)).trans
        ((suffix_of_afterChar? hcolon).trans (suffix_of_fixedDigits? hhour))
  refine List.IsSuffix.trans ?_ hsuffix
  split at hlast
  · next c after =>
    split at hlast
    · cases hlast
      exact (List.dropWhile_suffix _).trans (List.suffix_append ['.', c] _)
    · cases hlast
      exact List.suffix_rfl
  · cases hlast
    exact List.suffix_rfl

theorem suffix_getD {after? : Option Text}
    (hread : ∀ after, after? = some after → after <:+ text) : after?.getD text <:+ text := by
  cases after? with
  | none => exact List.suffix_rfl
  | some after => exact hread after rfl

theorem afterOffset_suffix (text : Text) : afterOffset text <:+ text := by
  cases text with
  | nil => exact List.suffix_rfl
  | cons c rest =>
      have hrest := List.suffix_cons c rest
      rw [afterOffset]
      split
      · exact hrest
      split
      · refine suffix_getD fun after hoffset => ?_
        simp only [Option.bind_eq_bind, Option.bind_eq_some_iff, Prod.exists] at hoffset
        obtain ⟨_, _, hhour, _, hcolon, _, _, hminute, ⟨⟩⟩ := hoffset
        exact (((suffix_of_fixedDigits? hminute).trans (suffix_of_afterChar? hcolon)).trans
          (suffix_of_fixedDigits? hhour)).trans hrest
      · exact List.suffix_rfl

theorem suffix_of_afterDate? {exists? : Bool} (hdate : afterDate? text = some (exists?, rest)) :
    rest <:+ text := by
  simp only [afterDate?, Option.bind_eq_bind, Option.bind_eq_some_iff, Prod.exists] at hdate
  obtain ⟨_, _, hyear, _, hdash, _, _, hmonth, _, hdash', _, afterDay, hday, hlast⟩ := hdate
  have hsuffix : afterDay <:+ text :=
    (((suffix_of_fixedDigits? hday).trans (suffix_of_afterChar? hdash')).trans
      (suffix_of_fixedDigits? hmonth)).trans
        ((suffix_of_afterChar? hdash).trans (suffix_of_fixedDigits? hyear))
  refine List.IsSuffix.trans ?_ hsuffix
  split at hlast
  · next separator after =>
    split at hlast
    · split at hlast
      · next htime =>
        cases hlast
        exact ((afterOffset_suffix _).trans (suffix_of_afterTime? htime)).trans
          (List.suffix_cons separator _)
      · cases hlast
        exact List.suffix_rfl
    · cases hlast
      exact List.suffix_rfl
  · cases hlast
    exact List.suffix_rfl

theorem within_momentOrNumber (text : Text) : Within room text (momentOrNumber text) := by
  rw [momentOrNumber]
  split
  · next hdate => exact suffix_of_afterDate? hdate
  · exact trivial
  split
  · next htime => exact suffix_of_afterTime? htime
  split
  · next hbased => exact suffix_of_basedNumber? hbased
  have hdecimal : Meets _ (Blames room text) _ := meets_decimalNumber? text
  split
  · next herror =>
    rw [herror] at hdecimal
    exact hdecimal
  · next hnumber =>
    rw [hnumber] at hdecimal
    exact hdecimal _ rfl
  split
  · next hspecial => exact suffix_of_specialFloat? hspecial
  · exact trivial

end PageLoom.Toml
