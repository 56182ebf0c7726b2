import Mathlib.Data.List.TakeWhile
import PageLoom.Markup.Attribute
import PageLoom.Markup.Tag
import PageLoom.Proofs.Table
import PageLoom.Proofs.Text.Blank
import PageLoom.Proofs.Text.Scan

/-!
# Attributes as they are written

Attributes that are written one after the other are read back one by one, whatever stands in their
values. Of those with one name, the first determines the place and the last the value.
-/

namespace PageLoom.Markup

open Scan

variable {name text after : Text} {c : Char}

/-- What can be the name of an attribute. -/
def isAttributeName : Text → Bool
  | [] => false
  | c :: rest => Text.isIdentifierStart c && rest.all isAttributePart

theorem attributeName_spec (hname : isAttributeName name = true) :
    ∃ c rest, name = c :: rest ∧ Text.isIdentifierStart c = true ∧
      ∀ other ∈ rest, isAttributePart other = true := by
  cases name with
  | nil => cases hname
  | cons c rest =>
      rw [isAttributeName, Bool.and_eq_true, List.all_eq_true] at hname
      exact ⟨c, rest, rfl, hname.1, hname.2⟩

/-- An attribute with the blanks before it and around its equals sign. -/
structure WrittenAttribute where
  before : Text
  name : Text
  left : Text
  right : Text
  value : Text

namespace WrittenAttribute

def print (entry : WrittenAttribute) : Text :=
  entry.before ++ entry.name ++ entry.left ++ '=' :: entry.right ++
    '"' :: entry.value ++ ['"']

/-- Something has to stand before a name, and the value ends with the next quote. -/
structure WellFormed (entry : WrittenAttribute) : Prop where
  apart : entry.before ≠ []
  before : ∀ c ∈ entry.before, Text.isBlank c = true
  name : isAttributeName entry.name = true
  left : ∀ c ∈ entry.left, Text.isBlank c = true
  right : ∀ c ∈ entry.right, Text.isBlank c = true
  unquoted : '"' ∉ entry.value

end WrittenAttribute

variable {entry : WrittenAttribute} {entries : List WrittenAttribute}

theorem isAttributePart_of_isBlank (hblank : Text.isBlank c = true) : isAttributePart c = false :=
  Text.of_isBlank (by decide +kernel) hblank

theorem isIdentifierStart_of_isBlank (hblank : Text.isBlank c = true) :
    Text.isIdentifierStart c = false := Text.of_isBlank (by decide) hblank

theorem attributePattern_of_isBlank (hblank : Text.isBlank c = true) (previous : Option Char)
    (text : Text) : attributePattern previous (c :: text) = none := by
  simp [attributePattern, isIdentifierStart_of_isBlank hblank]

theorem takeWhile_isBlank (hblanks : ∀ c ∈ text, Text.isBlank c = true)
    (hother : Text.isBlank c = false) :
    (text ++ c :: after).takeWhile Text.isBlank = text ∧
      (text ++ c :: after).dropWhile Text.isBlank = c :: after := by
  constructor
  · rw [List.takeWhile_append_of_pos hblanks, List.takeWhile_cons_of_neg (by simp [hother]),
      List.append_nil]
  · rw [List.dropWhile_append_of_pos hblanks, List.dropWhile_cons_of_neg (by simp [hother])]

theorem attributeValue?_print (hentry : entry.WellFormed) (after : Text) :
    attributeValue? (entry.left ++ '=' :: (entry.right ++ '"' ::
      (entry.value ++ '"' :: after))) = some (entry.value,
        entry.left.length + entry.right.length + entry.value.length + 3) := by
  have hequals : Text.isBlank '=' = false := by decide
  have hquote : Text.isBlank '"' = false := by decide
  have hcut : Text.cutAt? ['"'] (entry.value ++ '"' :: after) = some (entry.value, after) :=
    Text.cutAt?_append hentry.unquoted
  simp only [attributeValue?, takeWhile_isBlank hentry.left hequals,
    takeWhile_isBlank hentry.right hquote, hcut]

/-- What follows the name of an attribute does not continue it. -/
theorem takeWhile_isAttributePart {rest : Text}
    (hrest : ∀ other ∈ rest, isAttributePart other = true)
    (hblanks : ∀ c ∈ text, Text.isBlank c = true) :
    (rest ++ (text ++ '=' :: after)).takeWhile isAttributePart = rest := by
  rw [List.takeWhile_append_of_pos hrest]
  cases text with
  | nil => simp [show isAttributePart '=' = false by decide]
  | cons blank text =>
      have hblank := isAttributePart_of_isBlank (hblanks blank List.mem_cons_self)
      simp [hblank]

/-- An attribute is read from its name on, if that does not continue a word. -/
theorem attributePattern_print (hentry : entry.WellFormed) {previous : Option Char}
    (hprevious : previous.any isAttributePart = false) (after : Text) :
    ∃ c rest, entry.name ++ entry.left ++ '=' :: entry.right ++
        '"' :: entry.value ++ ['"'] = c :: rest ∧
      attributePattern previous (c :: (rest ++ after)) =
        some ((entry.name, entry.value), rest.length) := by
  obtain ⟨c, rest, hname, hstart, hrest⟩ := attributeName_spec hentry.name
  refine ⟨c, rest ++ entry.left ++ '=' :: entry.right ++ '"' :: entry.value ++ ['"'],
    by simp [hname], ?_⟩
  have hbegins : (previous.any isAttributePart || !Text.isIdentifierStart c) = false := by
    rw [hprevious, Bool.false_or, Bool.not_eq_false', hstart]
  have htext : rest ++ entry.left ++ '=' :: entry.right ++ '"' :: entry.value ++
      ['"'] ++ after = rest ++ (entry.left ++ '=' :: (entry.right ++ '"' ::
        (entry.value ++ '"' :: after))) := by
    simp
  rw [htext]
  simp only [attributePattern, hbegins, takeWhile_isAttributePart hrest hentry.left,
    List.drop_left, attributeValue?_print hentry]
  simp [hname]
  omega

theorem values_blanks (hblanks : ∀ c ∈ text, Text.isBlank c = true) (previous : Option Char)
    (after : Text) :
    values (piecesFrom attributePattern 0 previous (text ++ after)) =
      values (piecesFrom attributePattern 0 (text.getLast?.or previous) after) := by
  induction text generalizing previous with
  | nil => rfl
  | cons c text ih =>
      rw [List.forall_mem_cons] at hblanks
      rw [List.cons_append, piecesFrom, attributePattern_of_isBlank hblanks.1, getLast?_cons_or,
        ← ih hblanks.2]
      rfl

/-- Written attributes are found one after the other. -/
theorem values_print (hentries : ∀ entry ∈ entries, entry.WellFormed) (previous : Option Char) :
    values (piecesFrom attributePattern 0 previous (entries.flatMap WrittenAttribute.print)) =
      entries.map fun entry => (entry.name, entry.value) := by
  induction entries generalizing previous with
  | nil => rfl
  | cons entry entries ih =>
      rw [List.forall_mem_cons] at hentries
      obtain ⟨hentry, hentries⟩ := hentries
      obtain ⟨blank, hblank⟩ : ∃ blank, entry.before.getLast? = some blank :=
        ⟨_, List.getLast?_eq_some_getLast hentry.apart⟩
      have hprevious : ((some blank).or previous).any isAttributePart = false :=
        isAttributePart_of_isBlank (hentry.before blank (List.mem_of_getLast? hblank))
      obtain ⟨c, rest, htext, hfound⟩ := attributePattern_print hentry hprevious
        (entries.flatMap WrittenAttribute.print)
      have hprint : entry.print = entry.before ++ c :: rest := by
        rw [← htext]
        simp [WrittenAttribute.print]
      rw [List.flatMap_cons, hprint, List.append_assoc, values_blanks hentry.before, hblank,
        List.cons_append, piecesFrom, hfound]
      have hrest : values (piecesFrom attributePattern rest.length (some c)
          (rest ++ entries.flatMap WrittenAttribute.print)) =
            entries.map fun entry => (entry.name, entry.value) := by
        rw [piecesFrom_append, ih hentries]
      exact congrArg ((entry.name, entry.value) :: ·) hrest

theorem parseAttributes_print (hentries : ∀ entry ∈ entries, entry.WellFormed) :
    parseAttributes (entries.flatMap WrittenAttribute.print) =
      Table.ofEntries (entries.map fun entry => (entry.name, .scalar entry.value)) := by
  rw [parseAttributes, pieces, values_print hentries, List.map_map]
  rfl

theorem parseAttributes_blanks (hblanks : ∀ c ∈ text, Text.isBlank c = true) :
    parseAttributes text = [] := by
  have hvalues := values_blanks hblanks none []
  rw [List.append_nil] at hvalues
  rw [parseAttributes, pieces, hvalues]
  rfl

end PageLoom.Markup
