import PageLoom.Disk.Path
import PageLoom.Proofs.Text.Separation

/-!
# Names of a path

The names that a text is cut into make up the text again. Those that are left once the names are
followed are some of them, and all of them only if none is empty and none leads up.
-/

namespace PageLoom

variable {name : Text} {names others : List Text} {text : Text}

/-! ## Cutting at slashes -/

namespace Text

variable {separator : Char}

theorem splitOn_concat (separator : Char) (text : Text) :
    splitOn separator (text ++ [separator]) = splitOn separator text ++ [[]] := by
  induction text with
  | nil => simp [splitOn]
  | cons c text ih =>
      rw [List.cons_append, splitOn, splitOn, ih]
      split
      · rfl
      · cases hparts : splitOn separator text with
        | nil => exact absurd hparts (splitOn_ne_nil separator text)
        | cons part parts => rfl

end Text

theorem textOfNames_cons (name next : Text) (names : List Text) :
    textOfNames (name :: next :: names) = name ++ '/' :: textOfNames (next :: names) := by
  rw [textOfNames, Text.joinWith, ← textOfNames, List.append_assoc]
  rfl

theorem textOfNames_concat (hnames : names ≠ []) (name : Text) :
    textOfNames (names ++ [name]) = textOfNames names ++ '/' :: name := by
  induction names with
  | nil => exact absurd rfl hnames
  | cons first rest ih =>
      cases rest with
      | nil => exact textOfNames_cons first name []
      | cons second rest =>
          rw [List.cons_append, List.cons_append, textOfNames_cons, ← List.cons_append,
            ih (List.cons_ne_nil _ _), textOfNames_cons, List.append_assoc, List.cons_append]

/-- Joining the names that a text is cut into gives that text. -/
theorem textOfNames_splitOn (text : Text) : textOfNames (Text.splitOn '/' text) = text :=
  Text.joinWith_splitOn '/' text

/-! ## Weight -/

/-- The room that some names take with a separator for each. -/
def weight : List Text → Nat
  | [] => 0
  | name :: names => name.length + 1 + weight names

@[simp]
theorem weight_cons (name : Text) (names : List Text) :
    weight (name :: names) = name.length + 1 + weight names := rfl

theorem length_textOfNames (hnames : names ≠ []) :
    (textOfNames names).length + 1 = weight names := by
  induction names with
  | nil => exact absurd rfl hnames
  | cons first rest ih =>
      cases rest with
      | nil => rfl
      | cons second rest =>
          rw [textOfNames_cons, weight_cons, ← ih (List.cons_ne_nil _ _), List.length_append,
            List.length_cons]
          omega

theorem weight_splitOn (text : Text) : weight (Text.splitOn '/' text) = text.length + 1 := by
  rw [← length_textOfNames (Text.splitOn_ne_nil '/' text), textOfNames_splitOn]

/-- Some of the names take less room, unless they are all. -/
theorem eq_or_weight_lt (hsublist : names.Sublist others) :
    names = others ∨ weight names < weight others := by
  induction hsublist with
  | slnil => exact .inl rfl
  | cons name hsublist ih =>
      right
      rw [weight_cons]
      rcases ih with rfl | hlighter <;> omega
  | cons_cons name hsublist ih =>
      rw [weight_cons, weight_cons]
      rcases ih with rfl | hlighter
      · exact .inl rfl
      · exact .inr (by omega)

namespace Path

/-! ## Following names -/

theorem follow_cons (directory : Location) (name : Text) (names : List Text) :
    follow directory (name :: names) =
      follow (if name = upward then directory.dropLast else directory ++ [name]) names := rfl

theorem follow_sublist (directory : Location) (names : List Text) :
    (follow directory names).Sublist (directory ++ names) := by
  induction names generalizing directory with
  | nil =>
      rw [List.append_nil]
      exact List.Sublist.refl _
  | cons name names ih =>
      rw [follow_cons]
      apply (ih _).trans
      split
      · exact (List.dropLast_sublist directory).append (List.sublist_cons_self name names)
      · rw [List.append_assoc]
        exact List.Sublist.refl _

/-- No name that leads up is left. -/
theorem upward_not_mem_follow {directory : Location} (hdirectory : upward ∉ directory)
    (names : List Text) : upward ∉ follow directory names := by
  induction names generalizing directory with
  | nil => exact hdirectory
  | cons name names ih =>
      rw [follow_cons]
      apply ih
      split
      · exact fun hmem => hdirectory (List.mem_of_mem_dropLast hmem)
      · next hname =>
        rw [List.mem_append, not_or, List.mem_singleton]
        exact ⟨hdirectory, Ne.symm hname⟩

theorem follow_of_not_mem {directory : Location} (hnames : upward ∉ names) :
    follow directory names = directory ++ names := by
  induction names generalizing directory with
  | nil => exact (List.append_nil directory).symm
  | cons name names ih =>
      rw [List.mem_cons, not_or] at hnames
      rw [follow_cons, if_neg (Ne.symm hnames.1), ih hnames.2, List.append_assoc]
      rfl

/-- A slash in front of a text changes none of its names. -/
theorem names_ofText_slash (text : Text) : (ofText ('/' :: text)).names = (ofText text).names := by
  rw [ofText, ofText, Text.splitOn, if_pos rfl]
  rfl

end Path

end PageLoom
