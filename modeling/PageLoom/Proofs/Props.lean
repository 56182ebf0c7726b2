import PageLoom.Proofs.Table
import PageLoom.Proofs.Text.Separation
import PageLoom.Props

/-!
# Props that are given and handed on

Props that are given once more, as when a component is invoked with those of another call, come out
as they are.

A list in the place of a text is written with commas between its elements, and what is written is
read again as the pieces between the commas. Reading a text and writing it down again loses nothing.
A list comes back unless an element has a comma of its own, or what is written is empty although
there is an element.
-/

namespace PageLoom

namespace Props

/-- However it is given, a name has one place, the first, and the value that came last. -/
theorem get?_coerce (given : List (RawValue × GivenValue)) (name : Text) :
    (coerce (some given)).get? name =
      (given.reverse.find? fun pair => pair.1.asText == name).map fun pair => pair.2.coerce := by
  rw [get?, coerce, Table.lookup_ofEntries, Option.getD_some, ← List.map_reverse]
  induction given.reverse with
  | nil => rfl
  | cons pair rest ih =>
      rw [List.map_cons, Table.lookup_cons, ih, List.find?_cons]
      by_cases hname : name = pair.1.asText
      · simp [hname]
      · rw [if_neg hname, beq_eq_false_iff_ne.mpr (Ne.symm hname)]

/-- Props are what they become when they are given again. -/
theorem coerce_of_props {props : Props} (hnodup : (props.map Prod.fst).Nodup) :
    coerce (some (props.map fun (name, value) => (.text name, .prop value))) = props := by
  rw [coerce, Option.getD_some, List.map_map]
  change Table.ofEntries (props.map id) = props
  rw [List.map_id, Table.ofEntries_of_nodup hnodup]

end Props

namespace PropValue

variable {values : List Text} {text : Text}

theorem items_scalar (htext : text ≠ []) : (scalar text).items = Text.splitOn ',' text := by
  obtain ⟨c, rest, rfl⟩ := List.exists_cons_of_ne_nil htext
  rfl

/-- The items of a value make up its text. -/
theorem asText_items (value : PropValue) : (list value.items).asText = value.asText := by
  cases value with
  | scalar text =>
      by_cases htext : text = []
      · rw [htext]
        rfl
      · rw [items_scalar htext]
        exact Text.joinWith_splitOn ',' text
  | list values => rfl

/-- Nothing is written of no element, and of one that is empty. -/
theorem asText_list_eq_nil_iff : (list values).asText = [] ↔ values = [] ∨ values = [[]] := by
  cases values with
  | nil => simp [asText, Text.joinWith]
  | cons value others =>
      cases others with
      | nil => simp [asText, Text.joinWith]
      | cons next others => simp [asText, Text.joinWith]

/-- What commas separate is read back exactly if they stand nowhere else. -/
theorem splitOn_asText_iff (hvalues : values ≠ []) :
    Text.splitOn ',' (list values).asText = values ↔ ∀ value ∈ values, ',' ∉ value := by
  constructor
  · intro hsame value hmem
    rw [← hsame] at hmem
    exact Text.not_mem_of_mem_splitOn hmem
  · intro hapart
    have hseparates : Text.Separates [','] (list values).asText values := {
      exists_piece := hvalues
      joined := rfl
      apart := fun value hmem => by
        rw [List.singleton_infix_iff]
        exact hapart value hmem }
    exact hseparates.splitOn_eq

/-- A list that is handed on as text keeps its elements exactly if none of them holds a comma and it
is not the list of one empty text; and every text is what its items make up. -/
theorem handedOn_items_iff (values : List Text) (text : Text) :
    ((scalar (list values).asText).items = values ↔
      (∀ value ∈ values, ',' ∉ value) ∧ values ≠ [[]]) ∧
    (list (scalar text).items).asText = text := by
  refine ⟨?_, asText_items (scalar text)⟩
  by_cases hnothing : (list values).asText = []
  · rw [hnothing]
    rcases asText_list_eq_nil_iff.mp hnothing with rfl | rfl
    · simp [items]
    · simp [items]
  · obtain ⟨hnil, hempty⟩ := not_or.mp (hnothing ∘ asText_list_eq_nil_iff.mpr)
    rw [items_scalar hnothing, splitOn_asText_iff hnil]
    exact (and_iff_left hempty).symm

/-- Two empty elements come back, one does not. -/
example : (scalar (list [[], []]).asText).items = [[], []] ∧
    (scalar (list [[]]).asText).items = [] := by decide

end PropValue

end PageLoom
