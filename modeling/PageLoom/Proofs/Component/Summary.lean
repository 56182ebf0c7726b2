import Mathlib
import PageLoom.Proofs.Component.Tally
import PageLoom.Proofs.Table

/-!
# Summaries of the failure record

The record counts by component and file, and its rows mix components and files in the order in which
the pairs came up. The summary is nevertheless what one gets from the single records: one row for
each component, in the order of their first records, with the file of the first record and the
number of all records. Recording once more is the same as adding a count of one to the rows.
-/

namespace PageLoom.Component

namespace Failures

/-! ## Adding to rows -/

section Rows

variable {rows : List FailureRow} {entry : FailureCount} {component : Text}

/-- The components that have a row. -/
def componentsOf (rows : List FailureRow) : List Text := rows.map (·.component)

theorem componentsOf_cons (row : FailureRow) (rows : List FailureRow) :
    componentsOf (row :: rows) = row.component :: componentsOf rows := rfl

/-- A component without a row gets one at the end. -/
theorem componentsOf_addToRows (rows : List FailureRow) (entry : FailureCount) :
    componentsOf (addToRows rows entry) =
      if entry.component ∈ componentsOf rows then componentsOf rows
      else componentsOf rows ++ [entry.component] := by
  induction rows with
  | nil => rfl
  | cons row rest ih =>
      rw [addToRows]
      by_cases hsame : row.component = entry.component
      · simp [componentsOf_cons, hsame]
      · rw [if_neg hsame, componentsOf_cons, ih, componentsOf_cons]
        simp only [List.mem_cons, Ne.symm hsame, false_or]
        split <;> rfl

theorem mem_componentsOf_addToRows (entry : FailureCount)
    (hrow : component ∈ componentsOf rows) :
    component ∈ componentsOf (addToRows rows entry) := by
  rw [componentsOf_addToRows]
  split
  · exact hrow
  · exact List.mem_append_left _ hrow

theorem mem_componentsOf_self (rows : List FailureRow) (entry : FailureCount) :
    entry.component ∈ componentsOf (addToRows rows entry) := by
  rw [componentsOf_addToRows]
  split
  · assumption
  · exact List.mem_append_right _ (List.mem_singleton_self _)

/-- Two counts of one component are added as one. -/
theorem addToRows_addToRows (rows : List FailureRow) (entry : FailureCount) (file : Text)
    (count : Nat) :
    addToRows (addToRows rows entry) ⟨entry.component, file, count⟩ =
      addToRows rows { entry with count := entry.count + count } := by
  induction rows with
  | nil => exact if_pos rfl
  | cons row rest ih =>
      by_cases hsame : row.component = entry.component
      · simp [addToRows, hsame, Nat.add_assoc]
      · simp [addToRows, hsame, ih]

/-- Once a component has a row, it makes no difference when its row is raised. -/
theorem addToRows_comm (hrow : entry.component ∈ componentsOf rows) (other : FailureCount) :
    addToRows (addToRows rows entry) other = addToRows (addToRows rows other) entry := by
  induction rows with
  | nil => cases hrow
  | cons row rest ih =>
      by_cases hentry : row.component = entry.component
      · by_cases hother : entry.component = other.component
        · simp [addToRows, hentry, hother, Nat.add_right_comm]
        · simp [addToRows, hentry, hother]
      · have hrest : entry.component ∈ componentsOf rest :=
          (List.mem_cons.mp hrow).resolve_left (Ne.symm hentry)
        by_cases hother : row.component = other.component
        · rw [hother] at hentry
          simp [addToRows, hentry, hother]
        · simp [addToRows, hentry, hother, ih hrest]

theorem foldl_addToRows_comm (hrow : entry.component ∈ componentsOf rows) (failures : Failures) :
    failures.foldl addToRows (addToRows rows entry) =
      addToRows (failures.foldl addToRows rows) entry := by
  induction failures generalizing rows with
  | nil => rfl
  | cons other rest ih =>
      rw [List.foldl_cons, List.foldl_cons, addToRows_comm hrow,
        ih (mem_componentsOf_addToRows other hrow)]

/-- Recording once more adds one to the rows, wherever the record counts it. -/
theorem summary_record (failures : Failures) (component file : Text) :
    (failures.record component file).summary =
      addToRows failures.summary ⟨component, file, 1⟩ := by
  have hrows : ∀ rows, (failures.record component file).foldl addToRows rows =
      addToRows (failures.foldl addToRows rows) ⟨component, file, 1⟩ := by
    induction failures with
    | nil => exact fun rows => rfl
    | cons entry rest ih =>
        intro rows
        rw [record]
        split
        · next hsame =>
          obtain ⟨rfl, rfl⟩ := hsame
          rw [List.foldl_cons, List.foldl_cons, ← addToRows_addToRows rows entry entry.file 1]
          exact @foldl_addToRows_comm _ ⟨entry.component, entry.file, 1⟩
            (mem_componentsOf_self rows entry) rest
        · rw [List.foldl_cons, List.foldl_cons, ih]
  exact hrows []

/-- Whatever row it goes to, a count adds to the total. -/
theorem sum_addToRows (rows : List FailureRow) (entry : FailureCount) :
    ((addToRows rows entry).map (·.occurrences)).sum =
      (rows.map (·.occurrences)).sum + entry.count := by
  induction rows with
  | nil => simp [addToRows]
  | cons row rest ih =>
      rw [addToRows]
      by_cases hsame : row.component = entry.component
      · simp only [if_pos hsame, List.map_cons, List.sum_cons]
        omega
      · simp only [if_neg hsame, List.map_cons, List.sum_cons, ih]
        omega

section Named

variable {names : List Text} {row : Text → FailureRow}

theorem addToRows_map_of_not_mem (hrow : ∀ name, (row name).component = name)
    (hnew : entry.component ∉ names) :
    addToRows (names.map row) entry =
      names.map row ++ [⟨entry.component, entry.file, entry.count⟩] := by
  induction names with
  | nil => rfl
  | cons name rest ih =>
      rw [List.mem_cons, not_or] at hnew
      have hother : (row name).component ≠ entry.component := (hrow name).trans_ne (Ne.symm hnew.1)
      simp [addToRows, hother, ih hnew.2]

theorem addToRows_map_of_mem (hrow : ∀ name, (row name).component = name) (hnodup : names.Nodup)
    (hmem : entry.component ∈ names) :
    addToRows (names.map row) entry = names.map fun name =>
      if name = entry.component then
        { row name with occurrences := (row name).occurrences + entry.count }
      else row name := by
  induction names with
  | nil => cases hmem
  | cons name rest ih =>
      rw [List.nodup_cons] at hnodup
      by_cases hsame : name = entry.component
      · -- the row of this name is the one that is raised, and it has no other
        have hrest : ∀ other ∈ rest, other ≠ entry.component := fun other hother heq =>
          hnodup.1 (hsame ▸ heq ▸ hother)
        simp only [List.map_cons, addToRows, hrow, if_pos hsame]
        exact congrArg _ (List.map_congr_left fun other hother => (if_neg (hrest other hother)).symm)
      · have hmem : entry.component ∈ rest := (List.mem_cons.mp hmem).resolve_left (Ne.symm hsame)
        simp [addToRows, hrow, hsame, ih hnodup.2 hmem]

end Named

end Rows

/-! ## The rows of single records -/

section Records

variable {records : List (Text × Text)}

/-- The row of a component, given the component and the file of each record. -/
def rowOf (records : List (Text × Text)) (component : Text) : FailureRow where
  component := component
  firstFile := (records.lookup component).getD []
  occurrences := (records.map Prod.fst).count component

/-- One row for each component, in the order of their first records. -/
def rowsOf (records : List (Text × Text)) : List FailureRow :=
  (records.map Prod.fst).eraseDups.map (rowOf records)

theorem rowOf_concat_of_ne {component other : Text} (hother : other ≠ component) (file : Text) :
    rowOf (records ++ [(component, file)]) other = rowOf records other := by
  have hlookup : (records ++ [(component, file)]).lookup other = records.lookup other := by
    rw [List.lookup_append, Table.lookup_cons, if_neg hother]
    exact Option.or_none
  simp [rowOf, hlookup, Ne.symm hother]

theorem rowOf_concat_of_mem {component : Text} (hmem : component ∈ records.map Prod.fst)
    (file : Text) :
    rowOf (records ++ [(component, file)]) component =
      { rowOf records component with
        occurrences := (rowOf records component).occurrences + 1 } := by
  obtain ⟨first, hfirst⟩ := Option.isSome_iff_exists.mp (Table.lookup_isSome_iff.mpr hmem)
  simp [rowOf, List.lookup_append, hfirst]

theorem rowOf_concat_of_not_mem {component : Text} (hnew : component ∉ records.map Prod.fst)
    (file : Text) : rowOf (records ++ [(component, file)]) component = ⟨component, file, 1⟩ := by
  have hlookup : records.lookup component = none :=
    Option.not_isSome_iff_eq_none.mp (mt Table.lookup_isSome_iff.mp hnew)
  have hcount : (records.map Prod.fst).count component = 0 := List.count_eq_zero.mpr hnew
  simp [rowOf, List.lookup_append, hlookup, hcount]

/-- A record more raises the row of its component, or begins one. -/
theorem rowsOf_concat (records : List (Text × Text)) (component file : Text) :
    rowsOf (records ++ [(component, file)]) =
      addToRows (rowsOf records) ⟨component, file, 1⟩ := by
  rw [rowsOf, List.map_append, List.map_singleton, eraseDups_concat, rowsOf]
  by_cases hmem : component ∈ records.map Prod.fst
  · rw [if_pos hmem, addToRows_map_of_mem (fun _ => rfl) (nodup_eraseDups _)
      (List.mem_eraseDups.mpr hmem)]
    refine List.map_congr_left fun other _ => ?_
    by_cases hsame : other = component
    · subst hsame
      rw [rowOf_concat_of_mem hmem, if_pos rfl]
    · rw [rowOf_concat_of_ne hsame, if_neg hsame]
  · rw [if_neg hmem, List.map_append, List.map_singleton, rowOf_concat_of_not_mem hmem,
      addToRows_map_of_not_mem (fun _ => rfl) (mt List.mem_eraseDups.mp hmem)]
    refine congrArg (· ++ _) (List.map_congr_left fun other hother => ?_)
    rw [List.mem_eraseDups] at hother
    exact rowOf_concat_of_ne (ne_of_mem_of_not_mem hother hmem) file

/-- The records of a component, told apart by their files, are all its records. -/
theorem sum_count (records : List (Text × Text)) (component : Text) (files : Finset Text)
    (hfiles : ∀ record ∈ records, record.2 ∈ files) :
    ∑ file ∈ files, records.count (component, file) =
      (records.map Prod.fst).count component := by
  induction records with
  | nil => simp
  | cons record rest ih =>
      obtain ⟨other, file⟩ := record
      rw [List.forall_mem_cons] at hfiles
      rw [List.map_cons, List.count_cons, ← ih hfiles.2]
      simp only [List.count_cons, Finset.sum_add_distrib, beq_iff_eq, Prod.mk.injEq]
      by_cases hsame : other = component
      · simp [hsame, hfiles.1]
      · simp [hsame]

end Records

/-! ## Any history of the record -/

/-- What is done to a failure record. -/
inductive Note where
  | record (component file : Text)
  | reset

def afterNote (failures : Failures) : Note → Failures
  | .record component file => failures.record component file
  | .reset => []

def afterNotes (failures : Failures) (notes : List Note) : Failures :=
  notes.foldl afterNote failures

/-- The component and the file of every record since the last reset. -/
def sinceReset (notes : List Note) : List (Text × Text) :=
  notes.foldl (fun records note =>
    match note with
    | .record component file => records ++ [(component, file)]
    | .reset => []) []

section History

theorem afterNotes_concat (failures : Failures) (notes : List Note) (note : Note) :
    afterNotes failures (notes ++ [note]) = afterNote (afterNotes failures notes) note :=
  List.foldl_concat ..

theorem sinceReset_record (notes : List Note) (component file : Text) :
    sinceReset (notes ++ [.record component file]) = sinceReset notes ++ [(component, file)] :=
  List.foldl_concat ..

theorem sinceReset_reset (notes : List Note) : sinceReset (notes ++ [.reset]) = [] :=
  List.foldl_concat ..

theorem summary_afterNotes (notes : List Note) :
    (afterNotes [] notes).summary = rowsOf (sinceReset notes) := by
  induction notes using List.reverseRecOn with
  | nil => rfl
  | append_singleton notes note ih =>
      rw [afterNotes_concat]
      cases note with
      | record component file =>
          rw [afterNote, summary_record, ih, sinceReset_record, rowsOf_concat]
      | reset => rw [sinceReset_reset]; rfl

theorem count_afterNotes (notes : List Note) (component file : Text) :
    (afterNotes [] notes).count component file = (sinceReset notes).count (component, file) := by
  induction notes using List.reverseRecOn with
  | nil => rfl
  | append_singleton notes note ih =>
      rw [afterNotes_concat]
      cases note with
      | record other otherFile =>
          rw [afterNote, count_record, ih, sinceReset_record, List.count_append,
            List.count_singleton]
          simp
      | reset => rw [sinceReset_reset]; rfl

theorem sum_summary_afterNotes (notes : List Note) :
    ((afterNotes [] notes).summary.map (·.occurrences)).sum = (sinceReset notes).length := by
  induction notes using List.reverseRecOn with
  | nil => rfl
  | append_singleton notes note ih =>
      rw [afterNotes_concat]
      cases note with
      | record component file =>
          rw [afterNote, summary_record, sum_addToRows, ih, sinceReset_record, List.length_append]
          rfl
      | reset => rw [sinceReset_reset]; rfl

/-- After any history the summary has one row for each component recorded since the last reset, in
the order of their first records. A row has the file of the first record, the number of the records
in all files, which the counts of the files add up to, and the rows together count every record. -/
theorem summary_exact (notes : List Note) :
    (afterNotes [] notes).summary.map (·.component) =
      ((sinceReset notes).map Prod.fst).eraseDups ∧
    (∀ row ∈ (afterNotes [] notes).summary,
      (sinceReset notes).lookup row.component = some row.firstFile ∧
      row.occurrences = ((sinceReset notes).map Prod.fst).count row.component ∧
      ∀ files : Finset Text, (∀ record ∈ sinceReset notes, record.2 ∈ files) →
        ∑ file ∈ files, (afterNotes [] notes).count row.component file = row.occurrences) ∧
    ((afterNotes [] notes).summary.map (·.occurrences)).sum = (sinceReset notes).length := by
  refine ⟨?_, fun row hrow => ?_, sum_summary_afterNotes notes⟩
  · rw [summary_afterNotes, rowsOf, List.map_map]
    exact List.map_id _
  · rw [summary_afterNotes] at hrow
    obtain ⟨component, hcomponent, rfl⟩ := List.mem_map.mp hrow
    obtain ⟨first, hfirst⟩ := Option.isSome_iff_exists.mp
      (Table.lookup_isSome_iff.mpr (List.mem_eraseDups.mp hcomponent))
    refine ⟨?_, rfl, fun files hfiles => ?_⟩
    · simp [rowOf, hfirst]
    · simp only [count_afterNotes]
      exact sum_count (sinceReset notes) component files hfiles

/-- Records of two components that alternate, with a record before the last reset. -/
def scatteredNotes : List Note :=
  [.record ['z'] ['f'], .reset, .record ['b'] ['f'], .record ['a'] ['g'], .record ['b'] ['g'],
    .record ['b'] ['f']]

theorem summary_exact_scattered :
    (afterNotes [] scatteredNotes).summary = [⟨['b'], ['f'], 3⟩, ⟨['a'], ['g'], 1⟩] ∧
    ∑ file ∈ ({['f'], ['g']} : Finset Text),
      (afterNotes [] scatteredNotes).count ['b'] file = 3 := by
  have hsummary : (afterNotes [] scatteredNotes).summary =
      [⟨['b'], ['f'], 3⟩, ⟨['a'], ['g'], 1⟩] := by decide
  have hrow := (summary_exact scatteredNotes).2.1 ⟨['b'], ['f'], 3⟩ (by rw [hsummary]; simp)
  exact ⟨hsummary, hrow.2.2 {['f'], ['g']} (by decide)⟩

end History

end Failures

end PageLoom.Component
