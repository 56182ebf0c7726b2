import PageLoom.Text.Basic

/-!
# Failure record

How often each missing component was invoked from each file, in the order of the first such
invocation, and the summary of it by component.
-/

namespace PageLoom.Component

structure FailureCount where
  component : Text
  file : Text
  count : Nat
deriving Repr, DecidableEq

abbrev Failures := List FailureCount

/-- One row of the summary: a component, the file that first missed it, and how often it was missed
in all files. -/
structure FailureRow where
  component : Text
  firstFile : Text
  occurrences : Nat
deriving Repr, DecidableEq

namespace Failures

def record (failures : Failures) (component file : Text) : Failures :=
  match failures with
  | [] => [⟨component, file, 1⟩]
  | entry :: rest =>
    if entry.component = component ∧ entry.file = file then
      { entry with count := entry.count + 1 } :: rest
    else entry :: record rest component file

def count (failures : Failures) (component file : Text) : Nat :=
  match failures.find? fun entry => entry.component == component && entry.file == file with
  | some entry => entry.count
  | none => 0

/-- Adds a count to the row of its component, or begins a row for it. -/
def addToRows (rows : List FailureRow) (entry : FailureCount) : List FailureRow :=
  match rows with
  | [] => [⟨entry.component, entry.file, entry.count⟩]
  | row :: rest =>
    if row.component = entry.component then
      { row with occurrences := row.occurrences + entry.count } :: rest
    else row :: addToRows rest entry

def summary (failures : Failures) : List FailureRow := failures.foldl addToRows []

end Failures

end PageLoom.Component
