import PageLoom.Text.Basic

/-!
# Scanning

A pattern is asked at every position of a text whether it begins there. Scanning a text from left
to right with a pattern cuts it into pieces: single characters where the pattern does not begin,
and what the pattern covers where it does. The sources of the pieces are the text again.
-/

namespace PageLoom.Scan

/-- Given the character before a position and the text from there on, a pattern that begins there
answers with a value and with the number of characters it covers beyond the first. -/
abbrev Pattern (α : Type) := Option Char → Text → Option (α × Nat)

inductive Piece (α : Type) where
  | plain (c : Char)
  | found (source : Text) (value : α)
deriving Repr, DecidableEq

variable {α : Type}

def Piece.source : Piece α → Text
  | plain c => [c]
  | found source _ => source

/-- Scans a text of which the first `skip` characters are covered already. -/
def piecesFrom (pattern : Pattern α) : Nat → Option Char → Text → List (Piece α)
  | _, _, [] => []
  | skip + 1, _, c :: text => piecesFrom pattern skip (some c) text
  | 0, before, c :: text =>
    match pattern before (c :: text) with
    | none => .plain c :: piecesFrom pattern 0 (some c) text
    | some (value, more) =>
      .found (c :: text.take more) value :: piecesFrom pattern more (some c) text

def pieces (pattern : Pattern α) (text : Text) : List (Piece α) := piecesFrom pattern 0 none text

def sourceOf (found : List (Piece α)) : Text := found.flatMap Piece.source

def values (found : List (Piece α)) : List α :=
  found.filterMap fun
    | .plain _ => none
    | .found _ value => some value

/-- The found values with the offsets at which their sources begin and end. -/
def located (start : Nat) : List (Piece α) → List (Nat × Nat × α)
  | [] => []
  | .plain _ :: rest => located (start + 1) rest
  | .found source value :: rest =>
    (start, start + source.length, value) :: located (start + source.length) rest

/-- Puts `change source value` in the place of every occurrence of a pattern. -/
def replaceWith (pattern : Pattern α) (change : Text → α → Text) (text : Text) : Text :=
  (pieces pattern text).flatMap fun
    | .plain c => [c]
    | .found source value => change source value

/-- The pattern that begins where a fixed nonempty text stands. -/
def literal (expected : Text) : Pattern Unit := fun _ text =>
  if expected.isEmpty then none
  else if Text.startsWith expected text then some ((), expected.length - 1)
  else none

theorem sourceOf_piecesFrom (pattern : Pattern α) (skip : Nat) (before : Option Char)
    (text : Text) :
    sourceOf (piecesFrom pattern skip before text) = text.drop skip := by
  induction text generalizing skip before with
  | nil => simp [piecesFrom, sourceOf]
  | cons c text ih =>
    cases skip with
    | succ skip => simpa [piecesFrom] using ih skip (some c)
    | zero =>
      simp only [piecesFrom]
      split
      · have hrest := ih 0 (some c)
        simp only [sourceOf, List.flatMap_cons, Piece.source] at hrest ⊢
        simpa using hrest
      · next value more _ =>
        have hrest := ih more (some c)
        simp only [sourceOf, List.flatMap_cons, Piece.source] at hrest ⊢
        rw [hrest]
        simp

/-- Scanning loses nothing. -/
@[simp]
theorem sourceOf_pieces (pattern : Pattern α) (text : Text) :
    sourceOf (pieces pattern text) = text := by
  simpa [pieces] using sourceOf_piecesFrom pattern 0 none text

end PageLoom.Scan

namespace PageLoom.Text

/-- Replaces every occurrence of a fixed text, from left to right and without rescanning. -/
def replaceAll (old new text : Text) : Text :=
  Scan.replaceWith (Scan.literal old) (fun _ _ => new) text

end PageLoom.Text
