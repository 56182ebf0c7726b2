import PageLoom.Number.Basic
import PageLoom.Number.Numeral
import PageLoom.Text.Scan

/-!
# Comments

Tags inside HTML comments are not tags. Before a text is searched for tags, every comment gives way
to a placeholder that holds its number between two NUL characters; afterwards the placeholders with
the number of a comment give way to that comment. A placeholder that the text brought along may have
more digits than a number can have, which is a fault.
-/

namespace PageLoom.Markup

open Scan

/-- A comment runs to the first closing mark after its opening mark. -/
def commentPattern : Pattern Unit := fun _ text =>
  match Text.afterStart? "<!--".toList text with
  | none => none
  | some inside =>
    match Text.cutAt? "-->".toList inside with
    | some (before, _) => some ((), before.length + 6)
    | none => none

def placeholder (number : Nat) : Text := '\x00' :: Text.ofNat number ++ ['\x00']

def numberComments (number : Nat) : List (Piece Unit) → Text
  | [] => []
  | .plain c :: rest => c :: numberComments number rest
  | .found _ _ :: rest => placeholder number ++ numberComments (number + 1) rest

def commentsOf (found : List (Piece Unit)) : List Text :=
  found.filterMap fun
    | .plain _ => none
    | .found source _ => some source

/-- A text with placeholders for its comments, and the comments. -/
def protectComments (text : Text) : Text × List Text :=
  let found := pieces commentPattern text
  (numberComments 0 found, commentsOf found)

/-- Placeholders are recognised by form, in digits of any script. -/
def placeholderPattern : Pattern Text := fun _ text =>
  match text with
  | '\x00' :: rest =>
    let digits := rest.takeWhile Text.isDigit
    match digits, rest.dropWhile Text.isDigit with
    | _ :: _, '\x00' :: _ => some (digits, digits.length + 1)
    | _, _ => none
  | _ => none

/-- The comment with the number in a placeholder, or else the placeholder. -/
def restorePiece (comments : List Text) : Piece Text → Except NumberFault Text
  | .plain c => .ok [c]
  | .found source digits =>
    match Number.readWhole? digits with
    | some number => .ok (comments[number]?.getD source)
    | none => .error .tooManyDigits

/-- Without comments nothing is restored. -/
def restoreComments (comments : List Text) (text : Text) : Except NumberFault Text :=
  if comments.isEmpty then .ok text
  else ((pieces placeholderPattern text).mapM (restorePiece comments)).map List.flatten

end PageLoom.Markup
