import PageLoom.Console.Parameters
import PageLoom.Console.Style
import PageLoom.Text.Scan

/-!
# Console markup

Lines for the console carry tags in brackets. A tag opens a style or names an action, a tag with a
slash closes the style that it names, or without a name the last open one; backslashes keep a
bracket from being a tag. Printing drops the tags. A line cannot be printed if it closes what is
not open.
-/

namespace PageLoom.Console

open Scan

/-- Why a line cannot be printed. -/
inductive MarkupError where
  | nothingToClose
  | badParameters
  | badColor
deriving Repr, DecidableEq

/-- A tag with the backslashes before it, or a bracket that a backslash keeps from being one. -/
inductive Mark where
  | tag (backslashes : Nat) (inside : Text)
  | bracket
deriving Repr, DecidableEq

def isTagStart (c : Char) : Bool :=
  ('a' ≤ c && c ≤ 'z') || c == '#' || c == '/' || c == '@'

/-- The inside of a tag, given what follows its opening bracket. -/
def tagInside? (text : Text) : Option Text :=
  match text with
  | [] => none
  | c :: rest =>
    let inside := rest.takeWhile fun c => c != '[' && c != ']'
    match rest.dropWhile fun c => c != '[' && c != ']' with
    | ']' :: _ => if isTagStart c then some (c :: inside) else none
    | _ => none

def markPattern : Pattern Mark := fun _ text =>
  let backslashes := (text.takeWhile (· == '\\')).length
  match text.drop backslashes with
  | '[' :: rest =>
    match tagInside? rest with
    | some inside => some (.tag backslashes inside, backslashes + inside.length + 1)
    | none => if backslashes = 1 then some (.bracket, 1) else none
  | _ => none

/-- A style or action that is open: its canonical name and its parameters. -/
structure OpenTag where
  name : Text
  parameters : Option Text
deriving Repr, DecidableEq

/-- What has been read of a line: the open tags, innermost first, what is printed, and the styles
that were met. -/
structure Reading where
  opened : List OpenTag
  printed : Text
  styles : List Text
deriving Repr, DecidableEq

def Reading.print (reading : Reading) (text : Text) : Reading :=
  { reading with printed := reading.printed ++ text }

def colorError {α : Type} (result : Except ColorError α) : Except MarkupError α :=
  result.mapError fun _ => .badColor

/-- Takes the last open tag with a name, or without a name the last open tag. -/
def close? (name : Text) : List OpenTag → Option (OpenTag × List OpenTag)
  | [] => none
  | tag :: rest =>
    if name.isEmpty || tag.name = name then some (tag, rest)
    else (close? name rest).map fun (found, rest) => (found, tag :: rest)

/-- The parameters of an action are read when it is closed. -/
def OpenTag.isReadable (tag : OpenTag) : Bool :=
  tag.name.head? != some '@' ||
    (tag.parameters.filter (!·.isEmpty)).all Parameters.areReadable

def closeTag (reading : Reading) (name : Text) : Except MarkupError Reading := do
  let name := Text.trim name
  let name ← if name.isEmpty then pure [] else colorError (Style.canonical name)
  match close? name reading.opened with
  | none => throw .nothingToClose
  | some (tag, opened) =>
    if tag.isReadable then return { reading with opened } else throw .badParameters

/-- The style that an opening tag asks for; actions ask for none. -/
def styleOf (tag : OpenTag) : List Text :=
  if tag.name.head? = some '@' then []
  else [tag.name ++ (tag.parameters.map fun parameters => ' ' :: parameters).getD []]

def openTag (reading : Reading) (name : Text) (parameters : Option Text) :
    Except MarkupError Reading := do
  let tag : OpenTag := ⟨← colorError (Style.canonical name), parameters⟩
  return { reading with
    opened := tag :: reading.opened
    styles := reading.styles ++ styleOf tag }

def readTag (reading : Reading) (inside : Text) : Except MarkupError Reading :=
  let (name, parameters) :=
    match Text.cutAt? ['='] inside with
    | some (name, parameters) => (name, some parameters)
    | none => (inside, none)
  match name with
  | '/' :: name => closeTag reading name
  | name => openTag reading name parameters

/-- Half of the backslashes before a tag are printed. An odd one keeps it from being a tag. -/
def readMark (reading : Reading) : Mark → Except MarkupError Reading
  | .bracket => .ok (reading.print ['['])
  | .tag backslashes inside =>
    let reading := reading.print (List.replicate (backslashes / 2) '\\')
    if backslashes % 2 = 1 then .ok (reading.print ('[' :: inside ++ [']']))
    else readTag reading inside

def readPiece (reading : Reading) : Piece Mark → Except MarkupError Reading
  | .plain c => .ok (reading.print [c])
  | .found _ mark => readMark reading mark

/-- A style with a share of a color that is no number is found out when it is put to use. -/
def isUsable (style : Text) : Bool :=
  match Style.ofText style with
  | .error .notNumber => false
  | _ => true

/-- What is printed of a line. -/
def printed (line : Text) : Except MarkupError Text := do
  let reading ← (pieces markPattern line).foldlM readPiece ⟨[], [], []⟩
  if reading.styles.all isUsable then return reading.printed else throw .badColor

end PageLoom.Console
