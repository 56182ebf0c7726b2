import PageLoom.Markup.Comment
import PageLoom.Text.Lower

/-!
# Component tags

A component tag closes itself and has no `>` before its end. In documents its name is an
identifier; in templates identifiers joined by slashes are names too. Tags of void HTML elements
are left alone.
-/

namespace PageLoom.Markup

open Scan

structure Tag where
  name : Text
  attributes : Text
  source : Text
deriving Repr, DecidableEq

/-- Where a tag stands: names with slashes are read in templates only. -/
inductive Place where
  | document
  | template
deriving Repr, DecidableEq

def isIdentifierPart (c : Char) : Bool :=
  Text.isAsciiLetter c || Text.isAsciiDigit c || c == '_'

/-- The parts that follow an identifier, each of them a slash and at least one character, given
whether the character before is the slash of a part in progress. -/
def qualifiedRest : Text → Text
  | '/' :: c :: text =>
    if isIdentifierPart c then '/' :: c :: qualifiedRest text else []
  | c :: text => if isIdentifierPart c then c :: qualifiedRest text else []
  | [] => []

/-- The name at the head of a text. -/
def nameAt? (place : Place) : Text → Option Text
  | [] => none
  | c :: text =>
    if Text.isIdentifierStart c then
      match place with
      | .document => some (c :: text.takeWhile isIdentifierPart)
      | .template => some (c :: qualifiedRest text)
    else none

/-- The attribute text between a name and the end of the tag, and the length of all that follows
the name. Blanks right before the end belong to no attribute, except a single one. -/
def attributesAt? (text : Text) : Option (Text × Nat) :=
  let inside := text.takeWhile (· ≠ '>')
  if inside.length = text.length then none
  else
    match inside.reverse with
    | '/' :: reversed =>
      match reversed.reverse with
      | [] => some ([], 2)
      | c :: attributes =>
        if Text.isBlank c then some (c :: Text.trimEnd attributes, inside.length + 1) else none
    | _ => none

def tagPattern (place : Place) : Pattern Tag := fun _ text =>
  match text with
  | '<' :: text =>
    match nameAt? place text with
    | none => none
    | some name =>
      match attributesAt? (text.drop name.length) with
      | none => none
      | some (attributes, more) =>
        some (⟨name, attributes, '<' :: text.take (name.length + more)⟩, name.length + more)
  | _ => none

def voidElements : List Text :=
  ["area".toList, "base".toList, "br".toList, "col".toList, "embed".toList, "hr".toList,
    "img".toList, "input".toList, "link".toList, "meta".toList, "param".toList, "source".toList,
    "track".toList, "wbr".toList]

def isVoidElement (name : Text) : Bool := voidElements.contains (Text.lower name)

/-- The component tags of a text outside comments. -/
def findTags (place : Place) (text : Text) : List Tag :=
  (values (pieces (tagPattern place) (protectComments text).1)).filter
    fun tag => !isVoidElement tag.name

/-- Replaces the found tags from left to right; a tag without replacement stays. -/
def replaceTags {m : Type → Type} [Monad m] (replacement : Tag → m (Option Text)) :
    List (Piece Tag) → m Text
  | [] => pure []
  | .plain c :: rest => do
    let text ← replaceTags replacement rest
    return c :: text
  | .found source tag :: rest =>
    if isVoidElement tag.name then do
      let text ← replaceTags replacement rest
      return source ++ text
    else do
      let new? ← replacement tag
      let text ← replaceTags replacement rest
      return new?.getD source ++ text

/-- Replaces the component tags of a text outside comments. Replacements are not searched, and they
are all made before the comments are put back. -/
def expandTags {m : Type → Type} [Monad m] (place : Place) (replacement : Tag → m (Option Text))
    (text : Text) : m (Except NumberFault Text) := do
  let (guarded, comments) := protectComments text
  let expanded ← replaceTags replacement (pieces (tagPattern place) guarded)
  return restoreComments comments expanded

end PageLoom.Markup
