import PageLoom.Text.Classes
import PageLoom.Text.Scan
import PageLoom.Props

/-!
# Attributes

The attributes of a tag are the `name="value"` pairs in its attribute text, with blanks allowed
around the equals sign. A name begins where no word does; values are taken as they stand. All other
text is passed over.
-/

namespace PageLoom.Markup

open Scan

def isAttributePart (c : Char) : Bool := Text.isWord c || c == '-'

/-- The value after an attribute name, and the length of all that follows the name. -/
def attributeValue? (text : Text) : Option (Text × Nat) :=
  let blanks := text.takeWhile Text.isBlank
  match text.dropWhile Text.isBlank with
  | '=' :: text =>
    let moreBlanks := text.takeWhile Text.isBlank
    match text.dropWhile Text.isBlank with
    | '"' :: text =>
      match Text.cutAt? ['"'] text with
      | some (value, _) => some (value, blanks.length + moreBlanks.length + value.length + 3)
      | none => none
    | _ => none
  | _ => none

def attributePattern : Pattern (Text × Text) := fun before text =>
  match text with
  | [] => none
  | c :: text =>
    if before.any isAttributePart || !Text.isIdentifierStart c then none
    else
      let rest := text.takeWhile isAttributePart
      (attributeValue? (text.drop rest.length)).map fun (value, more) =>
        ((c :: rest, value), rest.length + more)

/-- The attributes of a tag, each name at its first place with its last value. -/
def parseAttributes (text : Text) : Props :=
  Table.ofEntries ((values (pieces attributePattern text)).map fun (name, value) =>
    (name, .scalar value))

end PageLoom.Markup
