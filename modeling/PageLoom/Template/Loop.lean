import PageLoom.Props
import PageLoom.Template.Block

/-!
# Loops

A loop block gives way to one copy of its body for every element of the prop that its header names,
with the placeholders of the loop name filled. Loops inside the body are left as text. A block with
a malformed header stays.
-/

namespace PageLoom.Template

def placeholderOf (name : Text) : Text := '\x7b' :: '\x7b' :: name ++ ['\x7d', '\x7d']

structure LoopHeader where
  item : Text
  source : Text
deriving Repr, DecidableEq

/-- Reads `item in source`, where only the name of the prop may hold hyphens. -/
def loopHeader? (argument : Text) : Option LoopHeader :=
  let item := argument.takeWhile Text.isWord
  let rest := argument.dropWhile Text.isWord
  let afterItem := rest.dropWhile Text.isBlank
  match Text.afterStart? "in".toList afterItem with
  | none => none
  | some afterIn =>
    let source := afterIn.dropWhile Text.isBlank
    if item.head?.any Text.isIdentifierStart && rest.head?.any Text.isBlank &&
        afterIn.head?.any Text.isBlank && source.head?.any Text.isIdentifierStart &&
        source.all fun c => Text.isWord c || c == '-' then
      some ⟨item, source⟩
    else none

def loopItems (scope : Props) (name : Text) : List Text :=
  match scope.get? name with
  | some value => value.items
  | none => []

/-- The copies of a loop body, one after the other. -/
def repeatBody (header : LoopHeader) (items : List Text) (body : Text) : Text :=
  items.flatMap fun item => Text.replaceAll (placeholderOf header.item) item body

def expandLoop (scope : Props) : List Section → Option Text
  | [] => none
  | ⟨directive, body⟩ :: _ =>
    (loopHeader? directive.argument).map fun header =>
      repeatBody header (loopItems scope header.source) body

/-- Replaces every outermost loop block with a well-formed header. -/
def expandLoops (scope : Props) (text : Text) : Text :=
  let expanded : Except Empty Text :=
    replaceBlocks loopRole (fun sections => .ok (expandLoop scope sections)) 0 (directives text)
  match expanded with
  | .ok expanded => expanded

/-- Fills the placeholders of all props, one prop after the other. -/
def substituteProps (props : Props) (template : Text) : Text :=
  props.foldl (fun text prop => Text.replaceAll (placeholderOf prop.1) prop.2.asText text) template

end PageLoom.Template
