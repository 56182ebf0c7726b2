import PageLoom.Template.Directive

/-!
# Blocks

A block runs from an opening directive to the closing directive of the same nesting level.
Separating directives of that level cut it into sections. Directives that have no role in the kind
of block at hand are text.
-/

namespace PageLoom.Template

open Scan

inductive Role where
  | opens
  | closes
  | separates
  | isText
deriving Repr, DecidableEq

def conditionalRole : Keyword → Role
  | .ifTrue => .opens
  | .endIf => .closes
  | .elseIf | .otherwise => .separates
  | .forEach | .endFor => .isText

def loopRole : Keyword → Role
  | .forEach => .opens
  | .endFor => .closes
  | .ifTrue | .elseIf | .otherwise | .endIf => .isText

/-- A directive with the text up to the next directive of its block. -/
structure Section where
  directive : Directive
  body : Text
deriving Repr, DecidableEq

/-- What follows an opening directive: the text of its own section, the sections after it, and how
many pieces the block takes beyond the opening directive. There is none without a closer. -/
structure Tail where
  body : Text
  sections : List Section
  size : Nat
deriving Repr, DecidableEq

def Tail.withText (source : Text) (tail : Tail) : Tail :=
  ⟨source ++ tail.body, tail.sections, tail.size + 1⟩

def Tail.withSection (directive : Directive) (tail : Tail) : Tail :=
  ⟨[], ⟨directive, tail.body⟩ :: tail.sections, tail.size + 1⟩

def tailOf? (role : Keyword → Role) : Nat → List (Piece Directive) → Option Tail
  | _, [] => none
  | depth, .plain c :: rest => (tailOf? role depth rest).map (Tail.withText [c])
  | depth, .found source directive :: rest =>
    match role directive.keyword, depth with
    | .opens, depth => (tailOf? role (depth + 1) rest).map (Tail.withText source)
    | .closes, 0 => some ⟨[], [], 1⟩
    | .closes, depth + 1 => (tailOf? role depth rest).map (Tail.withText source)
    | .separates, 0 => (tailOf? role 0 rest).map (Tail.withSection directive)
    | .separates, depth + 1 => (tailOf? role (depth + 1) rest).map (Tail.withText source)
    | .isText, depth => (tailOf? role depth rest).map (Tail.withText source)

/-- Replaces the outermost blocks of some pieces. A block for which `change` gives nothing stays as
it stands; from an opening directive without a closer on, all is text. The first `skip` pieces
belong to a block that is dealt with already. -/
def replaceBlocks {ε : Type} (role : Keyword → Role)
    (change : List Section → Except ε (Option Text)) :
    Nat → List (Piece Directive) → Except ε Text
  | _, [] => .ok []
  | skip + 1, _ :: rest => replaceBlocks role change skip rest
  | 0, .plain c :: rest => do return c :: (← replaceBlocks role change 0 rest)
  | 0, .found source directive :: rest =>
    if role directive.keyword = .opens then
      match tailOf? role 0 rest with
      | none => .ok (source ++ sourceOf rest)
      | some tail => do
        let changed? ← change (⟨directive, tail.body⟩ :: tail.sections)
        let following ← replaceBlocks role change tail.size rest
        return changed?.getD (source ++ sourceOf (rest.take tail.size)) ++ following
    else do return source ++ (← replaceBlocks role change 0 rest)

end PageLoom.Template
