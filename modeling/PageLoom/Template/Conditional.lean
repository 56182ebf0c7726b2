import PageLoom.Condition.Evaluation
import PageLoom.Template.Block

/-!
# Conditionals

A conditional block gives way to the trimmed body of its first section whose condition holds, or of
its first section without a condition if that comes earlier, or to nothing. Blocks inside the
chosen body are evaluated in turn.
-/

namespace PageLoom.Template

/-- The trimmed body of the section that applies. Sections after one without condition do not
count. -/
def chosenBody (scope : Props) : List Section → Except NumberFault Text
  | [] => .ok []
  | ⟨directive, body⟩ :: rest =>
    if directive.keyword = .otherwise then .ok (Text.trim body)
    else do
      if ← Condition.holds directive.argument scope then return Text.trim body
      else chosenBody scope rest

def evaluateConditionalsWithin (scope : Props) : Nat → Text → Except NumberFault Text
  | 0, text => .ok text
  | depth + 1, text =>
    replaceBlocks conditionalRole
      (fun sections => do
        return some (← evaluateConditionalsWithin scope depth (← chosenBody scope sections)))
      0 (directives text)

/-- Replaces every outermost conditional block. A body is shorter than its block, so the length of
the text bounds the nesting. -/
def evaluateConditionals (scope : Props) (text : Text) : Except NumberFault Text :=
  evaluateConditionalsWithin scope text.length text

end PageLoom.Template
