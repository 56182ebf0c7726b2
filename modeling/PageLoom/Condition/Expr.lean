import PageLoom.Condition.Value

/-!
# Expressions

The operators of conditions, from the loosest to the tightest binding, and expression trees.
-/

namespace PageLoom.Condition

inductive Connective where
  | or
  | and
deriving Repr, DecidableEq

inductive BinaryOp where
  | equal
  | unequal
  | identical
  | distinct
  | less
  | atMost
  | greater
  | atLeast
  | add
  | subtract
  | multiply
  | divide
  | modulo
deriving Repr, DecidableEq

/-- The levels of binary operators: a greater level binds tighter. -/
def BinaryOp.level : BinaryOp → Nat
  | equal | unequal | identical | distinct => 0
  | less | atMost | greater | atLeast => 1
  | add | subtract => 2
  | multiply | divide | modulo => 3

inductive UnaryOp where
  | not
  | minus
  | plus
deriving Repr, DecidableEq

inductive Expr where
  | literal (value : Value)
  | name (name : Text)
  | unary (op : UnaryOp) (operand : Expr)
  | binary (op : BinaryOp) (left right : Expr)
  | logical (op : Connective) (left right : Expr)

end PageLoom.Condition
