import PageLoom.Condition.Token

/-!
# Grammar of conditions

From loosest to tightest: `||`, `&&`, equality, order, sums, products, the unary operators, and
literals, names and parentheses. Binary operators group to the left. Nesting is bounded: every
unary operator takes one unit of the room there is, every pair of parentheses eleven.
-/

namespace PageLoom.Condition

abbrev Reader := List Token → Except Failure (Expr × List Token)

/-- Which trees an operator symbol builds at one level of the grammar. -/
abbrev Level := Symbol → Option (Expr → Expr → Expr)

def connectiveLevel (connective : Connective) : Level
  | .connective op => if op = connective then some (.logical op) else none
  | _ => none

def binaryLevel (level : Nat) : Level
  | .binary op => if op.level = level then some (.binary op) else none
  | _ => none

def prefixOp? : Symbol → Option UnaryOp
  | .not => some .not
  | .binary .subtract => some .minus
  | .binary .add => some .plus
  | _ => none

/-- Continues a left operand with the operators of one level. Every step takes a token. -/
def chainFrom (level : Level) (operand : Reader) : Nat → Expr → Reader
  | steps + 1, left, .symbol symbol :: rest =>
    match level symbol with
    | some build => do
      let (right, rest) ← operand rest
      chainFrom level operand steps (build left right) rest
    | none => .ok (left, .symbol symbol :: rest)
  | _, left, rest => .ok (left, rest)

def chain (level : Level) (operand : Reader) : Reader := fun tokens => do
  let (left, rest) ← operand tokens
  chainFrom level operand rest.length left rest

/-- All binary levels over a reader of unary expressions. -/
def expressionOver (unary : Reader) : Reader :=
  chain (connectiveLevel .or) <|
  chain (connectiveLevel .and) <|
  chain (binaryLevel 0) <|
  chain (binaryLevel 1) <|
  chain (binaryLevel 2) <|
  chain (binaryLevel 3) unary

def readUnary : Nat → Reader
  | _, [] => .error (.refused .unexpectedEnd)
  | _, .literal value :: rest => .ok (.literal value, rest)
  | _, .name name :: rest => .ok (.name name, rest)
  | _, .closing :: _ => .error (.refused (.unexpectedToken .closing))
  | room, .symbol symbol :: rest =>
    match prefixOp? symbol with
    | none => .error (.refused (.unexpectedToken (.symbol symbol)))
    | some op =>
      match room with
      | 0 => .error .tooDeep
      | room + 1 => do
        let (operand, rest) ← readUnary room rest
        return (.unary op operand, rest)
  | room, .opening :: rest =>
    match room with
    | room + 11 => do
      let (inside, rest) ← expressionOver (readUnary room) rest
      match rest with
      | .closing :: rest => return (inside, rest)
      | [] => throw (.refused .unexpectedEnd)
      | _ :: _ => throw (.refused .missingClosing)
    | _ => .error .tooDeep

/-- The room for nesting in one condition. -/
def nestingRoom : Nat := 950

def parseTokens (room : Nat) (tokens : List Token) : Except Failure Expr :=
  if tokens.isEmpty then .error (.refused .emptyExpression)
  else do
    match ← expressionOver (readUnary room) tokens with
    | (expr, []) => return expr
    | (_, token :: _) => throw (.refused (.unexpectedToken token))

/-- Reads a condition in which the names of props stand for their texts. -/
def parse (source : Text) (scope : Props) : Except Failure Expr := do
  parseTokens nestingRoom (substitute scope (← tokens source))

end PageLoom.Condition
