import PageLoom.Condition.Expr
import PageLoom.Props

/-!
# Tokens of conditions

A condition is cut into literals, names, operator symbols and parentheses, with the longest symbol
first. Names that are props become literals before parsing, so that no prop can change the shape of
a condition.
-/

namespace PageLoom.Condition

inductive Symbol where
  | binary (op : BinaryOp)
  | connective (op : Connective)
  | not
deriving Repr, DecidableEq

inductive Token where
  | literal (value : Value)
  | name (word : Text)
  | symbol (sign : Symbol)
  | opening
  | closing

/-- The spelling of every operator symbol. A symbol stands before those that begin it. -/
def spellings : List (Text × Symbol) := [
  ("===".toList, .binary .identical),
  ("!==".toList, .binary .distinct),
  ("==".toList, .binary .equal),
  ("!=".toList, .binary .unequal),
  ("<=".toList, .binary .atMost),
  (">=".toList, .binary .atLeast),
  ("&&".toList, .connective .and),
  ("||".toList, .connective .or),
  ("<".toList, .binary .less),
  (">".toList, .binary .greater),
  ("!".toList, .not),
  ("+".toList, .binary .add),
  ("-".toList, .binary .subtract),
  ("*".toList, .binary .multiply),
  ("/".toList, .binary .divide),
  ("%".toList, .binary .modulo)]

def Symbol.spelling : Symbol → Text
  | binary .identical => "===".toList
  | binary .distinct => "!==".toList
  | binary .equal => "==".toList
  | binary .unequal => "!=".toList
  | binary .atMost => "<=".toList
  | binary .atLeast => ">=".toList
  | binary .less => "<".toList
  | binary .greater => ">".toList
  | binary .add => "+".toList
  | binary .subtract => "-".toList
  | binary .multiply => "*".toList
  | binary .divide => "/".toList
  | binary .modulo => "%".toList
  | connective .and => "&&".toList
  | connective .or => "||".toList
  | not => "!".toList

def Symbol.ofUnary : UnaryOp → Symbol
  | .not => .not
  | .minus => .binary .subtract
  | .plus => .binary .add

/-- How a token is shown in an error message. -/
def Token.shown : Token → Text
  | .literal value => value.shown
  | .name word => Text.quoted word
  | .symbol sign => Text.quoted sign.spelling
  | .opening => Text.quoted ['(']
  | .closing => Text.quoted [')']

/-- Why an expression has no value. -/
inductive Refusal where
  | unexpectedCharacter (c : Char) (position : Nat)
  | emptyExpression
  | unexpectedToken (token : Token)
  | unexpectedEnd
  | missingClosing
  | unboundName (name : Text)
  | notNumeric (text : Text)
  | divisionByZero

def Refusal.message : Refusal → Text
  | unexpectedCharacter c position =>
    "Unexpected character ".toList ++ Text.quoted [c] ++ " at ".toList ++ Text.ofNat position
  | emptyExpression => "Empty expression".toList
  | unexpectedToken token => "Unexpected token ".toList ++ token.shown
  | unexpectedEnd => "Unexpected end of expression".toList
  | missingClosing => "Expected ')'".toList
  | unboundName name => "Unbound identifier ".toList ++ Text.quoted name
  | notNumeric text => "Cannot use ".toList ++ Text.quoted text ++ " as a number".toList
  | divisionByZero => "Division by zero".toList

/-- Why evaluation ends without a value. A condition that is refused or nested too deeply is
false; a number fault is an error of its own. -/
inductive Failure where
  | refused (refusal : Refusal)
  | tooDeep
  | fault (fault : NumberFault)

def isNameStart (c : Char) : Bool := Text.isAsciiLetter c || c == '_' || c == '$'

def isNamePart (c : Char) : Bool := Text.isWord c || c == '$'

def wordToken (word : Text) : Token :=
  if word = "true".toList then .literal (.bool true)
  else if word = "false".toList then .literal (.bool false)
  else if word = "null".toList then .literal .null
  else .name word

/-- A numeral with a point is a float, one without is a whole number. -/
def numeralToken (whole : Text) (fraction? : Option Text) : Except Failure Token :=
  match fraction? with
  | some fraction =>
    let digits : Number.Numeral :=
      ⟨whole.map Number.plainDigit, fraction.map Number.plainDigit, 0⟩
    .ok (.literal (.number (.float (digits.toFloat false))))
  | none =>
    match Number.readWhole? whole with
    | some value => .ok (.literal (.number (.whole value)))
    | none => .error (.fault .tooManyDigits)

/-- The first token of a text, or none for a blank, and how many characters it covers beyond the
first. -/
def tokenAt (position : Nat) (c : Char) (text : Text) : Except Failure (Option Token × Nat) :=
  let unexpected : Except Failure (Option Token × Nat) :=
    .error (.refused (.unexpectedCharacter c position))
  if Text.isBlank c then .ok (none, 0)
  else if Text.isDigit c then
    let whole := text.takeWhile Text.isDigit
    match text.dropWhile Text.isDigit with
    | '.' :: rest =>
      let fraction := rest.takeWhile Text.isDigit
      (numeralToken (c :: whole) (some fraction)).map fun token =>
        (some token, whole.length + 1 + fraction.length)
    | _ => (numeralToken (c :: whole) none).map fun token => (some token, whole.length)
  else if c = '.' then
    let fraction := text.takeWhile Text.isDigit
    if fraction.isEmpty then unexpected
    else (numeralToken [] (some fraction)).map fun token => (some token, fraction.length)
  else if c = '"' || c = '\'' then
    match Text.cutAt? [c] text with
    | some (inside, _) => .ok (some (.literal (.text inside)), inside.length + 1)
    | none => unexpected
  else if isNameStart c then
    let rest := text.takeWhile isNamePart
    .ok (some (wordToken (c :: rest)), rest.length)
  else if c = '(' then .ok (some .opening, 0)
  else if c = ')' then .ok (some .closing, 0)
  else
    match spellings.find? fun entry => Text.startsWith entry.1 (c :: text) with
    | some (spelling, symbol) => .ok (some (.symbol symbol), spelling.length - 1)
    | none => unexpected

def tokensFrom : Nat → Nat → Text → Except Failure (List Token)
  | _, _, [] => .ok []
  | skip + 1, position, _ :: text => tokensFrom skip (position + 1) text
  | 0, position, c :: text => do
    let (token?, more) ← tokenAt position c text
    let tokens ← tokensFrom more (position + 1) text
    return token?.toList ++ tokens

def tokens (source : Text) : Except Failure (List Token) := tokensFrom 0 0 source

/-- Turns the names of props into literals of their texts. -/
def substitute (scope : Props) (tokens : List Token) : List Token :=
  tokens.map fun
    | .name name =>
      match scope.get? name with
      | some value => .literal (.text value.asText)
      | none => .name name
    | token => token

end PageLoom.Condition
