import PageLoom.Number.Numeral

/-!
# Action parameters

The parameters of an action in console markup: a name, a name with arguments in parentheses, or a
literal alone. Literals are numbers with an optional sign, quoted texts, the words `True`, `False`
and `None`, and several literals between parentheses or braces.
-/

namespace PageLoom.Console.Parameters

/-- Reads from the head of a text and answers with the rest. -/
abbrev Reader := Text → Option Text

def skipSpaces (text : Text) : Text := text.dropWhile fun c => c == ' ' || c == '\t'

def isNumberPart (c : Char) : Bool :=
  Text.isAsciiLetter c || Text.isAsciiDigit c || c == '_' || c == '.'

/-- Whole numbers have no leading zeros, unless they are zero. -/
def isWholeNumeral (digits : Text) : Bool :=
  !digits.isEmpty && digits.all Text.isAsciiDigit && digits.length ≤ Number.digitLimit &&
    (digits.head? != some '0' || digits.all (· == '0'))

def isNumeral (text : Text) : Bool :=
  match Number.dropUnderscores? none text with
  | none => false
  | some plain =>
    isWholeNumeral plain ||
      (plain.any (fun c => c == '.' || c == 'e' || c == 'E') && (Number.readNumeral? plain).isSome)

def number : Reader := fun text =>
  if isNumeral (text.takeWhile isNumberPart) then some (text.dropWhile isNumberPart) else none

/-- The rest after a closing quote that no backslash stands before. -/
def quotedRest (quote : Char) : Reader
  | [] => none
  | '\\' :: _ :: text => quotedRest quote text
  | c :: text => if c = quote then some text else if c = '\n' then none else quotedRest quote text

def words : List Text := ["True".toList, "False".toList, "None".toList]

def word : Reader := fun text =>
  if words.contains (text.takeWhile isNumberPart) then some (text.dropWhile isNumberPart) else none

/-- Items between commas up to a closing mark, which a comma may stand before. -/
def items (item : Reader) (closing : Char) : Nat → Reader
  | 0, _ => none
  | steps + 1, text =>
    match skipSpaces text with
    | [] => none
    | c :: rest =>
      if c = closing then some rest
      else
        match (item (c :: rest)).map skipSpaces with
        | some (',' :: rest) => items item closing steps rest
        | some (c :: rest) => if c = closing then some rest else none
        | _ => none

/-- Something before a colon with something after it. -/
def entry (item : Reader) : Reader := fun text =>
  match (item text).map skipSpaces with
  | some (':' :: rest) => item (skipSpaces rest)
  | _ => none

/-- A literal, with parentheses and braces nested at most so deep. -/
def literal : Nat → Reader
  | 0, _ => none
  | depth + 1, text =>
    match text with
    | '(' :: rest => items (literal depth) ')' (rest.length + 1) rest
    | '\x7b' :: rest =>
      (items (literal depth) '\x7d' (rest.length + 1) rest).or
        (items (entry (literal depth)) '\x7d' (rest.length + 1) rest)
    | '\'' :: rest => quotedRest '\'' rest
    | '"' :: rest => quotedRest '"' rest
    | '-' :: rest | '+' :: rest => number (skipSpaces rest)
    | text => (word text).or (number text)

/-- How deep parentheses and braces may be nested. -/
def nestingRoom : Nat := 90

/-- One literal, or several between commas, with nothing after them. -/
def isLiteral (text : Text) : Bool :=
  let closed := skipSpaces text ++ [')']
  !(skipSpaces text).isEmpty && (skipSpaces text).head? != some ',' &&
    items (literal nestingRoom) ')' (closed.length + 1) closed == some []

/-- Whether the arguments of a name are a literal in parentheses, or missing. -/
def areArguments (text : Text) : Bool :=
  text.isEmpty || (text.head? = some '(' && text.getLast? = some ')' && !text.contains '\n')

/-- Whether parameters can be read. -/
def areReadable (parameters : Text) : Bool :=
  let text := Text.trim parameters
  let arguments := text.dropWhile fun c => Text.isWord c || c == '.'
  if areArguments arguments then arguments.isEmpty || isLiteral arguments else isLiteral text

end PageLoom.Console.Parameters
