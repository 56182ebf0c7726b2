import PageLoom.Toml.Scalar

/-!
# TOML documents

Keys, arrays, inline tables, and the statements of a document, which fill one table. A table can be
declared once; what dotted keys and inline values have defined cannot be extended from elsewhere.
-/

namespace PageLoom.Toml

open Config

abbrev Key := List Text

def isBareKeyChar (c : Char) : Bool :=
  Text.isAsciiLetter c || Text.isAsciiDigit c || c == '-' || c == '_'

def keyPart : Reader Text := fun text =>
  match text with
  | '\'' :: rest => literal rest
  | '"' :: rest => basic rest
  | c :: _ =>
    if isBareKeyChar c then .ok (text.takeWhile isBareKeyChar, text.dropWhile isBareKeyChar)
    else .error .malformed
  | [] => .error .malformed

/-- Key parts joined by points, blanks around the points aside. -/
def keyFrom : Nat → Reader Key
  | 0, _ => .error .malformed
  | steps + 1, text => do
    let (part, rest) ← keyPart text
    match skipSpaces rest with
    | '.' :: rest => do
      let (parts, rest) ← keyFrom steps (skipSpaces rest)
      return (part :: parts, rest)
    | rest => return ([part], rest)

def key : Reader Key := fun text => keyFrom (text.length + 1) text

/-- The text after a comment that may stand at its head. -/
def skipComment (text : Text) : Except TomlError Text :=
  match text with
  | '#' :: rest =>
    if (rest.takeWhile (· ≠ '\n')).any isIllegal then .error .malformed
    else .ok (rest.dropWhile (· ≠ '\n'))
  | _ => .ok text

def skipCommentsAndBlanks : Nat → Text → Except TomlError Text
  | 0, text => .ok text
  | steps + 1, text =>
    match text.dropWhile isSpaceOrNewline with
    | '#' :: rest => do skipCommentsAndBlanks steps (← skipComment ('#' :: rest))
    | rest => .ok rest

def skipBetweenItems (text : Text) : Except TomlError Text := skipCommentsAndBlanks text.length text

/-- The items of an array, given what follows its opening bracket or a comma. -/
def arrayItems (item : Reader Datum) : Nat → Reader (List Datum)
  | 0, _ => .error .malformed
  | steps + 1, text => do
    match ← skipBetweenItems text with
    | ']' :: rest => return ([], rest)
    | text => do
      let (first, rest) ← item text
      match ← skipBetweenItems rest with
      | ']' :: rest => return ([first], rest)
      | ',' :: rest => do
        let (others, rest) ← arrayItems item steps rest
        return (first :: others, rest)
      | _ => throw .malformed

/-- Changes the table that a key leads to, making the tables on the way. A key leads through the
last table of an array of tables if `throughArrays`, and through no other value. -/
def changeAt (throughArrays : Bool) (change : Table → Option Table) : Key → Table → Option Table
  | [], table => change table
  | part :: parts, table =>
    match table.get? part with
    | none => (changeAt throughArrays change parts []).map fun inner =>
      table.insert part (.table inner)
    | some (.table inner) => (changeAt throughArrays change parts inner).map fun inner =>
      table.insert part (.table inner)
    | some (.array values) =>
      match throughArrays, values.getLast? with
      | true, some (.table inner) => (changeAt throughArrays change parts inner).map fun inner =>
        table.insert part (.array (values.dropLast ++ [.table inner]))
      | _, _ => none
    | some _ => none

/-- Adds a value under a key that is not there yet. -/
def define? (throughArrays : Bool) (key : Key) (value : Datum) (table : Table) : Option Table :=
  match key.getLast? with
  | none => none
  | some last =>
    let add := fun (inner : Table) =>
      if (inner.get? last).isSome then none else some (inner.insert last value)
    changeAt throughArrays add key.dropLast table

/-- Why a value cannot be added to an inline table: the key leads through what is no table, or its
last part is taken. -/
def inlineConflict (key : Key) (table : Table) : TomlError :=
  match changeAt false some key.dropLast table, key.getLast? with
  | some _, some last => .conflict [last]
  | _, _ => .malformed

def isStructured : Datum → Bool
  | .array _ | .table _ => true
  | _ => false

/-- Whether a key leads into or to one of some closed keys. -/
def leadsInto (closed : List Key) (key : Key) : Bool :=
  closed.any fun other => !other.isEmpty && other.isPrefixOf key

def keyAndValue (item : Reader Datum) : Reader (Key × Datum) := fun text => do
  let (key, rest) ← key text
  match rest with
  | '=' :: rest => do
    let (value, rest) ← item (skipSpaces rest)
    return ((key, value), rest)
  | _ => throw .malformed

/-- The entries of an inline table, given what follows its opening brace or a comma. -/
def inlineEntries (item : Reader Datum) : Nat → List Key → Table → Reader Table
  | 0, _, _, _ => .error .malformed
  | steps + 1, closed, table, text => do
    let ((key, value), rest) ← keyAndValue item text
    if leadsInto closed key then throw (.conflict key)
    match define? false key value table with
    | none => throw (inlineConflict key table)
    | some table =>
      match skipSpaces rest with
      | '\x7d' :: rest => return (table, rest)
      | ',' :: rest =>
        let closed := if isStructured value then key :: closed else closed
        inlineEntries item steps closed table (skipSpaces rest)
      | _ => throw .malformed

def inlineTable (item : Reader Datum) : Reader Table := fun text =>
  match skipSpaces text with
  | '\x7d' :: rest => .ok ([], rest)
  | text => inlineEntries item (text.length + 1) [] [] text

def mapFirst {α β : Type} (f : α → β) (result : Except TomlError (α × Text)) :
    Except TomlError (β × Text) :=
  result.map fun (value, rest) => (f value, rest)

/-- A value, given the room for nesting: arrays take two units of it and inline tables three. -/
def value : Nat → Reader Datum
  | room, text =>
    match text with
    | '"' :: '"' :: '"' :: rest => mapFirst .text (basicLines rest)
    | '"' :: rest => mapFirst .text (basic rest)
    | '\'' :: '\'' :: '\'' :: rest => mapFirst .text (literalLines rest)
    | '\'' :: rest => mapFirst .text (literal rest)
    | '[' :: rest =>
      match room with
      | room + 2 => mapFirst .array (arrayItems (value room) (rest.length + 1) rest)
      | _ => .error .tooDeep
    | '\x7b' :: rest =>
      match room with
      | room + 3 => mapFirst .table (inlineTable (value room) rest)
      | _ => .error .tooDeep
    | text =>
      match Text.afterStart? "true".toList text, Text.afterStart? "false".toList text with
      | some rest, _ => .ok (.bool true, rest)
      | none, some rest => .ok (.bool false, rest)
      | none, none => momentOrNumber text

/-- What the statements so far have defined: the table, the keys that are closed together with all
below them, the keys of declared tables, the keys that become declared with the next header, and
the header in force. -/
structure Progress where
  table : Table
  closed : List Key
  declared : List Key
  pending : List Key
  header : Key

def Progress.start : Progress := ⟨[], [], [], [], []⟩

def declarePending (progress : Progress) : Progress :=
  { progress with declared := progress.pending ++ progress.declared, pending := [] }

/-- The keys of the tables that a dotted key passes through. -/
def passedKeys (header key : Key) : List Key :=
  (List.range (key.length - 1)).map fun index => header ++ key.take (index + 1)

def keyValueStatement (item : Reader Datum) (progress : Progress) : Reader Progress :=
    fun text => do
  let ((key, value), rest) ← keyAndValue item text
  let passed := passedKeys progress.header key
  match passed.find? progress.declared.contains with
  | some declared => throw (.conflict declared)
  | none =>
    let parent := progress.header ++ key.dropLast
    if leadsInto progress.closed parent then throw (.conflict parent)
    match define? true (progress.header ++ key) value progress.table with
    | none => throw .malformed
    | some table =>
      let closed :=
        if isStructured value then (progress.header ++ key) :: progress.closed
        else progress.closed
      return ({ progress with table, closed, pending := passed ++ progress.pending }, rest)

def tableStatement (progress : Progress) : Reader Progress := fun text => do
  let (key, rest) ← key (skipSpaces text)
  if progress.declared.contains key || leadsInto progress.closed key then throw (.conflict key)
  match changeAt true some key progress.table, rest with
  | some table, ']' :: rest =>
    return ({ progress with table, declared := key :: progress.declared, header := key }, rest)
  | _, _ => throw .malformed

/-- Adds an empty table to an array of tables. What was closed or declared below the array belongs
to the tables before it. -/
def appendTable (last : Text) (table : Table) : Option Table :=
  match table.get? last with
  | none => some (table.insert last (.array [.table []]))
  | some (.array values) => some (table.insert last (.array (values ++ [.table []])))
  | some _ => none

def arrayTableStatement (progress : Progress) : Reader Progress := fun text => do
  let (key, rest) ← key (skipSpaces text)
  if leadsInto progress.closed key then throw (.conflict key)
  let free := fun (other : Key) => !key.isPrefixOf other
  let declared := key :: progress.declared.filter free
  let closed := progress.closed.filter free
  match key.getLast? with
  | none => throw .malformed
  | some last =>
    match changeAt true (appendTable last) key.dropLast progress.table, rest with
    | some table, ']' :: ']' :: rest =>
      return ({ progress with table, closed, declared, header := key }, rest)
    | _, _ => throw .malformed

/-- One line: a statement or nothing, then an optional comment. -/
def line (item : Reader Datum) (progress : Progress) : Reader Progress := fun text =>
  match text with
  | [] => .ok (progress, [])
  | '\n' :: rest => .ok (progress, '\n' :: rest)
  | '#' :: rest => .ok (progress, '#' :: rest)
  | '[' :: '[' :: rest => arrayTableStatement (declarePending progress) rest
  | '[' :: rest => tableStatement (declarePending progress) rest
  | text => keyValueStatement item progress text

def statements (item : Reader Datum) : Nat → Progress → Text → Except TomlError Table
  | 0, _, _ => .error .malformed
  | steps + 1, progress, text => do
    let (progress, rest) ← line item progress (skipSpaces text)
    match ← skipComment (skipSpaces rest) with
    | [] => return progress.table
    | '\n' :: rest => statements item steps progress rest
    | _ => throw .malformed

/-- The room for arrays and inline tables inside each other. -/
def nestingRoom : Nat := 970

/-- Line ends are single characters before anything else is read. -/
def unifyLineEnds (text : Text) : Text := Text.replaceAll ['\r', '\n'] ['\n'] text

def parse (text : Text) : Except TomlError Table :=
  let unified := unifyLineEnds text
  statements (value nestingRoom) (unified.length + 1) Progress.start unified

end PageLoom.Toml
