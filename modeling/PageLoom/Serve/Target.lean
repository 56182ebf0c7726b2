import PageLoom.Serve.Authority
import PageLoom.Text.Lower
import PageLoom.Text.Percent

/-!
# Request targets

The parts of the target of a request: mostly a path, perhaps with a query and a fragment, and
sometimes a whole URL with a scheme and an authority.
-/

namespace PageLoom.Serve

structure Target where
  scheme : Text
  authority : Text
  path : Text
  query : Text
  fragment : Text
deriving Repr, DecidableEq

namespace Target

/-- Cuts at the first place where a mark stands; without the mark nothing follows. -/
def cutAtMark (mark : Char) (text : Text) : Text × Text :=
  (Text.cutAt? [mark] text).getD (text, [])

def isSchemeChar (c : Char) : Bool :=
  Text.isAsciiLetter c || Text.isAsciiDigit c || ['+', '-', '.'].contains c

/-- The scheme before the first colon, if what stands there can be one. -/
def splitScheme (text : Text) : Text × Text :=
  match Text.cutAt? [':'] text with
  | some (c :: scheme, rest) =>
    if Text.isAsciiLetter c && scheme.all isSchemeChar then (Text.lower (c :: scheme), rest)
    else ([], text)
  | _ => ([], text)

def endsAuthority (c : Char) : Bool := c == '/' || c == '?' || c == '#'

def splitAuthority (text : Text) : Text × Text :=
  match Text.afterStart? ['/', '/'] text with
  | some rest =>
    (rest.takeWhile (!endsAuthority ·), rest.dropWhile (!endsAuthority ·))
  | none => ([], text)

def ofText? (text : Text) : Option Target :=
  let (scheme, rest) := splitScheme (text.dropWhile fun c => decide (c.toNat ≤ 32))
  let (authority, rest) := splitAuthority rest
  let (rest, fragment) := cutAtMark '#' rest
  let (path, query) := cutAtMark '?' rest
  if Authority.isValid authority then some ⟨scheme, authority, path, query, fragment⟩ else none

def marked (mark : Char) (part : Text) : Text := if part.isEmpty then [] else mark :: part

def toText (target : Target) : Text :=
  (if target.scheme.isEmpty then [] else target.scheme ++ [':']) ++
    (if target.authority.isEmpty then [] else '/' :: '/' :: target.authority) ++
    target.path ++ marked '?' target.query ++ marked '#' target.fragment

/-- A part of a form: a plus sign stands for a space. -/
def decodeField (field : Text) : Text :=
  Percent.decode (field.map fun c => if c = '+' then ' ' else c)

/-- The fields of a query, in order. Fields without a value are left out. -/
def fields (query : Text) : List (Text × Text) :=
  (Text.splitOn '&' query).filterMap fun field =>
    let (name, value) := cutAtMark '=' field
    if value.isEmpty then none else some (decodeField name, decodeField value)

end Target

end PageLoom.Serve
