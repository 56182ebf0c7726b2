import PageLoom.Serve.Host

/-!
# Authorities

What stands between the scheme and the path of a URL. Brackets in it come in pairs, and hold an
address of eight groups of hexadecimal digits, of which a run may be left out, or an address of a
kind to come.
-/

namespace PageLoom.Serve.Authority

def isGroup (group : Text) : Bool := group.length ≤ 4 && group.all Text.isHexDigit

/-- A part of an address in decimal numbers has no leading zero. -/
def isDecimalPart (part : Text) : Bool :=
  !part.isEmpty && part.all Text.isAsciiDigit && part.length ≤ 3 &&
    (part.length = 1 || part.head? != some '0') && Number.digitsValue part ≤ 255

def isDecimalAddress (text : Text) : Bool :=
  let parts := Text.splitOn '.' text
  parts.length = 4 && parts.all isDecimalPart

/-- The groups of an address, with an address in decimal numbers at the end taken for two. -/
def groups? (text : Text) : Option (List Text) :=
  let parts := Text.splitOn ':' text
  match parts.getLast? with
  | none => none
  | some last =>
    if parts.length < 3 then none
    else if last.contains '.' then
      if isDecimalAddress last then some (parts.dropLast ++ [['0'], ['0']]) else none
    else some parts

/-- The groups before and after those that are left out. An empty group at either end is no group
there, and nothing else may stand beside it. -/
def isShortened (before after : List Text) : Bool :=
  let ends := fun (side : List Text) (atEnd : Option Text) =>
    if atEnd = some [] then if side.length = 1 then some 0 else none else some side.length
  match ends before before.head?, ends after after.getLast? with
  | some first, some second =>
    first + second < 8 && before.all isGroup && after.all isGroup
  | _, _ => false

def areGroups (groups : List Text) : Bool :=
  let inner := (groups.drop 1).dropLast
  match inner.findIdx? (·.isEmpty) with
  | none => groups.length = 8 && groups.all fun group => !group.isEmpty && isGroup group
  | some index =>
    groups.length ≤ 9 && inner.countP (·.isEmpty) = 1 &&
      isShortened (groups.take (index + 1)) (groups.drop (index + 2))

/-- An address of groups, perhaps with a zone after a percent sign. -/
def isGroupedAddress (text : Text) : Bool :=
  let (address, isZone) :=
    match Text.cutAt? ['%'] text with
    | some (address, zone) => (address, !zone.isEmpty && !zone.contains '%')
    | none => (text, true)
  isZone && (groups? address).any areGroups

/-- An address of a kind to come names its version. -/
def isFutureAddress (text : Text) : Bool :=
  match text with
  | 'v' :: rest =>
    match Text.cutAt? ['.'] rest with
    | some (version, address) => !version.isEmpty && version.all Text.isHexDigit && !address.isEmpty
    | none => false
  | _ => false

def isBracketed (host : Text) : Bool :=
  if host.head? = some 'v' then isFutureAddress host else isGroupedAddress host

def isValid (authority : Text) : Bool :=
  if authority.contains '[' && authority.contains ']' then
    let inside := (Text.cutAt? ['['] authority).elim [] Prod.snd
    isBracketed (inside.takeWhile (· ≠ ']'))
  else !authority.contains '[' && !authority.contains ']'

end PageLoom.Serve.Authority
