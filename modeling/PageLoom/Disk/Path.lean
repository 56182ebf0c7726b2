import PageLoom.Text.Lower

/-!
# Paths

A path is an anchor and the names after it, with empty names and single points dropped. A location
is an absolute path without `..`, given by its names from the root of the disk. Names have a stem
and a suffix, which begins at the last point unless that is the first or the last character.
-/

namespace PageLoom

structure Path where
  anchor : Text
  names : List Text
deriving Repr, DecidableEq

abbrev Location := List Text

/-- Why a path has no location. -/
inductive PathError where
  | holdsNul
  | unknownHome
deriving Repr, DecidableEq

/-- Where relative paths begin and whose home directories are known; the home of the user proper
goes by the empty name. -/
structure Standpoint where
  current : Location
  homes : List (Text × Path)

def textOfNames (names : List Text) : Text := Text.joinWith ['/'] names

def Location.toText (location : Location) : Text := '/' :: textOfNames location

/-- Locations are ordered name by name. -/
def compareNames : List Text → List Text → Ordering
  | [], [] => .eq
  | [], _ :: _ => .lt
  | _ :: _, [] => .gt
  | left :: lefts, right :: rights => (Text.compare left right).then (compareNames lefts rights)

/-- The names of a path below a directory. -/
def below? (directory names : List Text) : Option (List Text) :=
  if directory.isPrefixOf names then some (names.drop directory.length) else none

def isWithin (directory names : List Text) : Bool := directory.isPrefixOf names

namespace Path

/-- Exactly two leading slashes are an anchor of their own. -/
def anchorOf : Text → Text
  | '/' :: '/' :: '/' :: _ => ['/']
  | '/' :: '/' :: _ => ['/', '/']
  | '/' :: _ => ['/']
  | _ => []

def ofText (text : Text) : Path :=
  ⟨anchorOf text, (Text.splitOn '/' text).filter fun name => !name.isEmpty && name != ['.']⟩

def ofLocation (location : Location) : Path := ⟨['/'], location⟩

def toText (path : Path) : Text :=
  if path.anchor.isEmpty && path.names.isEmpty then ['.']
  else path.anchor ++ textOfNames path.names

def isAbsolute (path : Path) : Bool := !path.anchor.isEmpty

def join (path other : Path) : Path :=
  if other.isAbsolute then other else ⟨path.anchor, path.names ++ other.names⟩

def name (path : Path) : Text := path.names.getLast?.getD []

/-- The names of a path below another, if it lies there. -/
def relativeTo? (path base : Path) : Option (List Text) :=
  if path.anchor = base.anchor then below? base.names path.names else none

/-- Whether a path begins at a home directory. -/
def isFromHome (path : Path) : Bool :=
  match path with
  | ⟨[], ('~' :: _) :: _⟩ => true
  | _ => false

/-- Replaces a leading `~` or `~user` by that home directory, which may be relative itself but not
begin at one. -/
def expandHome (standpoint : Standpoint) (path : Path) : Except PathError Path :=
  match path with
  | ⟨[], ('~' :: user) :: names⟩ =>
    if user.contains '\x00' then .error .holdsNul
    else
      match standpoint.homes.lookup user with
      | some home =>
        if home.isFromHome then .error .unknownHome else .ok ⟨home.anchor, home.names ++ names⟩
      | none => .error .unknownHome
  | path => .ok path

def upward : Text := ['.', '.']

def holdsNul (path : Path) : Bool := path.names.any (·.contains '\x00')

/-- Where the names of a path begin. -/
def start (standpoint : Standpoint) (path : Path) : Location :=
  if path.isAbsolute then [] else standpoint.current

/-- Follows names from a directory, where `..` goes up and stays at the root. -/
def follow (directory : Location) (names : List Text) : Location :=
  names.foldl (fun location name =>
    if name = upward then location.dropLast else location ++ [name]) directory

/-- The location of a path, whatever is on the way there. -/
def resolve (standpoint : Standpoint) (path : Path) : Except PathError Location :=
  if path.holdsNul then .error .holdsNul
  else .ok (follow (path.start standpoint) path.names)

def locate (standpoint : Standpoint) (path : Path) : Except PathError Location := do
  resolve standpoint (← expandHome standpoint path)

end Path

/-- The text of a path from a directory, by its names below it. The directory itself is `.` from
there. -/
def textBelow (names : List Text) : Text := Path.toText ⟨[], names⟩

theorem textBelow_of_ne_nil {names : List Text} (hnames : names ≠ []) :
    textBelow names = textOfNames names := by
  have hsome : names.isEmpty = false := List.isEmpty_eq_false_iff.mpr hnames
  simp [textBelow, Path.toText, hsome]

/-- Takes a directory for the home of the user proper; no name is that of the root. -/
def Standpoint.withHome (standpoint : Standpoint) (home : Text) : Standpoint :=
  let home := Path.ofText (if home.isEmpty then ['/'] else home)
  { standpoint with homes := ([], home) :: standpoint.homes }

/-- Splits a name before its suffix. -/
def splitSuffix (name : Text) : Text × Text :=
  let tail := name.reverse.takeWhile (· ≠ '.')
  let stem := name.take (name.length - tail.length - 1)
  if tail.isEmpty || stem.isEmpty || tail.length = name.length then (name, [])
  else (stem, '.' :: tail.reverse)

def suffixOf (names : List Text) : Text := (splitSuffix (names.getLast?.getD [])).2

def stemOf (names : List Text) : Text := (splitSuffix (names.getLast?.getD [])).1

def withoutSuffix (names : List Text) : List Text := names.dropLast ++ [stemOf names]

end PageLoom
