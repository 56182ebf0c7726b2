import PageLoom.Disk.Basic
import PageLoom.Environment.Binding

/-!
# Environment

The variables that a program is started with, and how an environment file overrides them. Values in
the file refer to other variables as `$\x7bNAME\x7d`, or with `:-` to a default for an unbound one;
earlier lines of the file count before the environment.
-/

namespace PageLoom

open Scan

/-- The values of variables, later ones before earlier ones. -/
abbrev Variables := List (Text × Option Text)

abbrev Environment := List (Text × Text)

namespace Environment

/-- Why an environment file cannot be used. -/
inductive FileError where
  | undecodable
  | unusable
deriving Repr, DecidableEq

def value? (environment : Environment) (name : Text) : Option Text := environment.lookup name

def bind (environment : Environment) (name value : Text) : Environment :=
  (name, value) :: environment

/-- A reference to a variable, with the default that it may have. -/
structure Reference where
  name : Text
  default : Option Text
deriving Repr, DecidableEq

def referencePattern : Pattern Reference := fun _ text =>
  match text with
  | '$' :: '\x7b' :: inside =>
    let isNamePart := fun (c : Char) => c != '\x7d' && c != ':'
    let name := inside.takeWhile isNamePart
    match inside.dropWhile isNamePart with
    | '\x7d' :: _ => some (⟨name, none⟩, name.length + 2)
    | ':' :: '-' :: rest =>
      let default := rest.takeWhile (· ≠ '\x7d')
      if default.length = rest.length then none
      else some (⟨name, some default⟩, name.length + default.length + 4)
    | _ => none
  | _ => none

/-- The names of all variables that a text refers to. -/
def mentionedNames (source : Text) : List Text :=
  (values (pieces referencePattern source)).map (·.name)

/-- The value of a reference; without value and default it is empty. -/
def Reference.resolve (environment : Environment) (bound : Variables)
    (reference : Reference) : Text :=
  match bound.lookup reference.name with
  | some value => value.getD []
  | none =>
    match environment.value? reference.name with
    | some value => value
    | none => reference.default.getD []

/-- The values that bindings give to variables. -/
def resolveBindings (environment : Environment) (bindings : List Binding) : Variables :=
  bindings.foldl (fun bound binding =>
    let value := binding.value.map fun text =>
      replaceWith referencePattern (fun _ reference => reference.resolve environment bound) text
    (binding.name, value) :: bound) []

def isUsable (name value : Text) : Bool :=
  !name.contains '=' && !name.contains '\x00' && !value.contains '\x00'

/-- The value that each bound variable has in the end, in the order of the first bindings. -/
def finalValues (bound : Variables) : List (Text × Text) :=
  let names := (bound.map (·.1)).reverse.eraseDups
  names.filterMap fun name => ((bound.lookup name).join).map fun value => (name, value)

/-- Binds variables as a file says. -/
def override (environment : Environment) (source : Text) : Except FileError Environment :=
  let values := finalValues (resolveBindings environment (bindings source))
  if values.all fun (name, value) => isUsable name value then
    .ok (values.foldl (fun environment (name, value) => environment.bind name value) environment)
  else .error .unusable

def fileName : Text := ".env".toList

/-- The environment after the environment file of a directory, if there is one. -/
def load (environment : Environment) (disk : Disk) (directory : Location) :
    Except FileError Environment :=
  match disk.read (directory ++ [fileName]) with
  | .error _ => .ok environment
  | .ok bytes =>
    match Utf8.decode? bytes with
    | none => .error .undecodable
    | some source => environment.override source

end Environment

end PageLoom
