import PageLoom.Component.Resolve
import PageLoom.Disk.Basic

/-!
# Component store

The templates of a components directory: every file in it, at any depth, whose lower-cased suffix
is listed and whose bytes are UTF-8, under its path without suffix. Of several files with one name
the last in path order counts. A load replaces all templates, or fails and changes nothing.
-/

namespace PageLoom.Component

structure Store where
  root : Location
  extensions : List Text
  library : Library
deriving Repr, DecidableEq

/-- The name of the component whose template lies at a path below the components directory. -/
def componentName? (below : List Text) : Option Text :=
  if below.isEmpty then none else some (textOfNames (withoutSuffix below))

namespace Store

def ofRoot (root : Location) (extensions : List Text) : Store :=
  ⟨root, extensions.map Text.lower, Library.empty⟩

/-- The files of a directory at any depth, as paths below it with their bytes, in path order. -/
def filesBelow (disk : Disk) (root : Location) : List (List Text × Bytes) :=
  ((disk.contents root).filterMap fun
    | (names, .file bytes) => some (names, bytes)
    | (_, .directory) => none).mergeSort fun left right => compareNames left.1 right.1 != .gt

def templateOf? (extensions : List Text) (file : List Text × Bytes) : Option (Text × Text) :=
  if extensions.contains (Text.lower (suffixOf file.1)) then
    match componentName? file.1, Utf8.decode? file.2 with
    | some name, some template => some (name, template)
    | _, _ => none
  else none

def templatesOn (disk : Disk) (root : Location) (extensions : List Text) : List (Text × Text) :=
  Table.ofEntries ((filesBelow disk root).filterMap (templateOf? extensions))

/-- Loads all templates anew; there is nothing to load without the components directory. -/
def load? (store : Store) (disk : Disk) : Option Store :=
  if disk.isDirectory store.root then
    some { store with
      library := ⟨templatesOn disk store.root store.extensions, store.library.generation + 1⟩ }
  else none

def size (store : Store) : Nat := store.library.templates.length

def owns (store : Store) (location : Location) : Bool := isWithin store.root location

/-- Whether a path leads to a place inside the components directory. -/
def ownsPath (store : Store) (standpoint : Standpoint) (path : Path) : Except PathError Bool :=
  match path.locate standpoint with
  | .ok location => .ok (store.owns location)
  | .error .holdsNul => .ok false
  | .error .unknownHome => .error .unknownHome

end Store

end PageLoom.Component
