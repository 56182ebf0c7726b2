import PageLoom.Component.Key
import PageLoom.Component.Cache
import PageLoom.Component.Failures
import PageLoom.Markup.Attribute
import PageLoom.Markup.Tag
import PageLoom.Template.Conditional
import PageLoom.Template.Loop
import PageLoom.Template.Trace

/-!
# Resolving components

The fragment of a component is its template with the placeholders of its props filled, conditionals
evaluated, loops expanded, and the component tags in the result replaced by their own fragments.
Fragments are cached by key. A missing component is recorded and leaves its tag as it stands; a
component that includes itself, directly or through others, ends the expansion with an error.
-/

namespace PageLoom.Component

/-- Component templates by name, with the number of loads so far. -/
structure Library where
  templates : List (Text × Text)
  generation : Nat
deriving Repr, DecidableEq

namespace Library

def empty : Library := ⟨[], 0⟩

def template? (library : Library) (name : Text) : Option Text := library.templates.lookup name

def names (library : Library) : List Text := (library.templates.map (·.1)).mergeSort Text.atMost

end Library

/-- Why the expansion of a document ends without a result. -/
inductive RenderError where
  | cyclic (cycle : List Text)
  | fault (fault : NumberFault)
deriving Repr, DecidableEq

/-- What an expansion changes: the cache, the failure record, and the names that were missing in
the fragment in progress so far. -/
structure Progress where
  cache : Cache
  failures : Failures
  unresolved : List Text
deriving Repr, DecidableEq

abbrev Expansion := ExceptT RenderError (StateM Progress)

/-- What an expansion reads: the templates, whether fragments carry trace markers, and the file
that is being built. -/
structure Setting where
  library : Library
  traced : Bool
  file : Text

def noteMissing (file : Text) (names : List Text) : Expansion Unit :=
  modify fun progress =>
    { progress with
      failures := names.foldl (fun failures name => failures.record name file) progress.failures
      unresolved := progress.unresolved ++ names }

def lookUp (key : Text) : Expansion (Option Text) :=
  modifyGet fun progress =>
    let (fragment?, cache) := progress.cache.get key
    (fragment?, { progress with cache })

/-- Stores a fragment together with the names that were missing in it. -/
def store (key fragment : Text) (missing : List Text) : Expansion Text :=
  modifyGet fun progress =>
    let (stored, cache) := progress.cache.put key fragment missing
    (stored, { progress with cache })

/-- Runs an expansion with a list of missing names of its own, and answers with that list too. -/
def collectMissing {α : Type} (expansion : Expansion α) : Expansion (α × List Text) := do
  let outer ← modifyGet fun progress => (progress.unresolved, { progress with unresolved := [] })
  let result ← expansion
  let inner ← modifyGet fun progress =>
    (progress.unresolved, { progress with unresolved := outer ++ progress.unresolved })
  return (result, inner)

/-- The text of a template before its component tags are expanded. -/
def instantiate (template : Text) (props : Props) : Except NumberFault Text := do
  return Template.expandLoops props
    (← Template.evaluateConditionals props (Template.substituteProps props template))

/-- The names from the first occurrence of a name on, closed by the name itself. -/
def cycleThrough (stack : List Text) (name : Text) : List Text :=
  stack.dropWhile (· ≠ name) ++ [name]

/-- The fragment of an invocation inside the components on the stack, or nothing if there is no
such component. `room` is how many more components can be in progress at once. -/
def resolveWithin (setting : Setting) :
    Nat → List Text → Text → Props → Expansion (Option Text)
  | room, stack, name, props =>
    if stack.contains name then throw (.cyclic (cycleThrough stack name))
    else do
      let key := cacheKey setting.library.generation name props
      match ← lookUp key with
      | some fragment =>
        noteMissing setting.file ((← get).cache.missing key)
        return some fragment
      | none =>
        match setting.library.template? name, room with
        | none, _ =>
          noteMissing setting.file [name]
          return none
        | some _, 0 => throw (.cyclic (stack ++ [name]))
        | some template, room + 1 => do
          let text ← (instantiate template props).mapError RenderError.fault
          let expand := fun tag =>
            resolveWithin setting room (stack ++ [name]) tag.name
              (Markup.parseAttributes tag.attributes)
          let (expanded, missing) ← collectMissing (Markup.expandTags .template expand text)
          let expanded ← expanded.mapError RenderError.fault
          let fragment :=
            if setting.traced then Template.wrapFragment name expanded else expanded
          some <$> store key fragment missing

/-- The fragment of an invocation. At most all components are in progress at once. -/
def resolve (setting : Setting) (name : Text) (props : Props) : Expansion (Option Text) :=
  resolveWithin setting setting.library.templates.length [] name props

/-- Expands a whole document. The global values fill placeholders and are the scope of its
directives; component tags come last. -/
def render (setting : Setting) (globals : Props) (text : Text) : Expansion Text := do
  let text ← (instantiate text globals).mapError RenderError.fault
  let expanded ← Markup.expandTags .document
    (fun tag => resolve setting tag.name (Markup.parseAttributes tag.attributes)) text
  expanded.mapError RenderError.fault

end PageLoom.Component
