import PageLoom.Text.Basic

/-!
# Fragment cache

Expanded fragments by key, each with the names of the components that were missing while it was
expanded. The first entry for a key stays until the cache is cleared. Look-ups are counted.
-/

namespace PageLoom.Component

structure Cache where
  entries : List (Text × Text × List Text)
  hits : Nat
  misses : Nat
deriving Repr, DecidableEq

namespace Cache

def empty : Cache := ⟨[], 0, 0⟩

def find? (cache : Cache) (key : Text) : Option (Text × List Text) := cache.entries.lookup key

def holds (cache : Cache) (key : Text) : Bool := (cache.find? key).isSome

def size (cache : Cache) : Nat := cache.entries.length

def missing (cache : Cache) (key : Text) : List Text :=
  match cache.find? key with
  | some (_, missing) => missing
  | none => []

/-- Looks a fragment up and counts whether it was there. -/
def get (cache : Cache) (key : Text) : Option Text × Cache :=
  match cache.find? key with
  | some (fragment, _) => (some fragment, { cache with hits := cache.hits + 1 })
  | none => (none, { cache with misses := cache.misses + 1 })

/-- Stores a fragment unless its key is taken, and answers with what is stored. -/
def put (cache : Cache) (key fragment : Text) (missing : List Text) : Text × Cache :=
  match cache.find? key with
  | some (stored, _) => (stored, cache)
  | none => (fragment, { cache with entries := cache.entries ++ [(key, fragment, missing)] })

end Cache

end PageLoom.Component
