import PageLoom.Component.Store

/-!
# Build sessions

Everything that changes while pages are built: the component store, the fragment cache and the
failure record. A session can be reset before a build; loading components clears its cache.
-/

namespace PageLoom.Component

structure Session where
  store : Store
  traced : Bool
  cache : Cache
  failures : Failures
deriving Repr, DecidableEq

namespace Session

def ofStore (store : Store) (traced : Bool) : Session := ⟨store, traced, Cache.empty, []⟩

def clearCache (session : Session) : Session := { session with cache := Cache.empty }

/-- Forgets cached fragments and failures. -/
def reset (session : Session) : Session := { session with cache := Cache.empty, failures := [] }

/-- Loads the templates and leaves the cache as it is: keys carry the store generation. -/
def loadStore? (session : Session) (disk : Disk) : Option Session :=
  (session.store.load? disk).map fun store => { session with store }

def load? (session : Session) (disk : Disk) : Option Session :=
  (session.loadStore? disk).map clearCache

def setting (session : Session) (file : Text) : Setting :=
  ⟨session.store.library, session.traced, file⟩

/-- Runs an expansion for a file. Cache and failures change also if it ends with an error. -/
def run {α : Type} (session : Session) (file : Text) (expansion : Setting → Expansion α) :
    Except RenderError α × Session :=
  let (result, progress) :=
    (expansion (session.setting file)).run.run ⟨session.cache, session.failures, []⟩
  (result, { session with cache := progress.cache, failures := progress.failures })

def resolve (session : Session) (name : Text) (props : Props) (file : Text) :
    Except RenderError (Option Text) × Session :=
  session.run file fun setting => Component.resolve setting name props

def render (session : Session) (text file : Text) (globals : Props) :
    Except RenderError Text × Session :=
  session.run file fun setting => Component.render setting globals text

def key (session : Session) (name : Text) (props : Props) : Text :=
  cacheKey session.store.library.generation name props

end Session

end PageLoom.Component
