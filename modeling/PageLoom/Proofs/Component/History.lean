import PageLoom.Component.Session
import PageLoom.Proofs.Component.Soundness

/-!
# Histories of a session

A session is used while the templates on the disk change under it: it loads them, with or without
clearing its cache, is reset, and resolves components and renders documents, some of them without
result. After every such history its cache is sound, so that what it answers is determined by the
templates of its latest load alone.
-/

namespace PageLoom.Component

/-- What a session is asked to expand. -/
inductive Call where
  | resolve (name : Text) (props : Props) (file : Text)
  | render (document file : Text) (globals : Props)

/-- What happens to a session, or to the disk under it. -/
inductive Request where
  | call (call : Call)
  | load
  | loadStore
  | reset
  | alter (disk : Disk)

namespace Session

def ofRoot (root : Location) (extensions : List Text) (traced : Bool) : Session :=
  ofStore (Store.ofRoot root extensions) traced

/-- The session after a call, however the call ends. -/
def afterCall (session : Session) : Call → Session
  | .resolve name props file => (session.resolve name props file).2
  | .render document file globals => (session.render document file globals).2

def afterCalls (session : Session) (calls : List Call) : Session := calls.foldl afterCall session

/-- The session after a request and the disk then. A load that fails changes nothing. -/
def afterRequest : Session × Disk → Request → Session × Disk
  | (session, disk), .call call => (session.afterCall call, disk)
  | (session, disk), .load => ((session.load? disk).getD session, disk)
  | (session, disk), .loadStore => ((session.loadStore? disk).getD session, disk)
  | (session, disk), .reset => (session.reset, disk)
  | (session, _), .alter disk => (session, disk)

def afterRequests (session : Session) (disk : Disk) (requests : List Request) : Session :=
  (requests.foldl afterRequest (session, disk)).1

end Session

/-- The templates of the latest load that succeeded, given those from before and the disk. -/
def latestTemplates (root : Location) (extensions : List Text) (disk : Disk)
    (loaded : List (Text × Text)) : List Request → List (Text × Text)
  | [] => loaded
  | .load :: rest | .loadStore :: rest =>
    latestTemplates root extensions disk
      (if disk.isDirectory root then Store.templatesOn disk root extensions else loaded) rest
  | .alter disk :: rest => latestTemplates root extensions disk loaded rest
  | .call _ :: rest | .reset :: rest => latestTemplates root extensions disk loaded rest

namespace Session

def Sound (session : Session) : Prop := session.cache.Sound session.store.library session.traced

/-- How far an expansion has come when a session begins it. -/
def beginning (session : Session) : Progress := ⟨session.cache, session.failures, []⟩

variable {session : Session}

theorem sound_ofStore (store : Store) (traced : Bool) : (ofStore store traced).Sound :=
  Cache.sound_empty _ _

theorem resolve_eq (session : Session) (name : Text) (props : Props) (file : Text) :
    session.resolve name props file =
      let run := runFrom (Component.resolve (session.setting file) name props) session.beginning
      (run.1, { session with cache := run.2.cache, failures := run.2.failures }) := rfl

theorem render_eq (session : Session) (document file : Text) (globals : Props) :
    session.render document file globals =
      let run := runFrom (Component.render (session.setting file) globals document)
        session.beginning
      (run.1, { session with cache := run.2.cache, failures := run.2.failures }) := rfl

/-- A resolution that ends well answers with the expansion and records what is missing in it. -/
theorem Sound.resolve {name file : Text} {props : Props} {fragment? : Option Text}
    (hsound : session.Sound)
    (hresolve : (session.resolve name props file).1 = .ok fragment?) :
    ∃ missing, Expands selfless session.store.library.templates session.traced
        (.invocation name props) fragment? missing ∧
      (session.resolve name props file).2.failures =
        missing.foldl (fun failures name => failures.record name file) session.failures := by
  obtain ⟨missing, hexpands, hnoted⟩ := (faithful_resolveWithin (session.setting file)
    session.store.library.templates.length [] name props session.beginning hsound).expands hresolve
  exact ⟨missing, hexpands, hnoted.1⟩

/-- The same of a document. -/
theorem Sound.render {document file written : Text} {globals : Props} (hsound : session.Sound)
    (hrender : (session.render document file globals).1 = .ok written) :
    ∃ missing, ExpandsDocument selfless session.store.library.templates session.traced globals
        document written missing ∧
      (session.render document file globals).2.failures =
        missing.foldl (fun failures name => failures.record name file) session.failures := by
  obtain ⟨missing, hexpands, hnoted⟩ := (faithful_render (session.setting file) globals document
    session.beginning hsound).2 written hrender
  exact ⟨missing, hexpands, hnoted.1⟩

theorem Sound.afterCall (hsound : session.Sound) (call : Call) :
    (session.afterCall call).Sound := by
  cases call with
  | resolve name props file =>
      exact (faithful_resolveWithin (session.setting file) _ [] name props session.beginning
        hsound).sound
  | render document file globals =>
      exact (faithful_render (session.setting file) globals document session.beginning hsound).1

theorem Sound.loadStore? {loaded : Session} {disk : Disk} (hsound : session.Sound)
    (hloaded : session.loadStore? disk = some loaded) : loaded.Sound := by
  unfold Session.loadStore? Store.load? at hloaded
  split_ifs at hloaded with hroot
  · cases hloaded
    exact Cache.Sound.reload hsound _
  · cases hloaded

theorem Sound.afterRequest {disk : Disk} (hsound : session.Sound) (request : Request) :
    (afterRequest (session, disk) request).1.Sound := by
  cases request with
  | call call => exact hsound.afterCall call
  | load =>
      simp only [Session.afterRequest, load?]
      cases session.loadStore? disk with
      | none => exact hsound
      | some loaded => exact Cache.sound_empty _ _
  | loadStore =>
      simp only [Session.afterRequest]
      cases hloaded : session.loadStore? disk with
      | none => exact hsound
      | some loaded => exact hsound.loadStore? hloaded
  | reset => exact Cache.sound_empty _ _
  | alter disk => exact hsound

theorem Sound.afterRequests (hsound : session.Sound) (disk : Disk) (requests : List Request) :
    (session.afterRequests disk requests).Sound := by
  induction requests generalizing session disk with
  | nil => exact hsound
  | cons request rest ih =>
      exact ih (hsound.afterRequest request) (Session.afterRequest (session, disk) request).2

theorem afterCalls_append (session : Session) (calls others : List Call) :
    session.afterCalls (calls ++ others) = (session.afterCalls calls).afterCalls others :=
  List.foldl_append

theorem store_afterCall (session : Session) (call : Call) :
    (session.afterCall call).store = session.store := by
  cases call <;> rfl

theorem traced_afterCall (session : Session) (call : Call) :
    (session.afterCall call).traced = session.traced := by
  cases call <;> rfl

/-- The templates of a session after some requests, and what else is fixed for its whole life. -/
theorem store_afterRequests (disk : Disk) (requests : List Request) :
    (session.afterRequests disk requests).traced = session.traced ∧
      (session.afterRequests disk requests).store.library.templates =
        latestTemplates session.store.root session.store.extensions disk
          session.store.library.templates requests := by
  induction requests generalizing session disk with
  | nil => exact ⟨rfl, rfl⟩
  | cons request rest ih =>
      have hrest := @ih (Session.afterRequest (session, disk) request).1
        (Session.afterRequest (session, disk) request).2
      refine ⟨hrest.1.trans ?_, hrest.2.trans ?_⟩
      · cases request with
        | call call => exact traced_afterCall session call
        | load =>
            simp only [Session.afterRequest, load?, Session.loadStore?]
            cases session.store.load? disk <;> rfl
        | loadStore =>
            simp only [Session.afterRequest, Session.loadStore?]
            cases session.store.load? disk <;> rfl
        | reset => rfl
        | alter disk => rfl
      · cases request with
        | call call => simp only [Session.afterRequest, store_afterCall, latestTemplates]
        | load =>
            simp only [Session.afterRequest, load?, Session.loadStore?, Store.load?,
              latestTemplates]
            split_ifs <;> rfl
        | loadStore =>
            simp only [Session.afterRequest, Session.loadStore?, Store.load?, latestTemplates]
            split_ifs <;> rfl
        | reset => rfl
        | alter disk => rfl

theorem afterRequests_call (session : Session) (disk : Disk) (requests : List Request)
    (call : Call) :
    session.afterRequests disk (requests ++ [.call call]) =
      (session.afterRequests disk requests).afterCall call := by
  rw [afterRequests, List.foldl_append]
  rfl

end Session

variable {root : Location} {extensions : List Text} {traced : Bool} {disk : Disk}
variable {requests : List Request}

/-- After any history, a resolution answers with the expansion over the templates of the latest
load, done without cache and guard, and there is no other expansion. -/
theorem resolve_eq_expansion {name file : Text} {props : Props} {fragment? : Option Text}
    (hresolve : (((Session.ofRoot root extensions traced).afterRequests disk requests).resolve
      name props file).1 = .ok fragment?) :
    ∃ missing, Expands unguarded
        (latestTemplates root (extensions.map Text.lower) disk [] requests) traced
        (.invocation name props) fragment? missing ∧
      ∀ other? others, Expands unguarded
        (latestTemplates root (extensions.map Text.lower) disk [] requests) traced
        (.invocation name props) other? others → other? = fragment? := by
  have hsound := (Session.sound_ofStore (Store.ofRoot root extensions) traced).afterRequests
    disk requests
  obtain ⟨missing, hexpands, -⟩ := hsound.resolve hresolve
  obtain ⟨htraced, htemplates⟩ := @Session.store_afterRequests
    (Session.ofStore (Store.ofRoot root extensions) traced) disk requests
  rw [htraced, htemplates] at hexpands
  exact ⟨missing, hexpands.unguarded, fun other? others hother => (hother.unique hexpands).1⟩

/-! ## A history with a template rewritten between two loads -/

/-- A disk with the components directory `c`, in which `b` invokes `a` and a missing `z`. -/
def nestedComponents (inner : Char) : Disk :=
  ⟨[([['c']], .directory), ([['c'], ['a', '.', 'h']], .file (Utf8.encode [inner])),
    ([['c'], ['b', '.', 'h']], .file (Utf8.encode "<a/><z/>".toList))]⟩

theorem templatesOn_nestedComponents {inner : Char} (hinner : inner = 'x' ∨ inner = 'y') :
    Store.templatesOn (nestedComponents inner) [['c']] [['.', 'h']] =
      [(['a'], [inner]), (['b'], "<a/><z/>".toList)] := by
  rw [Store.templatesOn, Store.filesBelow]
  rcases hinner with rfl | rfl
  · rw [List.mergeSort_of_pairwise (by decide +kernel)]
    decide +kernel
  · rw [List.mergeSort_of_pairwise (by decide +kernel)]
    decide +kernel

theorem load?_nestedComponents (inner : Char) (hinner : inner = 'x' ∨ inner = 'y')
    (library : Library) :
    Store.load? ⟨[['c']], [['.', 'h']], library⟩ (nestedComponents inner) =
      some ⟨[['c']], [['.', 'h']],
        ⟨[(['a'], [inner]), (['b'], "<a/><z/>".toList)], library.generation + 1⟩⟩ := by
  have hroot : (nestedComponents inner).isDirectory [['c']] = true := rfl
  simp only [Store.load?, hroot, templatesOn_nestedComponents hinner, if_true]

/-- The component `b` is cached when its inner component is rewritten and loaded anew. -/
def rewriting : List Request :=
  [.load, .call (.resolve ['b'] [] ['f']), .alter (nestedComponents 'x'), .loadStore]

/-- The session after `rewriting`, with the store loaded twice and the old fragments still held. -/
theorem afterRequests_rewriting :
    (Session.ofRoot [['c']] [['.', 'h']] false).afterRequests (nestedComponents 'y') rewriting =
      ⟨⟨[['c']], [['.', 'h']], ⟨[(['a'], ['x']), (['b'], "<a/><z/>".toList)], 2⟩⟩, false,
        ⟨[(cacheKey 1 ['a'] [], ['y'], []), (cacheKey 1 ['b'] [], "y<z/>".toList, [['z']])], 0, 3⟩,
        [⟨['z'], ['f'], 1⟩]⟩ := by
  have hstart : Session.ofRoot [['c']] [['.', 'h']] false =
      ⟨⟨[['c']], [['.', 'h']], Library.empty⟩, false, Cache.empty, []⟩ := by decide +kernel
  rw [hstart]
  simp only [Session.afterRequests, rewriting, List.foldl, Session.afterRequest, Session.load?,
    Session.loadStore?, Session.clearCache, Session.store_afterCall, Option.map_some,
    Option.getD_some, load?_nestedComponents 'x' (.inl rfl),
    load?_nestedComponents 'y' (.inr rfl)]
  decide +kernel

theorem resolve_eq_expansion_rewriting :
    (((Session.ofRoot [['c']] [['.', 'h']] false).afterRequests (nestedComponents 'y')
        rewriting).resolve ['b'] [] ['f']).1 = .ok (some "x<z/>".toList) ∧
      ∃ missing, Expands unguarded (latestTemplates [['c']] ([['.', 'h']].map Text.lower)
          (nestedComponents 'y') [] rewriting) false (.invocation ['b'] [])
          (some "x<z/>".toList) missing ∧
        ∀ other? others, Expands unguarded (latestTemplates [['c']] ([['.', 'h']].map Text.lower)
          (nestedComponents 'y') [] rewriting) false (.invocation ['b'] []) other? others →
          other? = some "x<z/>".toList := by
  have hresolve : (((Session.ofRoot [['c']] [['.', 'h']] false).afterRequests
      (nestedComponents 'y') rewriting).resolve ['b'] [] ['f']).1 =
        .ok (some "x<z/>".toList) := by
    rw [afterRequests_rewriting]
    decide +kernel
  exact ⟨hresolve, resolve_eq_expansion hresolve⟩

end PageLoom.Component
