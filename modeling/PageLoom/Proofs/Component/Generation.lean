import Mathlib.Data.List.Forall2
import PageLoom.Proofs.Component.History

/-!
# Generations of templates

How often templates were loaded before shows in the keys of the cache and nowhere else. Two sessions
with the same templates of different generations, whose caches hold the same fragments for the same
invocations, go side by side: whatever they are asked to expand, they end with the same result, and
their caches and failure records stay the same but for the keys.
-/

namespace PageLoom.Component

open Markup Scan

variable {generation other : Nat}

/-- Entries for one invocation, kept under the keys of two generations. -/
def SameInvocation (generation other : Nat) (entry partner : Text × Text × List Text) : Prop :=
  (∃ name props, entry.1 = cacheKey generation name props ∧
    partner.1 = cacheKey other name props) ∧ entry.2 = partner.2

/-! ## Caches -/

/-- Two caches that are the same but for the generation in their keys. -/
structure Cache.Renumbered (generation other : Nat) (cache partner : Cache) : Prop where
  entries : List.Forall₂ (SameInvocation generation other) cache.entries partner.entries
  hits : cache.hits = partner.hits
  misses : cache.misses = partner.misses

namespace Cache

variable {cache partner : Cache}

theorem renumbered_empty (generation other : Nat) : empty.Renumbered generation other empty :=
  ⟨.nil, rfl, rfl⟩

theorem sameKey_iff {name known : Text} {props knownProps : Props} :
    cacheKey generation name props = cacheKey generation known knownProps ↔
      cacheKey other name props = cacheKey other known knownProps := by
  constructor
  · intro hkey
    obtain ⟨-, rfl, rfl⟩ := eq_of_cacheKey_eq hkey
    rfl
  · intro hkey
    obtain ⟨-, rfl, rfl⟩ := eq_of_cacheKey_eq hkey
    rfl

theorem lookup_sameInvocation {entries others : List (Text × Text × List Text)}
    (hentries : List.Forall₂ (SameInvocation generation other) entries others) (name : Text)
    (props : Props) :
    entries.lookup (cacheKey generation name props) =
      others.lookup (cacheKey other name props) := by
  induction hentries with
  | nil => rfl
  | @cons entry partner rest otherRest hsame _ ih =>
      obtain ⟨key, found⟩ := entry
      obtain ⟨otherKey, otherFound⟩ := partner
      obtain ⟨⟨known, knownProps, hkey, hotherKey⟩, hfound⟩ := hsame
      dsimp only at hkey hotherKey hfound
      subst hkey hotherKey hfound
      rw [List.lookup_cons, List.lookup_cons, ih]
      by_cases hkey : cacheKey generation name props = cacheKey generation known knownProps
      · rw [beq_iff_eq.mpr hkey, beq_iff_eq.mpr (sameKey_iff.mp hkey)]
      · rw [beq_eq_false_iff_ne.mpr hkey,
          beq_eq_false_iff_ne.mpr fun hother => hkey (sameKey_iff.mpr hother)]

theorem Renumbered.find? (hcaches : cache.Renumbered generation other partner) (name : Text)
    (props : Props) :
    cache.find? (cacheKey generation name props) = partner.find? (cacheKey other name props) :=
  lookup_sameInvocation hcaches.entries name props

theorem Renumbered.size (hcaches : cache.Renumbered generation other partner) :
    cache.size = partner.size := hcaches.entries.length_eq

theorem Renumbered.put (hcaches : cache.Renumbered generation other partner) (name : Text)
    (props : Props) (fragment : Text) (missing : List Text) :
    (cache.put (cacheKey generation name props) fragment missing).1 =
        (partner.put (cacheKey other name props) fragment missing).1 ∧
      (cache.put (cacheKey generation name props) fragment missing).2.Renumbered generation other
        (partner.put (cacheKey other name props) fragment missing).2 := by
  have hfound := hcaches.find? name props
  unfold Cache.put
  rw [← hfound]
  cases cache.find? (cacheKey generation name props) with
  | some stored => exact ⟨rfl, hcaches⟩
  | none =>
      refine ⟨rfl, ?_, hcaches.hits, hcaches.misses⟩
      apply List.rel_append hcaches.entries
      exact .cons ⟨⟨name, props, rfl, rfl⟩, rfl⟩ .nil

end Cache

/-! ## Runs of the resolver -/

structure Progress.Renumbered (generation other : Nat) (progress partner : Progress) : Prop where
  cache : progress.cache.Renumbered generation other partner.cache
  failures : progress.failures = partner.failures
  unresolved : progress.unresolved = partner.unresolved

section Runs

variable {templates : List (Text × Text)} {traced : Bool} {file : Text}
variable {progress partner : Progress}

namespace Progress.Renumbered

variable (hprogress : progress.Renumbered generation other partner)

include hprogress

theorem hit : progress.hit.Renumbered generation other partner.hit :=
  ⟨⟨hprogress.cache.entries, congrArg (· + 1) hprogress.cache.hits, hprogress.cache.misses⟩,
    hprogress.failures, hprogress.unresolved⟩

theorem missed : progress.missed.Renumbered generation other partner.missed :=
  ⟨⟨hprogress.cache.entries, hprogress.cache.hits, congrArg (· + 1) hprogress.cache.misses⟩,
    hprogress.failures, hprogress.unresolved⟩

theorem entered : progress.entered.Renumbered generation other partner.entered :=
  ⟨hprogress.missed.cache, hprogress.failures, rfl⟩

theorem noting (file : Text) (names : List Text) :
    (progress.noting file names).Renumbered generation other (partner.noting file names) := by
  refine ⟨hprogress.cache, ?_, ?_⟩
  · rw [Progress.noting, Progress.noting, hprogress.failures]
  · rw [Progress.noting, Progress.noting, hprogress.unresolved]

end Progress.Renumbered

/-- Replacing tags goes in parallel if the replacements do. -/
theorem parallel_replaceTags {Q : Progress → Progress → Prop}
    {replacement otherReplacement : Tag → Expansion (Option Text)} {found : List (Piece Tag)}
    (hstep : ∀ tag, Parallel Q (replacement tag) (otherReplacement tag)) :
    Parallel Q (replaceTags replacement found) (replaceTags otherReplacement found) := by
  induction found with
  | nil => exact parallel_pure _
  | cons piece rest ih =>
      cases piece with
      | plain c =>
          unfold replaceTags
          apply ih.bind
          exact fun text => parallel_pure _
      | found source tag =>
          unfold replaceTags
          split
          · apply ih.bind
            exact fun text => parallel_pure _
          · apply (hstep tag).bind
            intro new?
            apply ih.bind
            exact fun text => parallel_pure _

theorem parallel_finish (name : Text) (props : Props) (comments outer : List Text)
    (replaced : Text) (hprogress : progress.Renumbered generation other partner) :
    SideBySide Eq (Progress.Renumbered generation other)
      (finish ⟨⟨templates, generation⟩, traced, file⟩ name props comments outer replaced progress)
      (finish ⟨⟨templates, other⟩, traced, file⟩ name props comments outer replaced partner) := by
  have hafter : outer ++ progress.unresolved = outer ++ partner.unresolved :=
    congrArg (outer ++ ·) hprogress.unresolved
  unfold finish
  cases restoreComments comments replaced with
  | error fault => exact sideBySide_error ⟨hprogress.cache, hprogress.failures, hafter⟩
  | ok restored =>
      obtain ⟨hstored, hcache⟩ := hprogress.cache.put name props
        (if traced then Template.wrapFragment name restored else restored) progress.unresolved
      rw [← hprogress.unresolved]
      exact sideBySide_ok (congrArg some hstored) ⟨hcache, hprogress.failures, rfl⟩

/-- An invocation is resolved alike in two generations. The induction is on the room that is left. -/
theorem parallel_resolveWithin (room : Nat) (stack : List Text) (name : Text) (props : Props) :
    Parallel (Progress.Renumbered generation other)
      (resolveWithin ⟨⟨templates, generation⟩, traced, file⟩ room stack name props)
      (resolveWithin ⟨⟨templates, other⟩, traced, file⟩ room stack name props) := by
  induction room using Nat.strongRecOn generalizing stack name props with
  | _ room ih =>
      intro progress partner hprogress
      have hentry := hprogress.cache.find? name props
      by_cases hstack : name ∈ stack
      · rw [runFrom_resolveWithin_guarded hstack, runFrom_resolveWithin_guarded hstack]
        exact sideBySide_error hprogress
      cases hfound : progress.cache.find? (cacheKey generation name props) with
      | some entry =>
          rw [runFrom_resolveWithin_hit hstack hfound,
            runFrom_resolveWithin_hit hstack (hentry.symm.trans hfound)]
          exact sideBySide_ok rfl (hprogress.hit.noting file entry.2)
      | none =>
          have hmissing := hentry.symm.trans hfound
          cases htemplate : Library.template? ⟨templates, generation⟩ name with
          | none =>
              have hother : Library.template? ⟨templates, other⟩ name = none := htemplate
              rw [runFrom_resolveWithin_absent hstack hfound htemplate,
                runFrom_resolveWithin_absent hstack hmissing hother]
              exact sideBySide_ok rfl (hprogress.missed.noting file [name])
          | some template =>
              have hother : Library.template? ⟨templates, other⟩ name = some template := htemplate
              cases room with
              | zero =>
                  rw [runFrom_resolveWithin_full hstack hfound htemplate,
                    runFrom_resolveWithin_full hstack hmissing hother]
                  exact sideBySide_error hprogress.missed
              | succ lower =>
                  cases htext : instantiate template props with
                  | error fault =>
                      rw [runFrom_resolveWithin_faulty hstack hfound htemplate htext,
                        runFrom_resolveWithin_faulty hstack hmissing hother htext]
                      exact sideBySide_error hprogress.missed
                  | ok text =>
                      rw [runFrom_resolveWithin_present hstack hfound htemplate htext,
                        runFrom_resolveWithin_present hstack hmissing hother htext,
                        hprogress.unresolved]
                      refine (parallel_replaceTags (fun tag => ih lower (Nat.lt_succ_self lower)
                        _ tag.name _) _ _ hprogress.entered).andThen ?_
                      rintro replaced _ after otherAfter rfl hafter
                      exact parallel_finish name props _ _ replaced hafter

theorem parallel_render (globals : Props) (document : Text) :
    Parallel (Progress.Renumbered generation other)
      (render ⟨⟨templates, generation⟩, traced, file⟩ globals document)
      (render ⟨⟨templates, other⟩, traced, file⟩ globals document) := by
  intro progress partner hprogress
  cases htext : instantiate document globals with
  | error fault =>
      rw [runFrom_render_faulty htext, runFrom_render_faulty htext]
      exact sideBySide_error hprogress
  | ok text =>
      rw [runFrom_render_instantiated htext, runFrom_render_instantiated htext]
      refine (parallel_replaceTags (fun tag => parallel_resolveWithin _ [] tag.name _) _ _
        hprogress).andThen ?_
      rintro replaced _ after otherAfter rfl hafter
      exact ⟨alike_eq_iff.mpr rfl, hafter⟩

end Runs

/-! ## Sessions -/

namespace Session

variable {session partner : Session}

/-- Two sessions of one components directory. -/
structure Kindred (session partner : Session) : Prop where
  root : session.store.root = partner.store.root
  extensions : session.store.extensions = partner.store.extensions
  traced : session.traced = partner.traced

theorem Kindred.trans {third : Session} (hfirst : session.Kindred partner)
    (hthen : partner.Kindred third) : session.Kindred third :=
  ⟨hfirst.root.trans hthen.root, hfirst.extensions.trans hthen.extensions,
    hfirst.traced.trans hthen.traced⟩

/-- Two sessions that are the same but for the number of loads so far. -/
structure Renumbered (session partner : Session) : Prop extends session.Kindred partner where
  templates : session.store.library.templates = partner.store.library.templates
  cache : session.cache.Renumbered session.store.library.generation
    partner.store.library.generation partner.cache
  failures : session.failures = partner.failures

theorem Renumbered.render (hsessions : session.Renumbered partner) (document file : Text)
    (globals : Props) :
    SideBySide Eq Renumbered (session.render document file globals)
      (partner.render document file globals) := by
  obtain ⟨⟨root, extensions, templates, generation⟩, traced, cache, failures⟩ := session
  obtain ⟨⟨otherRoot, otherExtensions, otherTemplates, other⟩, otherTraced, otherCache,
    otherFailures⟩ := partner
  obtain ⟨⟨hroot, hextensions, htraced⟩, htemplates, hcache, hfailures⟩ := hsessions
  dsimp only at hroot hextensions htraced htemplates hcache hfailures
  subst hroot hextensions htraced htemplates hfailures
  have hrun := @parallel_render generation other templates traced file globals document
    ⟨cache, failures, []⟩ ⟨otherCache, failures, []⟩ ⟨hcache, rfl, rfl⟩
  exact ⟨hrun.result, ⟨rfl, rfl, rfl⟩, rfl, hrun.state.cache, hrun.state.failures⟩

/-- A session with the templates of a disk, which are one generation later than those before. -/
def loadedFrom (session : Session) (disk : Disk) : Session where
  store := { session.store with
    library := ⟨Store.templatesOn disk session.store.root session.store.extensions,
      session.store.library.generation + 1⟩ }
  traced := session.traced
  cache := Cache.empty
  failures := session.failures

theorem load?_eq (session : Session) (disk : Disk) :
    session.load? disk =
      if disk.isDirectory session.store.root then some (session.loadedFrom disk) else none := by
  rw [Session.load?, loadStore?, Store.load?]
  by_cases hroot : disk.isDirectory session.store.root = true
  · rw [if_pos hroot, if_pos hroot]
    rfl
  · rw [if_neg hroot, if_neg hroot]
    rfl

/-- After a reset and a load from the same disk two sessions are the same but for their number of
loads, whatever came before. -/
theorem Kindred.loadedFrom (hsessions : session.Kindred partner) (disk : Disk) :
    (session.reset.loadedFrom disk).Renumbered (partner.reset.loadedFrom disk) := by
  refine ⟨⟨hsessions.root, hsessions.extensions, hsessions.traced⟩, ?_,
    Cache.renumbered_empty _ _, rfl⟩
  change Store.templatesOn disk session.store.root session.store.extensions =
    Store.templatesOn disk partner.store.root partner.store.extensions
  rw [hsessions.root, hsessions.extensions]

end Session

end PageLoom.Component
