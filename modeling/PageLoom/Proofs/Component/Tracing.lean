import PageLoom.Proofs.Component.History
import PageLoom.Proofs.Template.Markers
import PageLoom.Proofs.Template.Sealed

/-!
# Rendering with trace markers

Two sessions with the same history, of which only one writes trace markers, go side by side: they
look up and store the same keys, count the same names as missing and end with the same errors. Their
fragments differ by marker lines alone. So the markers can be stripped from a document that is
written with them, unless the document has markers of its own.
-/

namespace PageLoom.Component

open Scan Markup Template

/-- What two caches hold under a key: the same missing names, and fragments that differ by marker
lines, at least if the name of the component fits a line. -/
structure EntriesAgree (key : Text) (entry traced : Text × List Text) : Prop where
  missing : entry.2 = traced.2
  fragment : ∀ generation name props, key = cacheKey generation name props → FitsLine name →
    Annotated entry.1 traced.1

structure Cache.Twin (cache traced : Cache) : Prop where
  entries : ∀ key, Option.Rel (EntriesAgree key) (cache.find? key) (traced.find? key)
  hits : cache.hits = traced.hits
  misses : cache.misses = traced.misses

structure Progress.Twin (progress traced : Progress) : Prop where
  cache : progress.cache.Twin traced.cache
  failures : progress.failures = traced.failures
  unresolved : progress.unresolved = traced.unresolved

/-! ## Steps of an expansion -/

section Steps

theorem Cache.twin_empty : Cache.empty.Twin Cache.empty :=
  ⟨fun _ => .none, rfl, rfl⟩

/-- Both caches hold a fragment, or neither does. -/
theorem Cache.Twin.find? {cache traced : Cache} (htwin : cache.Twin traced) (key : Text) :
    (cache.find? key = none ∧ traced.find? key = none) ∨
      ∃ fragment tracedFragment missing, cache.find? key = some (fragment, missing) ∧
        traced.find? key = some (tracedFragment, missing) ∧
        EntriesAgree key (fragment, missing) (tracedFragment, missing) := by
  have hentries := htwin.entries key
  generalize cache.find? key = entry? at hentries ⊢
  generalize traced.find? key = traced? at hentries ⊢
  cases hentries with
  | none => exact .inl ⟨rfl, rfl⟩
  | @some entry traced hagree =>
      obtain ⟨fragment, missing⟩ := entry
      obtain ⟨tracedFragment, others⟩ := traced
      obtain rfl : missing = others := hagree.missing
      exact .inr ⟨fragment, tracedFragment, missing, rfl, rfl, hagree⟩

theorem Cache.Twin.put {cache traced : Cache} (htwin : cache.Twin traced) {name : Text}
    {fragment tracedFragment : Text} (hfragment : FitsLine name → Annotated fragment tracedFragment)
    (generation : Nat) (props : Props) (missing : List Text) :
    (FitsLine name → Annotated (cache.put (cacheKey generation name props) fragment missing).1
        (traced.put (cacheKey generation name props) tracedFragment missing).1) ∧
      (cache.put (cacheKey generation name props) fragment missing).2.Twin
        (traced.put (cacheKey generation name props) tracedFragment missing).2 := by
  rcases htwin.find? (cacheKey generation name props) with
    ⟨hnone, hnoneTraced⟩ | ⟨stored, tracedStored, names, hfound, hfoundTraced, hagree⟩
  · refine ⟨?_, ?_, ?_, ?_⟩
    · rwa [put_fst_of_absent hnone, put_fst_of_absent hnoneTraced]
    · intro key
      rw [find?_put, find?_put]
      by_cases hkey : key = cacheKey generation name props
      · rw [if_pos ⟨hkey, hnone⟩, if_pos ⟨hkey, hnoneTraced⟩]
        refine .some ⟨rfl, fun otherGeneration other otherProps hsame hfits => ?_⟩
        rw [← (eq_of_cacheKey_eq (hkey.symm.trans hsame)).2.1] at hfits
        exact hfragment hfits
      · rw [if_neg fun hboth => hkey hboth.1, if_neg fun hboth => hkey hboth.1]
        exact htwin.entries key
    · simp only [Cache.put, hnone, hnoneTraced, htwin.hits]
    · simp only [Cache.put, hnone, hnoneTraced, htwin.misses]
  · simp only [Cache.put, hfound, hfoundTraced]
    exact ⟨hagree.fragment generation name props rfl, htwin⟩

namespace Progress.Twin

variable {progress traced : Progress}

theorem hit (htwin : progress.Twin traced) : progress.hit.Twin traced.hit :=
  ⟨⟨htwin.cache.entries, congrArg (· + 1) htwin.cache.hits, htwin.cache.misses⟩, htwin.failures,
    htwin.unresolved⟩

theorem missed (htwin : progress.Twin traced) : progress.missed.Twin traced.missed :=
  ⟨⟨htwin.cache.entries, htwin.cache.hits, congrArg (· + 1) htwin.cache.misses⟩, htwin.failures,
    htwin.unresolved⟩

theorem entered (htwin : progress.Twin traced) : progress.entered.Twin traced.entered :=
  ⟨htwin.missed.cache, htwin.failures, rfl⟩

theorem noting (htwin : progress.Twin traced) (file : Text) (names : List Text) :
    (progress.noting file names).Twin (traced.noting file names) := by
  refine ⟨htwin.cache, ?_, ?_⟩
  · rw [Progress.noting, Progress.noting, htwin.failures]
  · rw [Progress.noting, Progress.noting, htwin.unresolved]

end Progress.Twin

end Steps

/-! ## Runs of the resolver -/

section Runs

variable {library : Library} {file : Text} {progress traced : Progress}

/-- Replacing tags by fragments with marker lines puts those lines where the tags are. -/
theorem sideBySide_replaceTags {replacement tracedReplacement : Tag → Expansion (Option Text)}
    {found : List (Piece Tag)} {start finish : Option Nat}
    (hstep : ∀ tag ∈ invoked found, ∀ progress traced : Progress, progress.Twin traced →
      SideBySide (Option.Rel Annotated) Progress.Twin (runFrom (replacement tag) progress)
        (runFrom (tracedReplacement tag) traced))
    (htwin : progress.Twin traced) (hfound : Threads none start found finish) :
    SideBySide (Interlined start · · finish) Progress.Twin
      (runFrom (replaceTags replacement found) progress)
      (runFrom (replaceTags tracedReplacement found) traced) := by
  induction found generalizing start progress traced with
  | nil => exact sideBySide_ok (by rw [show start = finish from hfound]; exact .nil) htwin
  | cons piece rest ih =>
      cases piece with
      | plain c =>
          obtain ⟨between, hadvance, hrest⟩ := hfound
          rw [runFrom_replaceTags_plain, runFrom_replaceTags_plain]
          exact (ih hstep htwin hrest).andThen fun _ _ _ _ htext hafter =>
            sideBySide_ok (.char hadvance htext) hafter
      | found source tag =>
          obtain ⟨rfl, hsource, hrest⟩ := hfound
          cases hvoid : isVoidElement tag.name with
          | true =>
              rw [invoked_void hvoid] at hstep
              rw [runFrom_replaceTags_void hvoid, runFrom_replaceTags_void hvoid]
              exact (ih hstep htwin hrest).andThen fun _ _ _ _ htext hafter =>
                sideBySide_ok ((interlined_of_leads hsource).append htext) hafter
          | false =>
              rw [invoked_tag hvoid] at hstep
              have htag := hstep tag (List.mem_cons_self ..) progress traced htwin
              rw [runFrom_replaceTags_tag hvoid, runFrom_replaceTags_tag hvoid]
              refine htag.andThen fun new? traced? between tracedBetween hnew hbetween => ?_
              have hothers := ih (fun other hmem => hstep other (List.mem_cons_of_mem _ hmem))
                hbetween hrest
              refine hothers.andThen fun _ _ _ _ htext hafter => sideBySide_ok ?_ hafter
              cases hnew with
              | none => exact (interlined_of_leads hsource).append htext
              | some hnew => exact hnew.append htext

/-- The end of an expansion stores fragments that differ by marker lines. -/
theorem sideBySide_finish {comments outer : List Text} {replaced tracedReplaced : Text}
    (hcomments : ∀ comment ∈ comments, Sealed none comment)
    (hreplaced : Annotated replaced tracedReplaced) (htwin : progress.Twin traced) (name : Text)
    (props : Props) :
    SideBySide (fun new? traced? => FitsLine name → Option.Rel Annotated new? traced?) Progress.Twin
      (finish ⟨library, false, file⟩ name props comments outer replaced progress)
      (finish ⟨library, true, file⟩ name props comments outer tracedReplaced traced) := by
  have hrestored := alike_restoreComments hcomments hreplaced
  unfold finish
  generalize restoreComments comments replaced = restored at hrestored ⊢
  generalize restoreComments comments tracedReplaced = tracedRestored at hrestored ⊢
  cases hrestored with
  | error =>
      exact sideBySide_error ⟨htwin.cache, htwin.failures, congrArg (outer ++ ·) htwin.unresolved⟩
  | ok hrestored =>
      obtain ⟨hstored, hcache⟩ := htwin.cache.put
        (fun hname => annotated_wrapFragment hname hrestored) library.generation props
        progress.unresolved
      rw [← htwin.unresolved]
      exact sideBySide_ok (fun hname => .some (hstored hname)) ⟨hcache, htwin.failures, rfl⟩

theorem fitsLine_of_mem {place : Place} {text : Text} {tag : Tag}
    (hmem : tag ∈ values (pieces (tagPattern place) text)) : FitsLine tag.name := by
  refine ⟨fun hline => ?_, not_mem_name hmem⟩
  have hpart := isNamePart_of_mem hmem _ hline
  unfold IsNamePart at hpart
  exact absurd hpart (by decide)

/-- What is done with the text of a component or a document, given that its tags are resolved. -/
theorem sideBySide_replaceTags_text {place : Place} {text : Text}
    {resolve tracedResolve : Tag → Expansion (Option Text)} (htext : Sealed none text)
    (hresolve : ∀ tag : Tag, SealedProps none (parseAttributes tag.attributes) →
      ∀ progress traced : Progress, progress.Twin traced →
        SideBySide (fun new? traced? => FitsLine tag.name → Option.Rel Annotated new? traced?)
          Progress.Twin (runFrom (resolve tag) progress) (runFrom (tracedResolve tag) traced))
    (htwin : progress.Twin traced) :
    SideBySide Annotated Progress.Twin
      (runFrom (replaceTags resolve (pieces (tagPattern place) (protectComments text).1)) progress)
      (runFrom (replaceTags tracedResolve (pieces (tagPattern place) (protectComments text).1))
        traced) := by
  obtain ⟨hguarded, -⟩ := sealed_protectComments htext (leavesRoom_none _)
  apply sideBySide_replaceTags ?_ htwin (threads_pieces (marked_tagPattern place) hguarded)
  intro tag hmem between tracedBetween hbetween
  have hvalue := (List.mem_filter.mp hmem).1
  have hprops := sealed_parseAttributes (sealed_attributes hguarded hvalue)
  exact (hresolve tag hprops between tracedBetween hbetween).imp fun _ _ hnew =>
    hnew (fitsLine_of_mem hvalue)

variable (hplain : ∀ entry ∈ library.templates, '\x00' ∉ entry.2)

include hplain in
/-- An invocation is resolved alike with and without marker lines. The induction is on the room that
is left, as the tags in a component are resolved with less. -/
theorem sideBySide_resolveWithin (room : Nat) (stack : List Text) (name : Text) {props : Props}
    (hprops : SealedProps none props) (htwin : progress.Twin traced) :
    SideBySide (fun new? traced? => FitsLine name → Option.Rel Annotated new? traced?) Progress.Twin
      (runFrom (resolveWithin ⟨library, false, file⟩ room stack name props) progress)
      (runFrom (resolveWithin ⟨library, true, file⟩ room stack name props) traced) := by
  induction room using Nat.strongRecOn generalizing stack name props progress traced with
  | _ room ih =>
      by_cases hstack : name ∈ stack
      · rw [runFrom_resolveWithin_guarded hstack, runFrom_resolveWithin_guarded hstack]
        exact sideBySide_error htwin
      rcases htwin.cache.find? (cacheKey library.generation name props) with
        ⟨hnone, hnoneTraced⟩ | ⟨fragment, tracedFragment, missing, hfound, hfoundTraced, hagree⟩
      · cases htemplate : library.template? name with
        | none =>
            rw [runFrom_resolveWithin_absent hstack hnone htemplate,
              runFrom_resolveWithin_absent hstack hnoneTraced htemplate]
            exact sideBySide_ok (fun _ => .none) (htwin.missed.noting file [name])
        | some template =>
            cases room with
            | zero =>
                rw [runFrom_resolveWithin_full hstack hnone htemplate,
                  runFrom_resolveWithin_full hstack hnoneTraced htemplate]
                exact sideBySide_error htwin.missed
            | succ lower =>
                cases htext : instantiate template props with
                | error fault =>
                    rw [runFrom_resolveWithin_faulty hstack hnone htemplate htext,
                      runFrom_resolveWithin_faulty hstack hnoneTraced htemplate htext]
                    exact sideBySide_error htwin.missed
                | ok text =>
                    have habsent := hplain _ (Library.mem_of_template? htemplate)
                    have hsealed := sealed_instantiate (sealed_of_not_mem habsent) hprops htext
                    have hcomments := (sealed_protectComments hsealed (leavesRoom_none _)).2
                    rw [runFrom_resolveWithin_present hstack hnone htemplate htext,
                      runFrom_resolveWithin_present hstack hnoneTraced htemplate htext,
                      htwin.unresolved]
                    apply (sideBySide_replaceTags_text hsealed ?_ htwin.entered).andThen
                    · exact fun _ _ _ _ hreplaced hafter =>
                        sideBySide_finish hcomments hreplaced hafter name props
                    · exact fun tag htag between tracedBetween hbetween =>
                        ih lower (Nat.lt_succ_self lower) _ tag.name htag hbetween
      · rw [runFrom_resolveWithin_hit hstack hfound, runFrom_resolveWithin_hit hstack hfoundTraced]
        exact sideBySide_ok (fun hname => .some (hagree.fragment _ name props rfl hname))
          (htwin.hit.noting file missing)

include hplain in
/-- A document is rendered alike with and without marker lines. -/
theorem sideBySide_render {globals : Props} {document : Text} (hdocument : '\x00' ∉ document)
    (hglobals : SealedProps none globals) (htwin : progress.Twin traced) :
    SideBySide Annotated Progress.Twin
      (runFrom (render ⟨library, false, file⟩ globals document) progress)
      (runFrom (render ⟨library, true, file⟩ globals document) traced) := by
  cases htext : instantiate document globals with
  | error fault =>
      rw [runFrom_render_faulty htext, runFrom_render_faulty htext]
      exact sideBySide_error htwin
  | ok text =>
      have hsealed := sealed_instantiate (sealed_of_not_mem hdocument) hglobals htext
      have hcomments := (sealed_protectComments hsealed (leavesRoom_none _)).2
      rw [runFrom_render_instantiated htext, runFrom_render_instantiated htext]
      apply (sideBySide_replaceTags_text hsealed ?_ htwin).andThen
      · exact fun _ _ _ _ hreplaced hafter =>
          ⟨(alike_restoreComments hcomments hreplaced).mapError, hafter⟩
      · exact fun tag htag between tracedBetween hbetween =>
          sideBySide_resolveWithin hplain _ [] tag.name htag hbetween

end Runs

/-! ## Sessions with the same history -/

def PlainProps (props : Props) : Prop := ∀ prop ∈ props, '\x00' ∉ prop.2.asText

def Call.Plain : Call → Prop
  | .resolve _ props _ => PlainProps props
  | .render document _ globals => '\x00' ∉ document ∧ PlainProps globals

/-- A history without NUL in what is called for, and in the templates that are loaded at any time of
it. -/
structure PlainHistory (root : Location) (extensions : List Text) (disk : Disk)
    (requests : List Request) : Prop where
  calls : ∀ call, .call call ∈ requests → call.Plain
  templates : ∀ past, past <+: requests →
    ∀ entry ∈ latestTemplates root extensions disk [] past, '\x00' ∉ entry.2

/-- A session without trace markers and one with them, which are the same otherwise. -/
structure Session.Twin (session traced : Session) : Prop where
  store : session.store = traced.store
  silent : session.traced = false
  marking : traced.traced = true
  cache : session.cache.Twin traced.cache
  failures : session.failures = traced.failures

section Sessions

variable {session traced : Session}

theorem Session.twin_ofStore (store : Store) : (ofStore store false).Twin (ofStore store true) :=
  ⟨rfl, rfl, rfl, Cache.twin_empty, rfl⟩

theorem Session.Twin.beginning (htwin : session.Twin traced) :
    session.beginning.Twin traced.beginning := ⟨htwin.cache, htwin.failures, rfl⟩

/-- What two sessions run side by side leaves them alike. -/
theorem Session.Twin.run {α : Type} {R : α → α → Prop} (htwin : session.Twin traced) {file : Text}
    {expansion : Setting → Expansion α}
    (hrun : SideBySide R Progress.Twin
      (runFrom (expansion ⟨session.store.library, false, file⟩) session.beginning)
      (runFrom (expansion ⟨session.store.library, true, file⟩) traced.beginning)) :
    SideBySide R Session.Twin (session.run file expansion) (traced.run file expansion) := by
  obtain ⟨store, mode, cache, failures⟩ := session
  obtain ⟨tracedStore, tracedMode, tracedCache, tracedFailures⟩ := traced
  obtain ⟨rfl, rfl, rfl, -, -⟩ := htwin
  exact ⟨hrun.result, rfl, rfl, rfl, hrun.state.cache, hrun.state.failures⟩

variable (hplain : ∀ entry ∈ session.store.library.templates, '\x00' ∉ entry.2)

include hplain in
theorem Session.Twin.render (htwin : session.Twin traced) {document : Text} {globals : Props}
    (hdocument : '\x00' ∉ document) (hglobals : PlainProps globals) (file : Text) :
    SideBySide Annotated Session.Twin (session.render document file globals)
      (traced.render document file globals) :=
  htwin.run (sideBySide_render hplain hdocument (sealedProps_of_plain hglobals) htwin.beginning)

include hplain in
theorem Session.Twin.afterCall (htwin : session.Twin traced) {call : Call} (hcall : call.Plain) :
    (session.afterCall call).Twin (traced.afterCall call) := by
  cases call with
  | resolve name props file =>
      exact (htwin.run (sideBySide_resolveWithin hplain _ [] name (sealedProps_of_plain hcall)
        htwin.beginning)).state
  | render document file globals => exact (htwin.render hplain hcall.1 hcall.2 file).state

include hplain in
/-- A request changes two such sessions alike, and the disk under them. -/
theorem Session.Twin.afterRequest (htwin : session.Twin traced) (disk : Disk) {request : Request}
    (hcall : ∀ call, request = .call call → call.Plain) :
    (Session.afterRequest (session, disk) request).1.Twin
        (Session.afterRequest (traced, disk) request).1 ∧
      (Session.afterRequest (session, disk) request).2 =
        (Session.afterRequest (traced, disk) request).2 := by
  cases request with
  | call call => exact ⟨htwin.afterCall hplain (hcall call rfl), rfl⟩
  | load =>
      refine ⟨?_, rfl⟩
      simp only [Session.afterRequest, Session.load?, Session.loadStore?, ← htwin.store]
      cases session.store.load? disk with
      | none => exact htwin
      | some store => exact ⟨rfl, htwin.silent, htwin.marking, Cache.twin_empty, htwin.failures⟩
  | loadStore =>
      refine ⟨?_, rfl⟩
      simp only [Session.afterRequest, Session.loadStore?, ← htwin.store]
      cases session.store.load? disk with
      | none => exact htwin
      | some store => exact ⟨rfl, htwin.silent, htwin.marking, htwin.cache, htwin.failures⟩
  | reset => exact ⟨⟨htwin.store, htwin.silent, htwin.marking, Cache.twin_empty, rfl⟩, rfl⟩
  | alter disk => exact ⟨htwin, rfl⟩

end Sessions

section Histories

variable {root : Location} {extensions : List Text} {disk : Disk} {requests : List Request}

theorem PlainHistory.of_append {others : List Request}
    (hplain : PlainHistory root extensions disk (requests ++ others)) :
    PlainHistory root extensions disk requests where
  calls call hmem := hplain.calls call (List.mem_append_left _ hmem)
  templates past hpast := hplain.templates past (hpast.trans (List.prefix_append ..))

theorem PlainHistory.library
    (hplain : PlainHistory root (extensions.map Text.lower) disk requests) (traced : Bool) :
    ∀ entry ∈ ((Session.ofRoot root extensions traced).afterRequests disk
      requests).store.library.templates, '\x00' ∉ entry.2 := by
  have htemplates := (@Session.store_afterRequests (Session.ofRoot root extensions traced) disk
    requests).2
  rw [htemplates]
  exact hplain.templates requests (List.prefix_refl _)

/-- The same history makes sessions that are the same but for the markers. -/
theorem twin_afterRequests
    (hplain : PlainHistory root (extensions.map Text.lower) disk requests) :
    ((Session.ofRoot root extensions false).afterRequests disk requests).Twin
      ((Session.ofRoot root extensions true).afterRequests disk requests) := by
  suffices hboth : (requests.foldl Session.afterRequest
      (Session.ofRoot root extensions false, disk)).1.Twin
        (requests.foldl Session.afterRequest (Session.ofRoot root extensions true, disk)).1 ∧
      (requests.foldl Session.afterRequest (Session.ofRoot root extensions false, disk)).2 =
        (requests.foldl Session.afterRequest (Session.ofRoot root extensions true, disk)).2 from
    hboth.1
  induction requests using List.reverseRecOn with
  | nil => exact ⟨Session.twin_ofStore _, rfl⟩
  | append_singleton past request ih =>
      have hlibrary := hplain.of_append.library false
      obtain ⟨htwin, hdisk⟩ := ih hplain.of_append
      rw [Session.afterRequests] at hlibrary
      rw [List.foldl_append, List.foldl_append]
      generalize past.foldl Session.afterRequest (Session.ofRoot root extensions false, disk) =
        run at hlibrary htwin hdisk ⊢
      generalize past.foldl Session.afterRequest (Session.ofRoot root extensions true, disk) =
        tracedRun at htwin hdisk ⊢
      obtain ⟨session, between⟩ := run
      obtain ⟨traced, tracedBetween⟩ := tracedRun
      obtain rfl : between = tracedBetween := hdisk
      exact htwin.afterRequest hlibrary between fun call hcall =>
        hplain.calls call (by simp [hcall])

end Histories

/-- How a call with trace markers goes, next to the same call without. -/
structure Transparent (plain traced : Except RenderError Text × Session) : Prop where
  stripped : ∀ text, plain.1 = .ok text → ¬startMarker <:+: text → ¬endMarker <:+: text →
    ∃ marked, traced.1 = .ok marked ∧ stripMarkers marked = text
  errors : ∀ error, plain.1 = .error error ↔ traced.1 = .error error
  failures : plain.2.failures = traced.2.failures
  hits : plain.2.cache.hits = traced.2.cache.hits
  misses : plain.2.cache.misses = traced.2.cache.misses

/-- Trace markers are transparent after any history without NUL. -/
theorem transparent_render {root : Location} {extensions : List Text} {disk : Disk}
    {requests : List Request} {document : Text} {globals : Props}
    (hplain : PlainHistory root (extensions.map Text.lower) disk requests)
    (hdocument : '\x00' ∉ document) (hglobals : PlainProps globals) (file : Text) :
    Transparent
      (((Session.ofRoot root extensions false).afterRequests disk requests).render document file
        globals)
      (((Session.ofRoot root extensions true).afterRequests disk requests).render document file
        globals) := by
  have hboth := (twin_afterRequests hplain).render (hplain.library false) hdocument hglobals file
  refine ⟨fun text htext hstart hend => ?_, hboth.result.error_iff, hboth.state.failures,
    hboth.state.cache.hits, hboth.state.cache.misses⟩
  obtain ⟨marked, hmarked, hannotated⟩ := hboth.result.exists_of_ok htext
  refine ⟨marked, hmarked, stripMarkers_of_annotated hannotated ?_⟩
  rintro marker (rfl | rfl)
  · exact hstart
  · exact hend

theorem plainHistory_rewriting :
    PlainHistory [['c']] ([['.', 'h']].map Text.lower) (nestedComponents 'y') rewriting where
  calls call hmem := by
    simp only [rewriting, List.mem_cons, Request.call.injEq, reduceCtorEq, List.not_mem_nil,
      false_or, or_false] at hmem
    rw [hmem]
    exact fun prop hprop => by cases hprop
  templates past hpast := by
    have hextensions : [['.', 'h']].map Text.lower = [['.', 'h']] := by decide +kernel
    have hroot : ∀ inner, (nestedComponents inner).isDirectory [['c']] = true := fun _ => rfl
    rw [hextensions]
    rw [rewriting, ← List.mem_inits] at hpast
    simp only [List.inits, List.map_cons, List.map_nil, List.mem_cons, List.not_mem_nil,
      or_false] at hpast
    rcases hpast with rfl | rfl | rfl | rfl | rfl <;>
      simp only [latestTemplates, hroot, templatesOn_nestedComponents (.inl rfl),
        templatesOn_nestedComponents (.inr rfl), if_true] <;>
      decide

/-- The document `<b/>` becomes `x<z/>`, with a fragment of `b` in it and one of `a` in that. -/
theorem transparent_render_rewriting :
    ∃ marked, (((Session.ofRoot [['c']] [['.', 'h']] true).afterRequests (nestedComponents 'y')
        rewriting).render "<b/>".toList ['g'] []).1 = .ok marked ∧
      stripMarkers marked = "x<z/>".toList := by
  have htransparent := @transparent_render [['c']] [['.', 'h']] (nestedComponents 'y') rewriting
    "<b/>".toList [] plainHistory_rewriting (by decide) (fun prop hprop => by cases hprop) ['g']
  apply htransparent.stripped "x<z/>".toList
  · rw [afterRequests_rewriting]
    decide +kernel
  · decide
  · decide

end PageLoom.Component
