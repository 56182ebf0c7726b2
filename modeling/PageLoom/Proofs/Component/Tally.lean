import PageLoom.Proofs.Component.History

/-!
# Tallies of missing components

The failure record counts, for each component and file, the invocations without template that a
full expansion meets. It makes no difference to the counts whether a fragment is expanded anew or
found in the cache, at any depth: with every fragment the cache keeps the names that are missing
in it, in the order of the expansion.
-/

namespace PageLoom.Component

namespace Failures

theorem count_cons (entry : FailureCount) (rest : Failures) (component file : Text) :
    count (entry :: rest) component file =
      if entry.component = component ∧ entry.file = file then entry.count
      else count rest component file := by
  by_cases hentry : entry.component = component ∧ entry.file = file
  · simp [count, hentry]
  · rw [if_neg hentry]
    simp [count, hentry]

/-- Recording a missing component counts it once, for its file alone. -/
theorem count_record (failures : Failures) (component file other otherFile : Text) :
    (failures.record component file).count other otherFile =
      failures.count other otherFile +
        if component = other ∧ file = otherFile then 1 else 0 := by
  induction failures with
  | nil =>
      rw [record, count_cons]
      simp [count]
  | cons entry rest ih =>
      rw [record]
      by_cases hentry : entry.component = component ∧ entry.file = file
      · rw [if_pos hentry, count_cons, count_cons, ← hentry.1, ← hentry.2]
        by_cases hsame : entry.component = other ∧ entry.file = otherFile
        · simp [hsame]
        · simp [hsame]
      · rw [if_neg hentry, count_cons, count_cons, ih]
        by_cases hsame : entry.component = other ∧ entry.file = otherFile
        · have hdiffer : ¬(component = other ∧ file = otherFile) := fun hboth =>
            hentry ⟨hsame.1.trans hboth.1.symm, hsame.2.trans hboth.2.symm⟩
          rw [if_pos hsame, if_pos hsame, if_neg hdiffer, Nat.add_zero]
        · rw [if_neg hsame, if_neg hsame]

theorem count_foldl_record (failures : Failures) (names : List Text)
    (file component otherFile : Text) :
    (names.foldl (fun failures name => failures.record name file) failures).count
        component otherFile =
      failures.count component otherFile +
        if file = otherFile then names.count component else 0 := by
  induction names generalizing failures with
  | nil => simp
  | cons name rest ih =>
      rw [List.foldl_cons, ih, count_record, List.count_cons]
      by_cases hfile : file = otherFile
      · by_cases hname : name = component
        · simp [hfile, hname]
          omega
        · simp [hfile, hname]
      · simp [hfile]

end Failures

/-- A call for a file raised the counts of that file by those of some names, and no others. -/
def CountsUp (file : Text) (missing : List Text) (before after : Session) : Prop :=
  ∀ component other, after.failures.count component other =
    before.failures.count component other + if other = file then missing.count component else 0

/-- What a session counts and keeps as missing is what the full expansions over some templates
meet. -/
structure TalliesExactly (session : Session) (templates : List (Text × Text)) (traced : Bool) :
    Prop where
  resolve : ∀ name props file fragment?, (session.resolve name props file).1 = .ok fragment? →
    ∃ missing, Expands unguarded templates traced (.invocation name props) fragment? missing ∧
      CountsUp file missing session (session.resolve name props file).2
  render : ∀ document file globals written,
    (session.render document file globals).1 = .ok written →
      ∃ missing, ExpandsDocument unguarded templates traced globals document written missing ∧
        CountsUp file missing session (session.render document file globals).2
  cached : ∀ key, session.cache.holds key = true → ∃ generation name props,
    key = cacheKey generation name props ∧ generation ≤ session.store.library.generation ∧
      (generation = session.store.library.generation → ∃ fragment,
        Expands unguarded templates traced (.invocation name props) (some fragment)
          (session.cache.missing key))

theorem countsUp_of_foldl {file : Text} {missing : List Text} {before after : Session}
    (hfailures : after.failures =
      missing.foldl (fun failures name => failures.record name file) before.failures) :
    CountsUp file missing before after := by
  intro component other
  rw [hfailures, Failures.count_foldl_record]
  by_cases hfile : file = other
  · rw [if_pos hfile, if_pos hfile.symm]
  · rw [if_neg hfile, if_neg fun hsame => hfile hsame.symm]

theorem Session.Sound.talliesExactly {session : Session} (hsound : session.Sound) :
    TalliesExactly session session.store.library.templates session.traced where
  resolve name props file fragment? hresolve := by
    obtain ⟨missing, hexpands, hfailures⟩ := hsound.resolve hresolve
    exact ⟨missing, hexpands.unguarded, countsUp_of_foldl hfailures⟩
  render document file globals written hrender := by
    obtain ⟨missing, ⟨text, htext, hbody⟩, hfailures⟩ := hsound.render hrender
    exact ⟨missing, ⟨text, htext, hbody.unguarded⟩, countsUp_of_foldl hfailures⟩
  cached key hheld := by
    obtain ⟨entry, hfound⟩ := Option.isSome_iff_exists.mp hheld
    obtain ⟨generation, name, props, hgeneration, hkey⟩ := hsound.known hfound
    refine ⟨generation, name, props, hkey, hgeneration, fun hcurrent => ⟨entry.1, ?_⟩⟩
    rw [hkey, hcurrent] at hfound
    rw [hkey, hcurrent, Cache.missing, hfound]
    exact (hsound.expands hfound).unguarded

/-- After any history the tallies are exact over the templates of the latest load. -/
theorem talliesExactly_afterRequests (root : Location) (extensions : List Text) (traced : Bool)
    (disk : Disk) (requests : List Request) :
    TalliesExactly ((Session.ofRoot root extensions traced).afterRequests disk requests)
      (latestTemplates root (extensions.map Text.lower) disk [] requests) traced := by
  have hsound := (Session.sound_ofStore (Store.ofRoot root extensions) traced).afterRequests
    disk requests
  obtain ⟨htraced, htemplates⟩ := @Session.store_afterRequests
    (Session.ofStore (Store.ofRoot root extensions) traced) disk requests
  have htallies := hsound.talliesExactly
  rw [htraced, htemplates] at htallies
  exact htallies

/-- The fragment of `b` is cached for one file, and its missing `z` is counted for another. -/
theorem talliesExactly_rewriting :
    ∃ missing, Expands unguarded (latestTemplates [['c']] ([['.', 'h']].map Text.lower)
        (nestedComponents 'y') [] (rewriting ++ [.call (.resolve ['b'] [] ['f'])])) false
        (.invocation ['b'] []) (some "x<z/>".toList) missing ∧
      CountsUp ['g'] missing
        ((Session.ofRoot [['c']] [['.', 'h']] false).afterRequests (nestedComponents 'y')
          (rewriting ++ [.call (.resolve ['b'] [] ['f'])]))
        (((Session.ofRoot [['c']] [['.', 'h']] false).afterRequests (nestedComponents 'y')
          (rewriting ++ [.call (.resolve ['b'] [] ['f'])])).resolve ['b'] [] ['g']).2 := by
  have htallies := talliesExactly_afterRequests [['c']] [['.', 'h']] false (nestedComponents 'y')
    (rewriting ++ [.call (.resolve ['b'] [] ['f'])])
  apply htallies.resolve
  rw [Session.afterRequests_call, afterRequests_rewriting]
  decide +kernel

end PageLoom.Component
