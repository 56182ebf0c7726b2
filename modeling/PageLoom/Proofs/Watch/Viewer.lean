import PageLoom.Proofs.Serve.Delivery
import PageLoom.Proofs.Serve.PagePath
import PageLoom.Proofs.Watch.Ready

/-!
# Viewers of a page

A browser that shows a page connects with the URL path of the page, and a watcher announces the page
by the place of its file. A viewer is told of an update of the file exactly if the URL path is
literal.
-/

namespace PageLoom.Watch

open Site Serve

variable {plan : Plan} {disk other : Disk} {state after : WatchState} {hub : Hub} {client : Client}
variable {path page : Text} {location file : Location} {id : Nat}

/-- A page that is served is announced by its names below the directory. -/
theorem pageOf_served (hdirectory : disk.isDirectory plan.output = true)
    (hserved : pageAt disk plan.output path = .ok (some file)) :
    pageOf plan file = '/' :: textOfNames (file.drop plan.output.length) := by
  obtain ⟨hfile, hplace⟩ := of_pageAt hserved
  obtain ⟨below, rfl⟩ : plan.output <+: file := by
    rcases hplace with hplace | ⟨-, hplace⟩
    · exact ⟨_, hplace.symm⟩
    · exact ⟨_, hplace.symm⟩
  rw [pageOf, below?_append, Option.getD_some, List.drop_left,
    textBelow_of_ne_nil (Disk.ne_nil_of_isFile_append hdirectory hfile)]

/-- An update that yields a file is told to the hub, and to nobody else. -/
theorem hub_of_updateFile
    (hupdated : runFrom (updateFile plan location) state = (.ok (some file), after)) :
    after.hub = state.hub.map fun hub => (hub.notify (some [pageOf plan file])).2 := by
  cases hguard : state.inFlight with
  | true =>
      rw [runFrom_updateFile_busy hguard] at hupdated
      cases hupdated
  | false =>
      rw [runFrom_updateFile hguard] at hupdated
      cases hrun : runFrom (plan.processFile location) state.build with
      | mk result build =>
          rw [hrun] at hupdated
          cases result with
          | error error => cases hupdated
          | ok target? =>
              cases target? with
              | none => cases hupdated
              | some target =>
                  cases hupdated
                  rfl

/-- A page that a browser sends for a path is told apart like the path. -/
theorem normalizePage_events
    (hevents : answer other plan.output ⟨"GET".toList, eventsTarget path⟩ = .ok (.events page)) :
    normalizePage page = normalizePage path := by
  have hpage : answerLive other plan.output (eventsTarget path) = .ok (.events page) := hevents
  rw [answerLive_eventsTarget] at hpage
  cases hpage
  split
  · next hnone =>
    rw [hnone]
    rfl
  · rfl

/-- A client is connected with the page that its browser has sent for the path of a served page. It
is told of an update of that page exactly if the path is literal, and ends with a slash only if it
leads to a directory. -/
theorem viewer_told_iff (hdirectory : disk.isDirectory plan.output = true)
    (hserved : pageAt disk plan.output path = .ok (some file))
    (hevents : answer other plan.output ⟨"GET".toList, eventsTarget path⟩ = .ok (.events page))
    (hhub : state.hub = some hub) (hclient : hub.client? id = some client)
    (hconnected : client.connected = true) (hpage : client.page = normalizePage page)
    (hupdated : runFrom (updateFile plan location) state = (.ok (some file), after)) :
    after.hub.bind (·.client? id) =
        some { client with waiting := client.waiting ++ [some client.page] } ↔
      IsLiteral path ∧ (endsWithSlash path = true → file ≠ servedLocation plan.output path) := by
  have hsame : client.page = normalizePage path := by
    rw [hpage, normalizePage_events hevents]
  have hnotified : after.hub.bind (·.client? id) =
      some (Hub.Client.respond client (.notify (some [pageOf plan file]))) := by
    rw [hub_of_updateFile hupdated, hhub]
    exact Hub.client?_respond hclient (.notify (some [pageOf plan file]))
  rw [hnotified, ← normalizePage_eq_served_iff hdirectory hserved,
    ← pageOf_served hdirectory hserved, ← hsame]
  by_cases hwanted : client.page = normalizePage (pageOf plan file)
  · have haffected : Hub.Client.isAffected (some [pageOf plan file]) client = true := by
      simp [Hub.Client.isAffected, hconnected, hwanted]
    rw [Hub.Client.respond, if_pos haffected]
    exact ⟨fun _ => hwanted, fun _ => rfl⟩
  · have hunaffected : ¬Hub.Client.isAffected (some [pageOf plan file]) client = true := by
      simp [Hub.Client.isAffected, Ne.symm hwanted]
    rw [Hub.Client.respond, if_neg hunaffected]
    refine ⟨fun hgrown => ?_, fun hliteral => absurd hliteral hwanted⟩
    have hlength :=
      congrArg (fun client? => client?.elim 0 fun client => client.waiting.length) hgrown
    simp at hlength

/-- A watcher of a site of one document, and one client that is connected with a page. -/
def viewedWatcher (name page : Text) : WatchState :=
  initialState builtPlan (loneBuilt name "hi".toList name "hi".toList)
    (some (Hub.empty.connect page).2)

/-- Viewers of a directory are told of an update of its index. -/
theorem viewer_told_index :
    pageAt (loneBuilt "index.html".toList "hi".toList "index.html".toList "hi".toList)
        builtPlan.output ['/'] = .ok (some ["out".toList, "index.html".toList]) ∧
      (runFrom (updateFile builtPlan ["site".toList, "index.html".toList])
        (viewedWatcher "index.html".toList ['/'])).1 = .ok (some ["out".toList, "index.html".toList]) ∧
      (runFrom (updateFile builtPlan ["site".toList, "index.html".toList])
          (viewedWatcher "index.html".toList ['/'])).2.hub.bind (·.client? 1) =
        some ⟨1, "/index.html".toList, true, [some "/index.html".toList]⟩ := by
  have hserved : pageAt (loneBuilt "index.html".toList "hi".toList "index.html".toList "hi".toList)
      builtPlan.output ['/'] = .ok (some ["out".toList, "index.html".toList]) := rfl
  have hupdated : runFrom (updateFile builtPlan ["site".toList, "index.html".toList])
      (viewedWatcher "index.html".toList ['/']) =
        (.ok (some ["out".toList, "index.html".toList]),
          (runFrom (updateFile builtPlan ["site".toList, "index.html".toList])
            (viewedWatcher "index.html".toList ['/'])).2) := rfl
  have hliteral : IsLiteral ['/'] := ⟨rfl, by decide, by decide⟩
  refine ⟨hserved, congrArg Prod.fst hupdated, ?_⟩
  have hevents : answer ⟨[]⟩ builtPlan.output ⟨"GET".toList, eventsTarget ['/']⟩ =
      .ok (.events ['/']) := rfl
  have hclient : (Hub.empty.connect ['/']).2.client? 1 =
      some ⟨1, "/index.html".toList, true, []⟩ := rfl
  exact (viewer_told_iff rfl hserved hevents rfl hclient rfl rfl hupdated).mpr
    ⟨hliteral, fun _ => by decide⟩

/-- Viewers of a page whose path has an encoded blank are not told of its update. -/
theorem viewer_not_told_encoded :
    pageAt (loneBuilt "a b.html".toList "hi".toList "a b.html".toList "hi".toList)
        builtPlan.output "/a%20b.html".toList = .ok (some ["out".toList, "a b.html".toList]) ∧
      answer (loneBuilt "a b.html".toList "hi".toList "a b.html".toList "hi".toList)
        builtPlan.output ⟨"GET".toList, eventsTarget "/a%20b.html".toList⟩ =
          .ok (.events "/a%20b.html".toList) ∧
      (runFrom (updateFile builtPlan ["site".toList, "a b.html".toList])
        (viewedWatcher "a b.html".toList "/a%20b.html".toList)).1 =
          .ok (some ["out".toList, "a b.html".toList]) ∧
      (runFrom (updateFile builtPlan ["site".toList, "a b.html".toList])
        (viewedWatcher "a b.html".toList "/a%20b.html".toList)).2.hub.bind (·.client? 1) =
          some ⟨1, "/a%20b.html".toList, true, []⟩ := by
  exact ⟨rfl, rfl, rfl, rfl⟩

end PageLoom.Watch
