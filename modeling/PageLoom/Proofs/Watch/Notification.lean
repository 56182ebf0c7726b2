import PageLoom.Proofs.Serve.PagePath
import PageLoom.Proofs.Site.Stopped
import PageLoom.Proofs.Watch.Ready

/-!
# Notices to the clients

A change ends in a rebuild, in the update of one file, or in neither. After a rebuild every client
is told, after an update those that show the page of the file, and else nobody; only a rebuild is
reported. A watcher that keeps what its calls answer does the same as one that does not.
-/

namespace PageLoom

/-! ## Clients that are told -/

namespace Serve

/-- A hub after the connected clients on some pages got one message more, which is their page. -/
def Hub.telling (hub : Hub) (shown : Text → Bool) : Hub :=
  ⟨hub.clients.map fun client =>
    if client.connected && shown client.page then
      { client with waiting := client.waiting ++ [some client.page] }
    else client⟩

theorem Hub.notify_none (hub : Hub) : (hub.notify none).2 = hub.telling fun _ => true := rfl

theorem Hub.notify_page (hub : Hub) {page : Text} (hpage : normalizePage page = page) :
    (hub.notify (some [page])).2 = hub.telling fun shown => shown = page := by
  have haffected : ∀ client, Client.isAffected (some [page]) client =
      (client.connected && decide (client.page = page)) := by
    intro client
    simp [Client.isAffected, hpage, eq_comm]
  simp only [notify, telling, haffected]

end Serve

open Serve

/-- The page of a file by its names below the output. -/
theorem normalizePage_textBelow {names : List Text} (hnames : ∀ name ∈ names, IsName name) :
    normalizePage ('/' :: textBelow names) = '/' :: textBelow names := by
  by_cases hsome : names = []
  · rw [hsome]
    rfl
  · rw [textBelow_of_ne_nil hsome, normalizePage_textOfNames hsome hnames]

theorem isName_of_resolve {standpoint : Standpoint} {text : Text} {location : Location}
    (hcurrent : ∀ name ∈ standpoint.current, IsName name)
    (hlocation : (Path.ofText text).resolve standpoint = .ok location) :
    ∀ name ∈ location, IsName name := by
  have hstart : ∀ name ∈ (Path.ofText text).start standpoint, IsName name := by
    unfold Path.start
    split
    · nofun
    · exact hcurrent
  unfold Path.resolve at hlocation
  split at hlocation
  · cases hlocation
  · cases hlocation
    exact fun name hmem => isName_of_mem_follow hstart hmem

namespace Watch

open Site

/-- What comes of a change: a rebuild, an update of the output of a file, or neither. -/
inductive Outcome where
  | rebuilt (report : BuildReport)
  | updated (source target : Location)
  | nothing

def Outcome.ofRebuild : Option BuildReport → Outcome
  | some report => .rebuilt report
  | none => .nothing

def Outcome.ofUpdate (source : Location) : Option Location → Outcome
  | some target => .updated source target
  | none => .nothing

/-- Deals with a change, and keeps what the rebuild or the update answers. -/
def answerChange (plan : Plan) (standpoint : Standpoint) (processors now : Nat)
    (kind : ChangeKind) (path : Path) (destination : Option Path) : WatchAction Outcome := do
  let location ← known (path.resolve standpoint)
  if isScratch location || isWithin plan.output location then return .nothing
  if ← known (touchesComponents standpoint (← get) location destination) then
    if now < (← get).lastRebuild + debounceDelay then return .nothing
    modify fun state => { state with lastRebuild := now }
    return .ofRebuild (← rebuild plan processors)
  else
    match kind with
    | .content => return .ofUpdate location (← updateFile plan location)
    | .deleted =>
      let _ ← building (plan.removeFile location)
      return .nothing
    | .moved =>
      let _ ← building (plan.removeFile location)
      match destination with
      | some destination =>
        let target ← known (destination.resolve standpoint)
        return .ofUpdate target (← updateFile plan target)
      | none => return .nothing

section Changes

variable {plan : Plan} {standpoint : Standpoint} {processors now : Nat} {kind : ChangeKind}
variable {path : Path} {destination : Option Path} {location : Location}
variable {state after : WatchState}

theorem handleChange_eq_answerChange :
    handleChange plan standpoint processors now kind path destination = (do
      let _ ← answerChange plan standpoint processors now kind path destination) := by
  unfold handleChange answerChange
  rw [bind_assoc]
  refine bind_congr fun location => ?_
  split
  · rfl
  · rw [bind_assoc]
    refine bind_congr fun current => ?_
    rw [bind_assoc]
    refine bind_congr fun touches => ?_
    split
    · rw [bind_assoc]
      refine bind_congr fun current => ?_
      split
      · rfl
      · simp only [bind_assoc, pure_bind]
    · cases kind with
      | content => simp only [bind_assoc, pure_bind]
      | deleted => simp only [bind_assoc, pure_bind]
      | moved => cases destination <;> simp only [bind_assoc, pure_bind]

/-- The file that a change asks to bring up to date. -/
def sourceOf? (standpoint : Standpoint) (path : Path) (destination : Option Path) :
    ChangeKind → Option (Except PathError Location)
  | .content => some (path.resolve standpoint)
  | .deleted => none
  | .moved => destination.map (Path.resolve standpoint)

/-- What is reported and told when a change comes to an outcome. The page of an updated file is its
path below the output, which is its path below the source. -/
def Announced (plan : Plan) (source? : Option (Except PathError Location))
    (state after : WatchState) : Outcome → Prop
  | .rebuilt report => after.reports = state.reports ++ [report] ∧
      after.hub = state.hub.map (·.telling fun _ => true)
  | .updated source target => source? = some (.ok source) ∧ ∃ below,
      source = plan.source ++ below ∧ target = plan.output ++ below ∧
      after.reports = state.reports ∧
      after.hub = state.hub.map (·.telling fun page => page = '/' :: textBelow below)
  | .nothing => after.reports = state.reports ∧ after.hub = state.hub

section Announced

variable {source? : Option (Except PathError Location)} {outcome : Outcome}

theorem Announced.of_same {earlier : WatchState} (hreports : state.reports = earlier.reports)
    (hhub : state.hub = earlier.hub) (hannounced : Announced plan source? state after outcome) :
    Announced plan source? earlier after outcome := by
  cases outcome with
  | rebuilt report => simpa only [Announced, hreports, hhub] using hannounced
  | updated source target => simpa only [Announced, hreports, hhub] using hannounced
  | nothing => simpa only [Announced, hreports, hhub] using hannounced

theorem announced_rebuild {report? : Option BuildReport}
    (hrun : runFrom (rebuild plan processors) state = (.ok report?, after)) :
    Announced plan source? state after (.ofRebuild report?) := by
  cases hguard : state.inFlight with
  | true =>
      rw [runFrom_rebuild_busy hguard] at hrun
      cases hrun
      exact ⟨rfl, rfl⟩
  | false =>
      rw [runFrom_rebuild hguard] at hrun
      cases hbuild : runFrom (plan.build processors) state.build with
      | mk result build =>
          rw [hbuild] at hrun
          cases result with
          | ok report =>
              cases hrun
              exact ⟨rfl, congrArg (state.hub.map ·) (funext Hub.notify_none)⟩
          | error error =>
              dsimp only at hrun
              split at hrun <;> cases hrun
              exact ⟨rfl, rfl⟩

theorem announced_updateFile {target? : Option Location}
    (hsource : source? = some (.ok location)) (hnames : ∀ name ∈ location, IsName name)
    (hrun : runFrom (updateFile plan location) state = (.ok target?, after)) :
    Announced plan source? state after (.ofUpdate location target?) := by
  cases hguard : state.inFlight with
  | true =>
      rw [runFrom_updateFile_busy hguard] at hrun
      cases hrun
      exact ⟨rfl, rfl⟩
  | false =>
      rw [runFrom_updateFile hguard] at hrun
      cases hupdate : runFrom (plan.processFile location) state.build with
      | mk result build =>
          rw [hupdate] at hrun
          cases result with
          | error error => cases hrun
          | ok answer? =>
              cases answer? with
              | none =>
                  cases hrun
                  exact ⟨rfl, rfl⟩
              | some target =>
                  cases hrun
                  have htarget := (plan.ends_processFile location).of_ok hupdate target rfl
                  obtain ⟨below, hbelow, rfl⟩ := Option.map_eq_some_iff.mp htarget
                  obtain rfl := below?_eq_some.mp hbelow
                  have hpage : pageOf plan (plan.output ++ below) = '/' :: textBelow below := by
                    rw [pageOf, below?_append, Option.getD_some]
                  have hnotify : ∀ hub : Hub,
                      (hub.notify (some [pageOf plan (plan.output ++ below)])).2 =
                        hub.telling fun page => page = '/' :: textBelow below := by
                    intro hub
                    rw [hpage, hub.notify_page (normalizePage_textBelow fun name hmem =>
                      hnames name (List.mem_append_right _ hmem))]
                  exact ⟨hsource, below, rfl, rfl, rfl, congrArg (state.hub.map ·) (funext hnotify)⟩

end Announced

theorem runFrom_known_bind_eq_ok {α β : Type} {result : Except PathError α}
    {next : α → WatchAction β} {answer : β} :
    runFrom (known result >>= next) state = (.ok answer, after) ↔
      ∃ value, result = .ok value ∧ runFrom (next value) state = (.ok answer, after) := by
  rw [runFrom_bind]
  cases result with
  | ok value => simp [runFrom_known_ok]
  | error error => simp [runFrom_known_error]

theorem runFrom_bind_pure_eq_ok {α β : Type} {action : WatchAction α} {answer : α → β} {value : β} :
    runFrom (action >>= fun found => pure (answer found)) state = (.ok value, after) ↔
      ∃ found, runFrom action state = (.ok found, after) ∧ answer found = value := by
  rw [runFrom_bind]
  cases runFrom action state with
  | mk result between => cases result <;> simp [runFrom_pure, and_comm]

theorem announced_answerChange {text : Text} {other? : Option Text} {outcome : Outcome}
    (hcurrent : ∀ name ∈ standpoint.current, IsName name)
    (hrun : runFrom (answerChange plan standpoint processors now kind (.ofText text)
      (other?.map .ofText)) state = (.ok outcome, after)) :
    Announced plan (sourceOf? standpoint (.ofText text) (other?.map .ofText) kind) state after
      outcome := by
  obtain ⟨location, hlocation, hrun⟩ := runFrom_known_bind_eq_ok.mp hrun
  split at hrun
  · cases hrun
    exact ⟨rfl, rfl⟩
  rw [runFrom_bind, runFrom_get, andThen_ok] at hrun
  obtain ⟨touches, -, hrun⟩ := runFrom_known_bind_eq_ok.mp hrun
  split at hrun
  · rw [runFrom_bind, runFrom_get, andThen_ok] at hrun
    split at hrun
    · cases hrun
      exact ⟨rfl, rfl⟩
    · have hdated : runFrom (modify fun state => { state with lastRebuild := now } :
          WatchAction PUnit) state = (.ok ⟨⟩, state.dated now) := rfl
      rw [runFrom_bind, hdated, andThen_ok] at hrun
      obtain ⟨report?, hrebuild, rfl⟩ := runFrom_bind_pure_eq_ok.mp hrun
      exact (announced_rebuild hrebuild).of_same rfl rfl
  · cases kind with
    | content =>
        obtain ⟨target?, hupdate, rfl⟩ := runFrom_bind_pure_eq_ok.mp hrun
        exact announced_updateFile (congrArg some hlocation)
          (isName_of_resolve hcurrent hlocation) hupdate
    | deleted =>
        rw [runFrom_bind, runFrom_building, plan.runFrom_removeFile] at hrun
        cases hrun
        exact ⟨rfl, rfl⟩
    | moved =>
        rw [runFrom_bind, runFrom_building, plan.runFrom_removeFile, andThen_ok] at hrun
        cases other? with
        | none =>
            cases hrun
            exact ⟨rfl, rfl⟩
        | some other =>
            obtain ⟨target, htarget, hrun⟩ := runFrom_known_bind_eq_ok.mp hrun
            obtain ⟨target?, hupdate, rfl⟩ := runFrom_bind_pure_eq_ok.mp hrun
            exact (announced_updateFile (congrArg some htarget)
              (isName_of_resolve hcurrent htarget) hupdate).of_same rfl rfl

/-- A change that a watcher deals with comes to one outcome. If everything was rebuilt, that is
reported once and told to all clients; if one file was updated, it is the file of the change or the
one that it was moved to, its output mirrors it, and those on its page are told. Else nothing is
reported and nobody told. -/
theorem announced_handleChange {text : Text} {other? : Option Text}
    (hcurrent : ∀ name ∈ standpoint.current, IsName name)
    (hrun : runFrom (handleChange plan standpoint processors now kind (.ofText text)
      (other?.map .ofText)) state = (.ok (), after)) :
    ∃ outcome, runFrom (answerChange plan standpoint processors now kind (.ofText text)
        (other?.map .ofText)) state = (.ok outcome, after) ∧
      Announced plan (sourceOf? standpoint (.ofText text) (other?.map .ofText) kind) state after
        outcome := by
  rw [handleChange_eq_answerChange] at hrun
  obtain ⟨outcome, houtcome, -⟩ := runFrom_bind_pure_eq_ok.mp hrun
  exact ⟨outcome, houtcome, announced_answerChange hcurrent houtcome⟩

end Changes

/-- A watcher with a client that shows the page of a file, one that shows another, and one that has
left. -/
def viewersWatcher : WatchState :=
  initialState builtPlan (loneBuilt "index.html".toList "new".toList "index.html".toList "hi".toList)
    (some ⟨[⟨1, "/index.html".toList, true, []⟩, ⟨2, "/other.html".toList, true, []⟩,
      ⟨3, "/index.html".toList, false, [none]⟩]⟩)

/-- The watcher after it was told that a draft has become the file of the page. -/
def viewersMoved : WatchState :=
  (runFrom (handleChange builtPlan atRoot 1 1000000 .moved (.ofText "site/draft.html".toList)
    (some (.ofText "site/index.html".toList))) viewersWatcher).2

theorem announced_moved :
    runFrom (answerChange builtPlan atRoot 1 1000000 .moved (.ofText "site/draft.html".toList)
        (some (.ofText "site/index.html".toList))) viewersWatcher =
      (.ok (.updated ["site".toList, "index.html".toList] ["out".toList, "index.html".toList]),
        viewersMoved) ∧
      viewersMoved.reports = [] ∧
      viewersMoved.hub = some ⟨[⟨1, "/index.html".toList, true, [some "/index.html".toList]⟩,
        ⟨2, "/other.html".toList, true, []⟩, ⟨3, "/index.html".toList, false, [none]⟩]⟩ := by
  have hrun : runFrom (handleChange builtPlan atRoot 1 1000000 .moved
      (.ofText "site/draft.html".toList) (some (.ofText "site/index.html".toList)))
      viewersWatcher = (.ok (), viewersMoved) := rfl
  have hanswer : runFrom (answerChange builtPlan atRoot 1 1000000 .moved
      (.ofText "site/draft.html".toList) (some (.ofText "site/index.html".toList)))
      viewersWatcher = (.ok (.updated ["site".toList, "index.html".toList]
        ["out".toList, "index.html".toList]), viewersMoved) := rfl
  obtain ⟨outcome, houtcome, hannounced⟩ := @announced_handleChange builtPlan atRoot 1 1000000
    .moved viewersWatcher viewersMoved "site/draft.html".toList (some "site/index.html".toList)
    nofun hrun
  cases hanswer.symm.trans houtcome
  obtain ⟨-, below, hsource, -, hreports, hhub⟩ := hannounced
  obtain rfl : ["index.html".toList] = below := (List.cons.inj hsource).2
  exact ⟨hanswer, hreports, hhub⟩

end Watch

end PageLoom
