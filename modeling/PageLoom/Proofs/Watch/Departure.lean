import PageLoom.Proofs.Watch.Debounce
import PageLoom.Proofs.Watch.Ready

/-!
# Files that went away

A file that was deleted, or moved somewhere else, leaves an output behind. A watcher removes it, and
then puts that of the new place, unless the old place is of no interest to it or one of the two is
that of a component: then it does nothing, or builds everything anew over what is there.
-/

namespace PageLoom.Watch

open Component Site Site.Plan Disk

variable {plan : Plan} {standpoint : Standpoint} {processors : Nat} {state : WatchState}
variable {templates : List (Text × Text)} {origin : Disk} {report : BuildReport}
variable {change : Change} {location : Location}

/-! ## The old place and the new one -/

/-- A component change that is let through leaves the disk that a new builder leaves. -/
theorem disk_afterChange_component (hready : Ready plan templates state)
    (hpath : change.path.resolve standpoint = .ok location) (hheeded : ¬Ignored plan location)
    (htouches : touchesComponents standpoint state location change.destination = .ok true)
    (hlate : state.lastRebuild + debounceDelay ≤ change.now) :
    (state.afterChange plan standpoint processors change).build.disk =
      (runFrom (plan.build processors) (plan.initialState change.disk)).2.disk := by
  have htouching : touchesComponents standpoint (state.withDisk change.disk) location
      change.destination = .ok true := htouches
  have hfree : ((state.withDisk change.disk).dated change.now).inFlight = false := hready.free
  have hkindred : plan.blankSession.Kindred
      ((state.withDisk change.disk).dated change.now).build.session :=
    hready.stocked.equipped.kindred
  rw [WatchState.afterChange, runFrom_handleChange_component hpath hheeded htouching,
    WatchState.lastRebuild_withDisk, if_neg (Nat.not_lt.mpr hlate)]
  exact disk_rebuild hfree hkindred

/-- An output that is removed stays away when another place is brought up to date. -/
theorem isFile_processFile {below : List Text} {target : Location} {build : BuildState}
    (hremoved : build.disk.isFile (plan.output ++ below) = false)
    (hapart : isWithin target (plan.source ++ below) = false) :
    (runFrom (plan.processFile target) build).2.disk.isFile (plan.output ++ below) = false := by
  rw [← isSome_bytesAt?] at hremoved ⊢
  rw [← hremoved]
  refine congrArg Option.isSome (keeps_processFile ?_ build)
  intro output houtput
  obtain ⟨other, hother, rfl⟩ := Option.map_eq_some_iff.mp houtput
  rw [below?_eq_some.mp hother] at hapart
  rw [Bool.eq_false_iff] at hapart ⊢
  intro hwithin
  apply hapart
  rw [isWithin_iff, List.prefix_append_right_inj] at hwithin ⊢
  exact hwithin

section Old

variable {below : List Text} (hready : Ready plan templates state)
variable (hpath : change.path.resolve standpoint = .ok (plan.source ++ below))
variable (hshown : change.disk.isFile (plan.output ++ below) = true)

include hready hpath hshown

/-- The output of the old place stays if the change is ignored, or taken for one of a component, or
if it is not known whether it is one. -/
theorem isFile_old_of_not_apart
    (hkept : ¬(¬Ignored plan (plan.source ++ below) ∧
      touchesComponents standpoint state (plan.source ++ below) change.destination =
        .ok false)) :
    (state.afterChange plan standpoint processors change).build.disk.isFile
      (plan.output ++ below) = true := by
  by_cases hignored : Ignored plan (plan.source ++ below)
  · rw [afterChange_ignored hpath hignored]
    exact hshown
  cases htouches : touchesComponents standpoint state (plan.source ++ below)
      change.destination with
  | error error =>
      rw [afterChange_error hpath hignored htouches]
      exact hshown
  | ok touches =>
      cases touches with
      | false => exact absurd ⟨hignored, htouches⟩ hkept
      | true =>
          have htouching : touchesComponents standpoint (state.withDisk change.disk)
              (plan.source ++ below) change.destination = .ok true := htouches
          have hfree : ((state.withDisk change.disk).dated change.now).inFlight = false :=
            hready.free
          rw [WatchState.afterChange, runFrom_handleChange_component hpath hignored htouching]
          split
          · exact hshown
          · change (runFrom (rebuild plan processors) _).2.build.disk.isFile _ = true
            rw [build_rebuild hfree]
            exact preserves_build (lasting_isFile (plan.output ++ below)) plan processors
              ((state.withDisk change.disk).dated change.now).build hshown

/-- The output of the old place is removed exactly if the watcher heeds the change and does not take
it for one of a component. -/
theorem isFile_old_iff (hkind : change.kind ≠ .content)
    (hmoved : ∀ destination target, change.destination = some destination →
      destination.resolve standpoint = .ok target →
        isWithin target (plan.source ++ below) = false) :
    (state.afterChange plan standpoint processors change).build.disk.isFile
        (plan.output ++ below) = false ↔
      ¬Ignored plan (plan.source ++ below) ∧
        touchesComponents standpoint state (plan.source ++ below) change.destination =
          .ok false := by
  constructor
  · intro hgone
    by_contra hkept
    rw [isFile_old_of_not_apart hready hpath hshown hkept] at hgone
    cases hgone
  · rintro ⟨hheeded, hapart⟩
    have hremoved := @isFile_withoutOutput plan _ change.disk _ (plan.outputOf?_append below)
    rw [build_afterChange hpath hheeded hapart hready.free]
    split
    · rename_i hcontent
      exact absurd hcontent hkind
    · rename_i target hmove hresolved
      obtain ⟨destination, hdestination, htarget⟩ := Option.map_eq_some_iff.mp hresolved
      exact isFile_processFile hremoved (hmoved destination target hdestination htarget)
    · exact hremoved

end Old

/-- The output of the new place is what a full build makes of it. -/
theorem entry?_new {destination : Path} {other : List Text} {bytes : Bytes}
    (hready : Ready plan templates state)
    (hpath : change.path.resolve standpoint = .ok location) (hheeded : ¬Ignored plan location)
    (hapart : touchesComponents standpoint state location change.destination = .ok false)
    (hkind : change.kind = .moved) (hdestination : change.destination = some destination)
    (htarget : destination.resolve standpoint = .ok (plan.source ++ other))
    (hbuildable : plan.Buildable change.disk)
    (htemplates : plan.templatesOn change.disk = templates)
    (hfaultless : plan.Faultless change.disk (plan.freshSession templates))
    (hmade : plan.made? templates change.disk other = some bytes)
    (hstaging : plan.isDocument (plan.source ++ other) = true →
      Fits (DiskAction.stagingOf (plan.output ++ other))) :
    Disk.entry? (state.afterChange plan standpoint processors change).build.disk
        (plan.output ++ other) =
      Disk.entry? (runFrom (plan.build processors) (plan.initialState change.disk)).2.disk
        (plan.output ++ other) := by
  subst htemplates
  obtain ⟨content, hcontent, hproduct⟩ := made?_eq_some.mp hmade
  have hreceives := @receives_withoutOutput plan location change.disk hbuildable _ _ hcontent
  have hremaining : Disk.entry? (plan.withoutOutput location change.disk) (plan.source ++ other) =
      some (.file content) := by
    rw [entry?_withoutOutput_of_apart, hcontent]
    exact not_isWithin_append hbuildable.inside hbuildable.outside other
  have hawaits : plan.Awaits (plan.templatesOn change.disk)
      (state.without plan location change.disk).build other content :=
    ⟨(hready.withDisk _).stocked, wellFormed_withoutOutput hbuildable.wellFormed, hreceives,
      hremaining⟩
  obtain ⟨after, hafter, -, hdisk⟩ := runFrom_processFile_product hawaits hproduct
    (hbuildable.copiesFit other _ hcontent) hbuildable.outside hbuildable.inside hstaging
  obtain ⟨filled, outcomes, fresh, later, hfresh, hperformed⟩ :=
    hbuildable.performed processors hfaultless
  rw [build_afterChange hpath hheeded hapart hready.free, hkind, hdestination, Option.map_some,
    htarget]
  dsimp only
  rw [hafter, hdisk, hfresh, entry?_withFile hawaits.wellFormed hreceives, if_pos rfl,
    hperformed.entry?_of_product hbuildable hcontent hproduct hstaging]

/-- After a full build and changes that concern no component, a deletion or a move that a watcher is
told of. The output of the old place is removed exactly if the place is neither ignored nor, like
the new one, that of a component. A change that is heeded leaves for the new place what a full build
makes of it: all of the disk is as after a full build if a component is touched, and otherwise the
new place is brought up to date if the file can be expanded or copied there. A change that is
ignored is not followed at all. -/
theorem departure_followed {first : WatchState} {earlier : List Change}
    (hfree : first.inFlight = false)
    (hbuilt : runFrom (plan.build processors) (plan.initialState origin) =
      (.ok report, first.build))
    (hearlier : ∀ other ∈ earlier, Aside plan standpoint other)
    (hpath : change.path.resolve standpoint = .ok location) (hkind : change.kind ≠ .content)
    (hlate : first.lastRebuild + debounceDelay ≤ change.now) :
    let start := first.afterChanges plan standpoint processors earlier
    let after := start.afterChange plan standpoint processors change
    let fresh := (runFrom (plan.build processors) (plan.initialState change.disk)).2
    let touches := touchesComponents standpoint start location change.destination
    (∀ below, location = plan.source ++ below →
      change.disk.isFile (plan.output ++ below) = true →
      (∀ destination target, change.destination = some destination →
        destination.resolve standpoint = .ok target → isWithin target location = false) →
      (after.build.disk.isFile (plan.output ++ below) = false ↔
        ¬Ignored plan location ∧ touches = .ok false)) ∧
    (¬Ignored plan location → touches = .ok true → after.build.disk = fresh.disk) ∧
    (¬Ignored plan location → touches = .ok false → change.kind = .moved →
      plan.Buildable change.disk → plan.templatesOn change.disk = plan.templatesOn origin →
      plan.Faultless change.disk (plan.freshSession (plan.templatesOn origin)) →
      ∀ destination other bytes, change.destination = some destination →
        destination.resolve standpoint = .ok (plan.source ++ other) →
        plan.made? (plan.templatesOn origin) change.disk other = some bytes →
        (plan.isDocument (plan.source ++ other) = true →
          Fits (DiskAction.stagingOf (plan.output ++ other))) →
        Disk.entry? after.build.disk (plan.output ++ other) =
          Disk.entry? fresh.disk (plan.output ++ other)) ∧
    (Ignored plan location → after = start.withDisk change.disk) := by
  obtain ⟨hready, hlast⟩ :=
    @Ready.afterChanges plan standpoint processors first _ earlier (ready_of_built hfree hbuilt)
      hearlier
  refine ⟨?_, ?_, ?_, afterChange_ignored hpath⟩
  · rintro below rfl hshown hmoved
    exact isFile_old_iff hready hpath hshown hkind hmoved
  · exact fun hheeded htouches =>
      disk_afterChange_component hready hpath hheeded htouches (hlast ▸ hlate)
  · intro hheeded hapart hmoved hbuildable htemplates hfaultless destination other bytes
      hdestination htarget hmade hstaging
    exact entry?_new hready hpath hheeded hapart hmoved hdestination htarget hbuildable
      htemplates hfaultless hmade hstaging

/-! ## A style sheet that is moved -/

/-- A watcher after a full build of a site that is one style sheet. -/
def sheetWatcher : WatchState := loneWatcher "a.css".toList "old".toList

theorem build_sheetWatcher : ∃ report,
    runFrom (builtPlan.build 1)
        (builtPlan.initialState (loneSite "a.css".toList "old".toList)) =
      (.ok report, sheetWatcher.build) := by
  have hended : (runFrom (builtPlan.build 1) (builtPlan.initialState
      (loneSite "a.css".toList "old".toList))).1.toOption.isSome = true := by
    cbv
  obtain ⟨report, hreport⟩ := Option.isSome_iff_exists.mp hended
  refine ⟨report, Prod.ext ?_ rfl⟩
  generalize (runFrom (builtPlan.build 1) _).1 = result at hreport
  cases result with
  | error error => cases hreport
  | ok value =>
      cases hreport
      rfl

/-- The site with the sheet at its new place. -/
def sheetArrived : Disk := loneBuilt "b.css".toList "old".toList "a.css".toList "old".toList

theorem wellFormed_sheetArrived : sheetArrived.WellFormed := by decide +kernel

theorem buildable_sheetArrived : builtPlan.Buildable sheetArrived := by
  apply buildable_builtPlan wellFormed_sheetArrived rfl rfl rfl
  · decide +kernel
  · decide +kernel
  · decide +kernel
  · decide +kernel

theorem faultless_sheetArrived (loaded : Session) : builtPlan.Faultless sheetArrived loaded := by
  have hnone : documents sheetArrived builtPlan.rule builtPlan.source = [] := by cbv
  intro session _ document hmem
  rw [hnone] at hmem
  cases hmem

theorem root_sheetWatcher : sheetWatcher.build.session.store.root = ["components".toList] := by
  obtain ⟨report, hbuilt⟩ := build_sheetWatcher
  exact (ready_of_built rfl hbuilt).root

/-- Neither place is that of a component. -/
theorem touchesComponents_sheetWatcher :
    touchesComponents atRoot sheetWatcher ["site".toList, "a.css".toList]
      (some ⟨[], ["site".toList, "b.css".toList]⟩) = .ok false := by
  rw [touchesComponents, Store.owns, root_sheetWatcher, if_neg (by decide +kernel)]
  rw [Store.ownsPath]
  have hlocated : Path.locate atRoot ⟨[], ["site".toList, "b.css".toList]⟩ =
      .ok ["site".toList, "b.css".toList] := by decide +kernel
  rw [hlocated]
  dsimp only
  rw [Store.owns, root_sheetWatcher]
  decide +kernel

/-- The output of the old place is gone, and that of the new one is what a full build makes. -/
theorem departure_followed_sheet :
    (sheetWatcher.afterChange builtPlan atRoot 1
        (moved sheetArrived "a.css".toList "b.css".toList)).build.disk.isFile
          ["out".toList, "a.css".toList] = false ∧
      Disk.entry? (sheetWatcher.afterChange builtPlan atRoot 1
          (moved sheetArrived "a.css".toList "b.css".toList)).build.disk
            ["out".toList, "b.css".toList] =
        Disk.entry? (runFrom (builtPlan.build 1) (builtPlan.initialState sheetArrived)).2.disk
            ["out".toList, "b.css".toList] := by
  obtain ⟨report, hbuilt⟩ := build_sheetWatcher
  have hpath : (moved sheetArrived "a.css".toList "b.css".toList).path.resolve atRoot =
      .ok ["site".toList, "a.css".toList] := by decide +kernel
  have htarget : Path.resolve atRoot ⟨[], ["site".toList, "b.css".toList]⟩ =
      .ok ["site".toList, "b.css".toList] := by decide +kernel
  have hheeded : ¬Ignored builtPlan ["site".toList, "a.css".toList] := by
    rintro (hscratch | hinside)
    · revert hscratch
      decide +kernel
    · revert hinside
      decide +kernel
  have htemplates : builtPlan.templatesOn sheetArrived =
      builtPlan.templatesOn (loneSite "a.css".toList "old".toList) := by cbv
  have hother : builtPlan.isDocument ["site".toList, "b.css".toList] = false := by decide +kernel
  obtain ⟨hold, -, hnew, -⟩ := @departure_followed builtPlan atRoot 1 _ report _ _ sheetWatcher []
    rfl hbuilt (fun _ hmem => absurd hmem List.not_mem_nil) hpath (by decide) (by decide +kernel)
  constructor
  · refine (hold ["a.css".toList] rfl (by decide +kernel) ?_).mpr
      ⟨hheeded, touchesComponents_sheetWatcher⟩
    intro destination target hdestination hresolved
    cases hdestination
    cases htarget.symm.trans hresolved
    decide +kernel
  · apply hnew hheeded touchesComponents_sheetWatcher rfl buildable_sheetArrived htemplates
      (faultless_sheetArrived _) _ ["b.css".toList] (Utf8.encode "old".toList) rfl htarget
    · exact made?_eq_some.mpr ⟨_, by decide +kernel, product?_other hother⟩
    · intro hdocument
      cases hother.symm.trans hdocument

/-- The site with a new sheet, while the output has the old one. -/
def sheetReplaced : Disk := loneBuilt "a.css".toList "new".toList "a.css".toList "old".toList

/-- A sheet that was saved under a scratch name is moved to its place: the output of the place still
has the old sheet, while a new builder puts the new one there. -/
theorem departure_not_followed_scratch :
    sheetWatcher.inFlight = false ∧
      (∃ report, runFrom (builtPlan.build 1)
          (builtPlan.initialState (loneSite "a.css".toList "old".toList)) =
        (.ok report, sheetWatcher.build)) ∧
      sheetWatcher.build.disk =
        loneBuilt "a.css".toList "old".toList "a.css".toList "old".toList ∧
      Disk.entry? (sheetWatcher.afterChange builtPlan atRoot 1
          (moved sheetReplaced ".a.css.tmp".toList "a.css".toList)).build.disk
            ["out".toList, "a.css".toList] = some (.file (Utf8.encode "old".toList)) ∧
      Disk.entry? (runFrom (builtPlan.build 1) (builtPlan.initialState sheetReplaced)).2.disk
            ["out".toList, "a.css".toList] = some (.file (Utf8.encode "new".toList)) := by
  refine ⟨rfl, build_sheetWatcher, ?_, ?_, ?_⟩
  · cbv
  · have hpath : (moved sheetReplaced ".a.css.tmp".toList "a.css".toList).path.resolve atRoot =
        .ok ["site".toList, ".a.css.tmp".toList] := by decide +kernel
    have hignored : Ignored builtPlan ["site".toList, ".a.css.tmp".toList] :=
      .inl (by decide +kernel)
    rw [afterChange_ignored hpath hignored]
    change Disk.entry? sheetReplaced _ = _
    decide +kernel
  · cbv

end PageLoom.Watch
