import Mathlib
import PageLoom.Proofs.Site.Mirror
import PageLoom.Proofs.Watch.Ready

/-!
# Following the source

A watcher that is told of every change of a source file, one at a time, keeps the output as a full
build of the source would make it: each change makes the place of one file stale, or those of two if
the file was moved, and dealing with the change brings just these in step again.
-/

namespace PageLoom

namespace Site.Plan

open Disk

variable {plan : Plan} {templates : List (Text × Text)} {folder : List Text → Prop}
variable {disk : Disk} {below : List Text} {rest : List (List Text)}

/-- Removing the output of a file that is gone brings its place in step. -/
theorem Mirrors.withoutOutput (hmirrors : plan.Mirrors templates folder (below :: rest) disk)
    (houtside : isWithin plan.source plan.output = false)
    (hinside : isWithin plan.output plan.source = false)
    (hgone : disk.isFile (plan.source ++ below) = false) :
    plan.Mirrors templates folder rest (plan.withoutOutput (plan.source ++ below) disk) := by
  have hmade : plan.made? templates disk below = none := by
    rw [← isSome_bytesAt?, Option.isSome_eq_false_iff, Option.isNone_iff_eq_none] at hgone
    rw [made?, hgone]
    rfl
  rw [Plan.withoutOutput, outputOf?_append]
  dsimp only
  by_cases hfile : disk.isFile (plan.output ++ below) = true
  · obtain ⟨bytes, hbytes⟩ := isFile_iff.mp hfile
    have hnames := ne_nil_of_isFile_append hmirrors.output hfile
    rw [if_pos hfile]
    apply hmirrors.replaces houtside hinside (replaces_erase hmirrors.wellFormed hfile)
    · exact fun above habove => hmirrors.sorted.folders above
        (hmirrors.wellFormed.isDirectory_above hbytes hnames habove)
    · exact hmirrors.sorted.files below hfile
    · simp [hmade]
  · rw [if_neg hfile]
    apply hmirrors.settle
    rw [← isSome_bytesAt?, Option.not_isSome_iff_eq_none] at hfile
    simp [hfile, hmade]

end Site.Plan

namespace Watch

open Component Site Site.Plan Disk

variable {plan : Plan} {standpoint : Standpoint} {processors : Nat} {state : WatchState}
variable {templates : List (Text × Text)} {folder : List Text → Prop} {change : Change}
variable {changes : List Change}

/-! ## Changes of source files -/

/-- The files of the source are the same on two disks but for some. -/
def SameBut (plan : Plan) (changed : List (List Text)) (before after : Disk) : Prop :=
  ∀ below ∉ changed,
    bytesAt? (plan.source ++ below) after = bytesAt? (plan.source ++ below) before

/-- What happened to a source file, told as what it is: it was created or edited, deleted, or moved
to another place in the source, which is given by a path that leads there whether or not home
directories are looked up. -/
inductive Happened (plan : Plan) (standpoint : Standpoint) (before : Disk) (change : Change)
    (below : List Text) : Prop where
  | written (kind : change.kind = .content) (destination : change.destination = none)
      (there : change.disk.isFile (plan.source ++ below) = true)
      (others : SameBut plan [below] before change.disk)
  | deleted (kind : change.kind = .deleted) (destination : change.destination = none)
      (gone : change.disk.isFile (plan.source ++ below) = false)
      (others : SameBut plan [below] before change.disk)
  | moved (destination : Path) (target : List Text) (kind : change.kind = .moved)
      (told : change.destination = some destination)
      (resolves : destination.resolve standpoint = .ok (plan.source ++ target))
      (locates : destination.locate standpoint = .ok (plan.source ++ target))
      (gone : change.disk.isFile (plan.source ++ below) = false)
      (there : change.disk.isFile (plan.source ++ target) = true)
      (others : SameBut plan [below, target] before change.disk)

/-- A change of a source file without a scratch name. Other source files stay as they are, and the
output does. -/
structure AltersSource (plan : Plan) (standpoint : Standpoint) (before : Disk) (change : Change) :
    Prop where
  wellFormed : change.disk.WellFormed
  output : ∀ below,
    Disk.entry? change.disk (plan.output ++ below) = before.entry? (plan.output ++ below)
  file : ∃ below, change.path.resolve standpoint = .ok (plan.source ++ below) ∧
    isScratch (plan.source ++ below) = false ∧ Happened plan standpoint before change below

section Apart

variable (hcomponents : isWithin plan.components plan.source = false)
variable (hsource : isWithin plan.source plan.components = false)

include hcomponents hsource

/-- Where source and components are apart, no such change concerns a component. -/
theorem AltersSource.aside {before : Disk}
    (halters : AltersSource plan standpoint before change) : Aside plan standpoint change := by
  obtain ⟨below, hpath, -, hhappened⟩ := halters.file
  intro location hlocation
  cases hpath.symm.trans hlocation
  refine ⟨not_isWithin_append hcomponents hsource below, ?_⟩
  intro other target hother htarget
  cases hhappened with
  | written _ hdestination => cases hdestination.symm.trans hother
  | deleted _ hdestination => cases hdestination.symm.trans hother
  | moved destination moved _ htold _ hlocates =>
      cases htold.symm.trans hother
      cases hlocates.symm.trans htarget
      exact not_isWithin_append hcomponents hsource moved

theorem Happened.not_touches {before : Disk} {below : List Text}
    (hhappened : Happened plan standpoint before change below)
    (hready : Ready plan templates state) :
    touchesComponents standpoint state (plan.source ++ below) change.destination = .ok false := by
  have hlocation := not_isWithin_append hcomponents hsource below
  unfold touchesComponents
  rw [Store.owns, hready.root, hlocation, if_neg Bool.false_ne_true]
  cases hhappened with
  | written _ hdestination => rw [hdestination]
  | deleted _ hdestination => rw [hdestination]
  | moved destination target _ htold _ hlocates =>
      rw [htold]
      dsimp only
      rw [Store.ownsPath, hlocates]
      dsimp only
      rw [Store.owns, hready.root, not_isWithin_append hcomponents hsource target]

end Apart

/-! ## One change -/

/-- A builder whose output mirrors the source, which has the files that it has on some disk. -/
structure InStep (plan : Plan) (templates : List (Text × Text)) (folder : List Text → Prop)
    (disk : Disk) (state : BuildState) : Prop where
  mirrors : plan.Mirrors templates folder [] state.disk
  source : SameBut plan [] disk state.disk

/-- A ready watcher whose builder is in step. -/
structure Following (plan : Plan) (templates : List (Text × Text)) (folder : List Text → Prop)
    (disk : Disk) (state : WatchState) : Prop where
  ready : Ready plan templates state
  inStep : InStep plan templates folder disk state.build

section Steps

variable (houtside : isWithin plan.source plan.output = false)
variable (hinside : isWithin plan.output plan.source = false)

include houtside hinside

theorem sameBut_processFile (state : BuildState) (location : Location) :
    SameBut plan [] state.disk (runFrom (plan.processFile location) state).2.disk := by
  intro below _
  apply keeps_processFile
  intro target htarget
  obtain ⟨other, -, rfl⟩ := Option.map_eq_some_iff.mp htarget
  exact not_isWithin_append_left (not_isWithin_append hinside houtside below) other

variable (hacyclic : plan.Acyclic templates)

include hacyclic in
/-- The last stale place is dealt with by an update of the file that is there. -/
theorem inStep_processFile {disk : Disk} {build : BuildState} {below : List Text}
    (hstale : plan.Mirrors templates folder [below] build.disk)
    (hstocked : plan.Stocked templates build)
    (hkept : ∀ other, build.disk.entry? (plan.source ++ other) =
      disk.entry? (plan.source ++ other))
    (hsorted : disk.Sorted plan.source folder)
    (hthere : disk.isFile (plan.source ++ below) = true)
    (hrenders : plan.AllRender templates disk) :
    InStep plan templates folder disk
      (runFrom (plan.processFile (plan.source ++ below)) build).2 := by
  obtain ⟨content, hcontent⟩ := isFile_iff.mp hthere
  constructor
  · exact hstale.processFile houtside hinside hstocked hacyclic (hsorted.congr hkept)
      ((hkept below).trans hcontent) (hrenders below content hcontent)
  · intro other hother
    rw [sameBut_processFile houtside hinside build _ other hother, bytesAt?, hkept, ← bytesAt?]

variable (hcomponents : isWithin plan.components plan.source = false)
variable (hsource : isWithin plan.source plan.components = false)

include hacyclic hcomponents hsource

/-- A change of a source file is followed. -/
theorem Following.afterChange {disk : Disk}
    (hfollowing : Following plan templates folder disk state)
    (halters : AltersSource plan standpoint state.build.disk change)
    (hsorted : change.disk.Sorted plan.source folder)
    (hrenders : plan.AllRender templates change.disk) :
    Following plan templates folder change.disk
      (state.afterChange plan standpoint processors change) := by
  obtain ⟨hready, -⟩ := @Ready.afterChange plan standpoint processors state _ _ hfollowing.ready
    (halters.aside hcomponents hsource)
  refine ⟨hready, ?_⟩
  obtain ⟨below, hpath, hscratch, hhappened⟩ := halters.file
  have hheeded : ¬Ignored plan (plan.source ++ below) := by
    rintro (hignored | hignored)
    · rw [hscratch] at hignored
      cases hignored
    · rw [not_isWithin_append hinside houtside below] at hignored
      cases hignored
  have hapart := hhappened.not_touches hcomponents hsource hfollowing.ready
  have hkept : ∀ other, Disk.entry? (plan.withoutOutput (plan.source ++ below) change.disk)
      (plan.source ++ other) = Disk.entry? change.disk (plan.source ++ other) :=
    fun other => entry?_withoutOutput_of_apart (not_isWithin_append hinside houtside other)
  rw [build_afterChange hpath hheeded hapart hfollowing.ready.free]
  cases hhappened with
  | written hkind hdestination hthere hothers =>
      have hstale :=
        hfollowing.inStep.mirrors.change halters.wellFormed halters.output hothers
      rw [hkind]
      exact @inStep_processFile plan templates folder houtside hinside hacyclic _
        (state.withDisk change.disk).build below hstale (hfollowing.ready.withDisk _).stocked
        (fun _ => rfl) hsorted hthere hrenders
  | deleted hkind hdestination hgone hothers =>
      have hstale :=
        hfollowing.inStep.mirrors.change halters.wellFormed halters.output hothers
      rw [hkind]
      constructor
      · exact hstale.withoutOutput houtside hinside hgone
      · intro other _
        change bytesAt? _ (plan.withoutOutput (plan.source ++ below) change.disk) = _
        rw [bytesAt?, hkept, ← bytesAt?]
  | moved destination target hkind htold hresolves hlocates hgone hthere hothers =>
      have hstale :=
        hfollowing.inStep.mirrors.change halters.wellFormed halters.output hothers
      have hremoved := hstale.withoutOutput houtside hinside hgone
      rw [hkind, htold, Option.map_some, hresolves]
      exact @inStep_processFile plan templates folder houtside hinside hacyclic _
        (state.without plan (plan.source ++ below) change.disk).build target hremoved
        (hfollowing.ready.withDisk _).stocked hkept hsorted hthere hrenders

/-! ## Histories -/

/-- The disk as it is when a watcher is told of the last change. -/
def finalDisk (origin : Disk) (changes : List Change) : Disk :=
  changes.foldl (fun _ change => change.disk) origin

/-- A history of such changes is followed. -/
theorem Following.afterChanges {disk : Disk}
    (hfollowing : Following plan templates folder disk state)
    (hhistory : History plan standpoint processors (AltersSource plan standpoint) state changes)
    (hsorted : ∀ change ∈ changes, change.disk.Sorted plan.source folder)
    (hrenders : ∀ change ∈ changes, plan.AllRender templates change.disk) :
    Following plan templates folder (finalDisk disk changes)
      (state.afterChanges plan standpoint processors changes) := by
  induction changes generalizing state disk with
  | nil => exact hfollowing
  | cons change rest ih =>
      have hafter := @Following.afterChange plan standpoint processors state templates folder change
        houtside hinside hacyclic hcomponents hsource disk hfollowing hhistory.1
        (hsorted change (List.mem_cons_self ..)) (hrenders change (List.mem_cons_self ..))
      exact ih hafter hhistory.2 (fun other hmem => hsorted other (List.mem_cons_of_mem _ hmem))
        fun other hmem => hrenders other (List.mem_cons_of_mem _ hmem)

end Steps

/-- The disks that a history passes through, from the one that it begins with. -/
def disksOf (origin : Disk) (changes : List Change) : List Disk :=
  origin :: changes.map Change.disk

theorem finalDisk_mem (origin : Disk) (changes : List Change) :
    finalDisk origin changes ∈ disksOf origin changes := by
  induction changes generalizing origin with
  | nil => exact List.mem_cons_self ..
  | cons change rest ih => exact List.mem_cons_of_mem _ (ih change.disk)

/-- No place in the source is that of a file on one disk and that of a directory on another. -/
def Consistent (plan : Plan) (disks : List Disk) : Prop :=
  ∀ early ∈ disks, ∀ late ∈ disks, ∀ below, early.isFile (plan.source ++ below) = true →
    late.isDirectory (plan.source ++ below) = false

theorem Consistent.sorted {disks : List Disk} (hconsistent : Consistent plan disks) {disk : Disk}
    (hmem : disk ∈ disks) :
    disk.Sorted plan.source fun below =>
      ∃ other ∈ disks, other.isDirectory (plan.source ++ below) = true := by
  constructor
  · rintro below hfile ⟨other, hother, hdirectory⟩
    rw [hconsistent disk hmem other hother below hfile] at hdirectory
    cases hdirectory
  · exact fun below hdirectory => ⟨disk, hmem, hdirectory⟩

theorem allRender_of_sameBut {disk other : Disk} (hrenders : plan.AllRender templates disk)
    (hsame : SameBut plan [] disk other) : plan.AllRender templates other := by
  intro below content hcontent
  apply hrenders
  rw [← bytesAt?_eq_some, ← hsame below List.not_mem_nil, bytesAt?_eq_some, hcontent]

/-- After a full build into an empty output, a watcher follows. -/
theorem following_of_built {origin : Disk} {start : WatchState}
    (hbuildable : plan.Buildable origin) (hempty : plan.EmptyOutput origin)
    (hacyclic : plan.Acyclic (plan.templatesOn origin))
    (hrenders : plan.AllRender (plan.templatesOn origin) origin)
    (hsorted : origin.Sorted plan.source folder) (hfree : start.inFlight = false)
    (hbuilt : start.build = (runFrom (plan.build processors) (plan.initialState origin)).2) :
    Following plan (plan.templatesOn origin) folder origin start := by
  obtain ⟨report, built, hrun, hmirrors, -, hkept⟩ :=
    hbuildable.mirrors hempty hacyclic hrenders hsorted processors
  obtain rfl : start.build = built := by rw [hbuilt, hrun]
  exact ⟨ready_of_built hfree hrun, hmirrors, fun below _ => hkept below⟩

/-- What is in step with a source is what a full build of that source puts into an empty output:
the products of its files. -/
theorem InStep.eq_build {disk fresh : Disk} {state : BuildState}
    (hinStep : InStep plan (plan.templatesOn fresh) folder disk state)
    (hfresh : plan.Buildable fresh) (hempty : plan.EmptyOutput fresh)
    (hacyclic : plan.Acyclic (plan.templatesOn fresh))
    (hrenders : plan.AllRender (plan.templatesOn fresh) disk)
    (hsource : SameBut plan [] disk fresh) (processors : Nat) :
    ∃ report built,
      runFrom (plan.build processors) (plan.initialState fresh) = (.ok report, built) ∧
      ∀ below, bytesAt? (plan.output ++ below) state.disk =
          bytesAt? (plan.output ++ below) built.disk ∧
        bytesAt? (plan.output ++ below) built.disk =
          plan.made? (plan.templatesOn fresh) fresh below := by
  obtain ⟨report, built, hrun, -, houtput, -⟩ := hfresh.mirrors hempty hacyclic
    (allRender_of_sameBut hrenders hsource) (sorted_self fresh plan.source) processors
  refine ⟨report, built, hrun, fun below => ⟨?_, houtput below⟩⟩
  have hsame : bytesAt? (plan.source ++ below) fresh =
      bytesAt? (plan.source ++ below) state.disk :=
    (hsource below List.not_mem_nil).trans (hinStep.source below List.not_mem_nil).symm
  ext bytes
  rw [houtput, hinStep.mirrors.shown below List.not_mem_nil, ← made?_congr hsame]
  constructor
  · exact And.right
  · intro hmade
    obtain ⟨content, hcontent, -⟩ := made?_eq_some.mp hmade
    exact ⟨hfresh.copiesFit below _ hcontent, hmade⟩

/-- After a full build into an empty output, and any history of changes of source files that a
watcher is told of, the files under the output are those that a new builder puts into an empty
output for the source as it then is, and these are the products of the source files. -/
theorem updates_eq_build {origin fresh : Disk} {start : WatchState} {others : Nat}
    (hcomponents : isWithin plan.components plan.source = false)
    (hsource : isWithin plan.source plan.components = false)
    (hbuildable : plan.Buildable origin) (hempty : plan.EmptyOutput origin)
    (hacyclic : plan.Acyclic (plan.templatesOn origin))
    (hfree : start.inFlight = false)
    (hbuilt : start.build = (runFrom (plan.build processors) (plan.initialState origin)).2)
    (hhistory : History plan standpoint processors (AltersSource plan standpoint) start changes)
    (hconsistent : Consistent plan (disksOf origin changes))
    (hrenders : ∀ disk ∈ disksOf origin changes, plan.AllRender (plan.templatesOn origin) disk)
    (hfresh : plan.Buildable fresh) (hfreshEmpty : plan.EmptyOutput fresh)
    (htemplates : plan.templatesOn fresh = plan.templatesOn origin)
    (hfinal : SameBut plan [] (finalDisk origin changes) fresh) :
    ∃ report built,
      runFrom (plan.build others) (plan.initialState fresh) = (.ok report, built) ∧
      ∀ below, bytesAt? (plan.output ++ below)
            (start.afterChanges plan standpoint processors changes).build.disk =
          bytesAt? (plan.output ++ below) built.disk ∧
        bytesAt? (plan.output ++ below) built.disk =
          plan.made? (plan.templatesOn fresh) fresh below := by
  have hfirst : origin ∈ disksOf origin changes := List.mem_cons_self ..
  have hlater : ∀ change ∈ changes, change.disk ∈ disksOf origin changes :=
    fun change hmem => List.mem_cons_of_mem _ (List.mem_map_of_mem hmem)
  have hstart := following_of_built hbuildable hempty hacyclic (hrenders origin hfirst)
    (hconsistent.sorted hfirst) hfree hbuilt
  have hfollowing := hstart.afterChanges hbuildable.outside hbuildable.inside hacyclic
    hcomponents hsource hhistory (fun change hmem => hconsistent.sorted (hlater change hmem))
    fun change hmem => hrenders _ (hlater change hmem)
  have hlast := hrenders _ (finalDisk_mem origin changes)
  rw [← htemplates] at hacyclic hfollowing hlast
  exact hfollowing.inStep.eq_build hfresh hfreshEmpty hacyclic hlast hfinal others

/-! ## A page that is moved -/

/-- A site that is one page, at some place. -/
def noteSite (name : Text) : Disk := loneSite name "hi".toList

/-- A watcher after a full build of it. -/
def noteWatcher : WatchState := loneWatcher "index.html".toList "hi".toList

/-- The page is moved. -/
def noteMoved : Change :=
  moved (loneBuilt "about.html".toList "hi".toList "index.html".toList "hi".toList)
    "index.html".toList "about.html".toList

def noteDisks : List Disk := disksOf (noteSite "index.html".toList) [noteMoved]

theorem disk_noteWatcher : noteWatcher.build.disk =
    loneBuilt "index.html".toList "hi".toList "index.html".toList "hi".toList := by
  cbv

/-- The only file of the site is the page, at one of its two places. -/
theorem file_note {disk : Disk} (hmem : disk ∈ noteDisks) {below : List Text} {content : Bytes}
    (hcontent : disk.entry? (builtPlan.source ++ below) = some (.file content)) :
    (below = ["index.html".toList] ∨ below = ["about.html".toList]) ∧
      content = Utf8.encode "hi".toList := by
  have hone : ∀ name, Disk.entry? (noteSite name) (builtPlan.source ++ below) =
      some (.file content) → below = [name] ∧ content = Utf8.encode "hi".toList := by
    intro name hfound
    rw [noteSite, entry?_loneSite] at hfound
    split_ifs at hfound with hroot hname
    · cases hfound
    · exact ⟨hname, (Entry.file.inj (Option.some.inj hfound)).symm⟩
  rcases List.mem_cons.mp hmem with rfl | hmem
  · obtain ⟨hplace, hbytes⟩ := hone _ hcontent
    exact ⟨.inl hplace, hbytes⟩
  · rw [List.mem_singleton.mp hmem] at hcontent
    obtain ⟨hplace, hbytes⟩ := hone _ ((entry?_loneBuilt ..).symm.trans hcontent)
    exact ⟨.inr hplace, hbytes⟩

theorem altersSource_noteMoved :
    AltersSource builtPlan atRoot noteWatcher.build.disk noteMoved := by
  have hunder : noteMoved.disk.under builtPlan.output =
      noteWatcher.build.disk.under builtPlan.output := by
    rw [disk_noteWatcher]
    decide +kernel
  have hothers : SameBut builtPlan [["index.html".toList], ["about.html".toList]]
      noteWatcher.build.disk noteMoved.disk := by
    intro below hbelow
    have hindex : below ≠ ["index.html".toList] := fun hsame => hbelow (by simp [hsame])
    have habout : below ≠ ["about.html".toList] := fun hsame => hbelow (by simp [hsame])
    rw [disk_noteWatcher, noteMoved, moved, bytesAt?, bytesAt?, entry?_loneBuilt,
      entry?_loneBuilt, entry?_loneSite, entry?_loneSite, if_neg hindex, if_neg habout]
  constructor
  case wellFormed => decide +kernel
  case output =>
    exact fun below => entry?_of_under hunder (isWithin_iff.mpr (List.prefix_append ..))
  case file =>
    refine ⟨["index.html".toList], by decide +kernel, by decide +kernel, ?_⟩
    exact .moved _ ["about.html".toList] rfl rfl (by decide +kernel) (by decide +kernel)
      (by decide +kernel) (by decide +kernel) hothers

theorem consistent_noteDisks : Consistent builtPlan noteDisks := by
  have hplaces : ∀ disk ∈ noteDisks,
      disk.isDirectory ["site".toList, "index.html".toList] = false ∧
        disk.isDirectory ["site".toList, "about.html".toList] = false := by
    decide +kernel
  intro early hearly late hlate below hfile
  obtain ⟨content, hcontent⟩ := isFile_iff.mp hfile
  rcases (file_note hearly hcontent).1 with rfl | rfl
  · exact (hplaces late hlate).1
  · exact (hplaces late hlate).2

theorem allRender_noteDisks : ∀ disk ∈ noteDisks, builtPlan.AllRender [] disk := by
  intro disk hmem below content hcontent _
  obtain ⟨rfl | rfl, rfl⟩ := file_note hmem hcontent
  · refine ⟨⟨"hi".toList, [], "hi".toList, by decide +kernel, by cbv⟩, ?_, ?_⟩
    · exact ⟨by decide +kernel, by decide +kernel⟩
    · exact ⟨by decide +kernel, by decide +kernel⟩
  · refine ⟨⟨"hi".toList, [], "hi".toList, by decide +kernel, by cbv⟩, ?_, ?_⟩
    · exact ⟨by decide +kernel, by decide +kernel⟩
    · exact ⟨by decide +kernel, by decide +kernel⟩

theorem emptyOutput_noteSite (name : Text) : builtPlan.EmptyOutput (noteSite name) := by
  intro below _
  have houtput : builtPlan.output = ["out".toList] := rfl
  rw [houtput, entry?_of_ne (by simp), noteSite, loneSite]
  simp [List.lookup_cons]

theorem buildable_noteSite {name : Text}
    (hname : name = "index.html".toList ∨ name = "about.html".toList) :
    builtPlan.Buildable (noteSite name) := by
  obtain rfl | rfl := hname
  · apply buildable_builtPlan (by decide +kernel) rfl rfl rfl
    · decide +kernel
    · decide +kernel
    · decide +kernel
    · decide +kernel
  · apply buildable_builtPlan (by decide +kernel) rfl rfl rfl
    · decide +kernel
    · decide +kernel
    · decide +kernel
    · decide +kernel

/-- The page is where a new builder puts it, and nowhere else. -/
theorem updates_eq_build_noteMoved :
    ∃ report built, runFrom (builtPlan.build 2) (builtPlan.initialState
        (noteSite "about.html".toList)) = (.ok report, built) ∧
      (∀ below, bytesAt? (builtPlan.output ++ below)
          (noteWatcher.afterChanges builtPlan atRoot 1 [noteMoved]).build.disk =
        bytesAt? (builtPlan.output ++ below) built.disk) ∧
      bytesAt? ["out".toList, "about.html".toList] built.disk =
        some (Utf8.encode "hi".toList) ∧
      bytesAt? ["out".toList, "index.html".toList] built.disk = none := by
  have hindex : builtPlan.templatesOn (noteSite "index.html".toList) = [] := by cbv
  have habout : builtPlan.templatesOn (noteSite "about.html".toList) = [] := by cbv
  have hacyclic : builtPlan.Acyclic (builtPlan.templatesOn (noteSite "index.html".toList)) :=
    Session.acyclic_of_no_templates hindex
  have hrenders := allRender_noteDisks
  rw [← hindex] at hrenders
  have hfinal : SameBut builtPlan [] (finalDisk (noteSite "index.html".toList) [noteMoved])
      (noteSite "about.html".toList) := by
    intro below _
    change _ = bytesAt? _ (loneBuilt _ _ _ _)
    rw [bytesAt?, bytesAt?, entry?_loneBuilt, noteSite]
  have hhistory : History builtPlan atRoot 1 (AltersSource builtPlan atRoot) noteWatcher
      [noteMoved] := ⟨altersSource_noteMoved, trivial⟩
  have hbuilt : noteWatcher.build = (runFrom (builtPlan.build 1)
      (builtPlan.initialState (noteSite "index.html".toList))).2 := rfl
  obtain ⟨report, built, hrun, houtput⟩ := updates_eq_build (by decide) (by decide)
    (buildable_noteSite (.inl rfl)) (emptyOutput_noteSite _) hacyclic rfl hbuilt hhistory
    consistent_noteDisks hrenders (buildable_noteSite (.inr rfl)) (emptyOutput_noteSite _)
    (habout.trans hindex.symm) hfinal
  refine ⟨report, built, hrun, fun below => (houtput below).1, ?_, ?_⟩
  · exact (houtput ["about.html".toList]).2.trans (by cbv)
  · exact (houtput ["index.html".toList]).2.trans (by cbv)

end Watch

end PageLoom
