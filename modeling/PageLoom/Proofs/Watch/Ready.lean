import PageLoom.Proofs.Site.Update
import PageLoom.Proofs.Watch.Guard
import PageLoom.Proofs.Watch.History

/-!
# Watchers that are ready

A watcher whose builder has loaded and whose guard is free is so again after every change that
concerns no component: it removes the output of one place or brings that of one place up to date,
or does both for the two places of a file that was moved, and nothing else.
-/

namespace PageLoom.Watch

open Component Site Site.Plan Disk

variable {plan : Plan} {standpoint : Standpoint} {processors : Nat} {state : WatchState}
variable {templates : List (Text × Text)} {origin : Disk} {report : BuildReport}
variable {change : Change} {location : Location}

/-! ## Disks without an output -/

theorem entry?_withoutOutput (disk : Disk) (place : Location) :
    Disk.entry? (plan.withoutOutput location disk) place = disk.entry? place ∨
      plan.outputOf? location = some place ∧
        Disk.entry? (plan.withoutOutput location disk) place = none := by
  rw [Plan.withoutOutput]
  cases plan.outputOf? location with
  | none => exact .inl rfl
  | some target =>
      dsimp only
      by_cases hfile : disk.isFile target = true
      · rw [if_pos hfile, disk.entry?_erase (ne_nil_of_isFile hfile)]
        by_cases hplace : place = target
        · rw [if_pos hplace, hplace]
          exact .inr ⟨rfl, rfl⟩
        · rw [if_neg hplace]
          exact .inl rfl
      · rw [if_neg hfile]
        exact .inl rfl

theorem entry?_withoutOutput_of_apart {disk : Disk} {place : Location}
    (hplace : isWithin plan.output place = false) :
    Disk.entry? (plan.withoutOutput location disk) place = disk.entry? place := by
  rcases @entry?_withoutOutput plan location disk place with hkept | ⟨htarget, -⟩
  · exact hkept
  · obtain ⟨below, -, rfl⟩ := Option.map_eq_some_iff.mp htarget
    rw [isWithin_iff.mpr (List.prefix_append ..)] at hplace
    cases hplace

theorem wellFormed_withoutOutput {disk : Disk} (hdisk : disk.WellFormed) :
    (plan.withoutOutput location disk).WellFormed := by
  rw [Plan.withoutOutput]
  cases plan.outputOf? location with
  | none => exact hdisk
  | some target =>
      dsimp only
      split
      · rename_i hfile
        exact hdisk.erase hfile
      · exact hdisk

theorem isFile_withoutOutput {disk : Disk} {target : Location}
    (htarget : plan.outputOf? location = some target) :
    (plan.withoutOutput location disk).isFile target = false := by
  rw [Plan.withoutOutput, htarget]
  dsimp only
  by_cases hfile : disk.isFile target = true
  · rw [if_pos hfile, isFile, disk.entry?_erase (ne_nil_of_isFile hfile), if_pos rfl]
  · rw [if_neg hfile]
    exact Bool.eq_false_iff.mpr hfile

/-- Nothing is in the way of the output of a source file on a disk that can be built, nor is it when
another output was removed. -/
theorem receives_withoutOutput {disk : Disk} (hbuildable : plan.Buildable disk)
    {other : List Text} {content : Bytes}
    (hcontent : disk.entry? (plan.source ++ other) = some (.file content)) :
    (plan.withoutOutput location disk).Receives (plan.output ++ other) := by
  have hgone : ∀ place, disk.isFile place = false →
      (plan.withoutOutput location disk).isFile place = false := by
    intro place hplace
    rw [isFile]
    rcases entry?_withoutOutput disk place with hkept | ⟨-, hnone⟩
    · rwa [hkept, ← isFile]
    · rw [hnone]
  have hother := ne_nil_of_isFile_append hbuildable.source (isFile_iff.mpr ⟨content, hcontent⟩)
  apply receives_append hother
  · exact fun place habove => hgone place (hbuildable.clear place habove)
  · intro above habove
    apply hgone
    apply hbuildable.folders
    rw [← isDirectory_iff]
    exact hbuildable.wellFormed.isDirectory_above hcontent hother habove
  · have hfree := hbuildable.files other content hcontent
    rw [isDirectory]
    rcases entry?_withoutOutput disk (plan.output ++ other) with hkept | ⟨-, hnone⟩
    · rwa [hkept, ← isDirectory]
    · rw [hnone]
      rfl

/-! ## Ready watchers -/

/-- A watcher whose guard is free and whose builder has loaded some templates. -/
structure Ready (plan : Plan) (templates : List (Text × Text)) (state : WatchState) : Prop where
  free : state.inFlight = false
  stocked : plan.Stocked templates state.build

theorem ready_of_built (hfree : state.inFlight = false)
    (hbuilt : runFrom (plan.build processors) (plan.initialState origin) =
      (.ok report, state.build)) : Ready plan (plan.templatesOn origin) state :=
  ⟨hfree, @stocked_of_build plan (plan.initialState origin) state.build ⟨rfl, rfl, rfl⟩ _ _ hbuilt⟩

theorem Ready.root (hready : Ready plan templates state) :
    state.build.session.store.root = plan.components :=
  hready.stocked.equipped.kindred.root.symm

theorem Ready.withDisk (hready : Ready plan templates state) (disk : Disk) :
    Ready plan templates (state.withDisk disk) :=
  ⟨hready.free, hready.stocked.equipped, hready.stocked.loaded⟩

/-- A watcher on the disk of a change, with the output of a place removed. -/
def WatchState.without (state : WatchState) (plan : Plan) (location : Location) (disk : Disk) :
    WatchState :=
  state.withDisk (plan.withoutOutput location disk)

/-! ## One change -/

section Change

variable (hpath : change.path.resolve standpoint = .ok location)

include hpath

theorem afterChange_ignored (hignored : Ignored plan location) :
    state.afterChange plan standpoint processors change = state.withDisk change.disk := by
  rw [WatchState.afterChange, runFrom_handleChange_ignored hpath hignored]

variable (hheeded : ¬Ignored plan location)

include hheeded

theorem afterChange_error {error : PathError}
    (htouches : touchesComponents standpoint state location change.destination = .error error) :
    state.afterChange plan standpoint processors change = state.withDisk change.disk := by
  have htouching : touchesComponents standpoint (state.withDisk change.disk) location
      change.destination = .error error := htouches
  rw [WatchState.afterChange, runFrom_handleChange hpath hheeded, htouching]

variable (hapart : touchesComponents standpoint state location change.destination = .ok false)

include hapart

/-- All that a change does with the disk if no component is touched. -/
theorem build_afterChange (hfree : state.inFlight = false) :
    (state.afterChange plan standpoint processors change).build =
      match change.kind, change.destination.map (Path.resolve standpoint) with
      | .content, _ =>
        (runFrom (plan.processFile location) (state.withDisk change.disk).build).2
      | .moved, some (.ok target) =>
        (runFrom (plan.processFile target) (state.without plan location change.disk).build).2
      | _, _ => (state.without plan location change.disk).build := by
  have htouching : touchesComponents standpoint (state.withDisk change.disk) location
      change.destination = .ok false := hapart
  rw [WatchState.afterChange, runFrom_handleChange hpath hheeded, htouching]
  cases change.kind with
  | content => exact @build_updateFile _ _ (state.withDisk change.disk) hfree
  | deleted => rfl
  | moved =>
      cases change.destination.map (Path.resolve standpoint) with
      | none => rfl
      | some resolved =>
          cases resolved with
          | error error => rfl
          | ok target => exact @build_updateFile _ _ (state.without plan location change.disk) hfree

theorem settled_afterChange (hfree : state.inFlight = false) :
    (state.afterChange plan standpoint processors change).inFlight = false ∧
      (state.afterChange plan standpoint processors change).lastRebuild = state.lastRebuild := by
  have htouching : touchesComponents standpoint (state.withDisk change.disk) location
      change.destination = .ok false := hapart
  rw [WatchState.afterChange, runFrom_handleChange hpath hheeded, htouching]
  cases change.kind with
  | content => exact @settled_updateFile _ _ (state.withDisk change.disk) hfree
  | deleted => exact ⟨hfree, rfl⟩
  | moved =>
      cases change.destination.map (Path.resolve standpoint) with
      | none => exact ⟨hfree, rfl⟩
      | some resolved =>
          cases resolved with
          | error error => exact ⟨hfree, rfl⟩
          | ok target =>
              exact @settled_updateFile _ _ (state.without plan location change.disk) hfree

end Change

/-! ## Changes that concern no component -/

/-- A change of which neither place is that of a component. -/
def Aside (plan : Plan) (standpoint : Standpoint) (change : Change) : Prop :=
  ∀ location, change.path.resolve standpoint = .ok location →
    isWithin plan.components location = false ∧
      ∀ destination target, change.destination = some destination →
        destination.locate standpoint = .ok target → isWithin plan.components target = false

theorem Aside.not_touches (haside : Aside plan standpoint change)
    (hready : Ready plan templates state) (hpath : change.path.resolve standpoint = .ok location) :
    touchesComponents standpoint state location change.destination ≠ .ok true := by
  obtain ⟨hlocation, htarget⟩ := haside location hpath
  unfold touchesComponents
  rw [Store.owns, hready.root, hlocation, if_neg Bool.false_ne_true]
  cases hdestination : change.destination with
  | none => simp
  | some destination =>
      dsimp only
      rw [Store.ownsPath]
      cases hlocated : destination.locate standpoint with
      | error error => cases error <;> simp
      | ok target =>
          dsimp only
          rw [Store.owns, hready.root, htarget destination target hdestination hlocated]
          simp

/-- Such a change leaves the watcher ready, and no component change was let through. -/
theorem Ready.afterChange (hready : Ready plan templates state)
    (haside : Aside plan standpoint change) :
    Ready plan templates (state.afterChange plan standpoint processors change) ∧
      (state.afterChange plan standpoint processors change).lastRebuild = state.lastRebuild := by
  cases hpath : change.path.resolve standpoint with
  | error error =>
      rw [WatchState.afterChange, runFrom_handleChange_unresolved hpath]
      exact ⟨hready.withDisk change.disk, rfl⟩
  | ok location =>
      by_cases hheeded : Ignored plan location
      · rw [afterChange_ignored hpath hheeded]
        exact ⟨hready.withDisk change.disk, rfl⟩
      have htouches := haside.not_touches hready hpath
      cases hresult : touchesComponents standpoint state location change.destination with
      | error error =>
          rw [afterChange_error hpath hheeded hresult]
          exact ⟨hready.withDisk change.disk, rfl⟩
      | ok touches =>
          cases touches with
          | true => exact absurd hresult htouches
          | false =>
              obtain ⟨hfree, hlast⟩ := @settled_afterChange plan standpoint processors state
                change location hpath hheeded hresult hready.free
              refine ⟨⟨hfree, hready.stocked.of_outfit ?_⟩, hlast⟩
              have hloaded := hready.stocked.loaded
              rw [build_afterChange hpath hheeded hresult hready.free]
              split
              · exact @outfit_processFile plan (state.withDisk change.disk).build hloaded location
              · exact @outfit_processFile plan (state.without plan location change.disk).build
                  hloaded _
              · rfl

theorem Ready.afterChanges {changes : List Change} (hready : Ready plan templates state)
    (haside : ∀ change ∈ changes, Aside plan standpoint change) :
    Ready plan templates (state.afterChanges plan standpoint processors changes) ∧
      (state.afterChanges plan standpoint processors changes).lastRebuild = state.lastRebuild := by
  induction changes generalizing state with
  | nil => exact ⟨hready, rfl⟩
  | cons change rest ih =>
      obtain ⟨hafter, hlast⟩ := hready.afterChange (haside change (List.mem_cons_self ..))
      obtain ⟨hrest, hlater⟩ := ih hafter fun other hmem =>
        haside other (List.mem_cons_of_mem _ hmem)
      exact ⟨hrest, hlater.trans hlast⟩

/-! ## Sites of one file -/

/-- A site that has one file, of some name, and no component. -/
def loneSite (name content : Text) : Disk := ⟨[
  (["site".toList], .directory),
  (["site".toList, name], .file (Utf8.encode content)),
  (["components".toList], .directory)]⟩

/-- The site with an output that has one file as well. -/
def loneBuilt (name content target shown : Text) : Disk :=
  ⟨(loneSite name content).entries ++ [
    (["out.lock".toList], .file []),
    (["out".toList], .directory),
    (["out".toList, target], .file (Utf8.encode shown))]⟩

theorem entry?_loneSite (name content : Text) (below : List Text) :
    Disk.entry? (loneSite name content) (builtPlan.source ++ below) =
      if below = [] then some .directory
      else if below = [name] then some (.file (Utf8.encode content)) else none := by
  have hsource : builtPlan.source = ["site".toList] := rfl
  rw [hsource, entry?_of_ne (by simp), loneSite]
  simp only [List.lookup_cons, List.lookup_nil]
  cases below with
  | nil => simp
  | cons first rest =>
      by_cases hname : first :: rest = [name]
      · simp [hname]
      · simp [beq_eq_false_iff_ne.mpr hname, hname]

theorem entry?_loneBuilt (name content target shown : Text) (below : List Text) :
    Disk.entry? (loneBuilt name content target shown) (builtPlan.source ++ below) =
      Disk.entry? (loneSite name content) (builtPlan.source ++ below) :=
  entry?_of_under rfl (isWithin_iff.mpr (List.prefix_append ..))

/-- A watcher after a full build of such a site. -/
def loneWatcher (name content : Text) : WatchState :=
  { initialState builtPlan (loneSite name content) none with
    build := (runFrom (builtPlan.build 1) (builtPlan.initialState (loneSite name content))).2 }

/-- A file is moved to another place in the site, as a watcher is told one second later. -/
def moved (disk : Disk) (source target : Text) : Change where
  disk := disk
  now := 1000000
  kind := .moved
  path := ⟨[], ["site".toList, source]⟩
  destination := some ⟨[], ["site".toList, target]⟩

/-- What has to be looked up on a disk to see that it can be built. -/
theorem buildable_builtPlan {disk : Disk} (hdisk : disk.WellFormed)
    (hsource : disk.isDirectory ["site".toList] = true)
    (hcomponents : disk.isDirectory ["components".toList] = true)
    (hclear : disk.isFile ["out".toList] = false)
    (hlock : disk.isDirectory (DiskAction.lockOf ["out".toList]) = false)
    (hfits : ∀ entry ∈ disk.entries, entry.1.head? = some "site".toList →
      pathSize ("out".toList :: entry.1.tail) ≤ pathLimit ∧
        ∀ name ∈ "out".toList :: entry.1.tail, isOverlong name = false)
    (hfolders : ∀ entry ∈ disk.entries, entry.1.head? = some "site".toList →
      entry.2 = .directory → disk.isFile ("out".toList :: entry.1.tail) = false)
    (hfiles : ∀ entry ∈ disk.entries, entry.1.head? = some "site".toList →
      entry.2 ≠ .directory → disk.isDirectory ("out".toList :: entry.1.tail) = false) :
    builtPlan.Buildable disk := by
  have hmem : ∀ below entry, disk.entry? (builtPlan.source ++ below) = some entry →
      ("site".toList :: below, entry) ∈ disk.entries :=
    fun below entry hfound => hdisk.mem_iff.mpr ⟨by simp, hfound⟩
  constructor
  case lockFits => exact ⟨by decide +kernel, by decide +kernel⟩
  case copiesFit =>
    intro below entry hfound
    exact ⟨(hfits _ (hmem below entry hfound) rfl).1, (hfits _ (hmem below entry hfound) rfl).2⟩
  case toUnobstructed =>
    constructor
    case wellFormed => exact hdisk
    case source => exact hsource
    case components => exact hcomponents
    case outside => decide
    case inside => decide
    case clear =>
      intro place hprefixed
      rcases List.prefix_cons_iff.mp hprefixed with rfl | ⟨rest, rfl, hrest⟩
      · rfl
      · rw [List.prefix_nil.mp hrest, hclear]
    case lockFree => exact hlock
    case folders => exact fun below hfound => hfolders _ (hmem below _ hfound) rfl rfl
    case files =>
      exact fun below bytes hfound => hfiles _ (hmem below _ hfound) rfl (by simp)

end PageLoom.Watch
