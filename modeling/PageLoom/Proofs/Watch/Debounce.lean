import Mathlib
import PageLoom.Proofs.Site.FullBuild
import PageLoom.Proofs.Site.Rebuild
import PageLoom.Proofs.Watch.Guard
import PageLoom.Proofs.Watch.History

/-!
# Bursts of component changes

A component change is passed over if it comes too soon after the last one that was let through. The
output then stays as it was built for that one, until the next one that is let through; after each
of those it is what a new builder builds.
-/

namespace PageLoom.Watch

open Component Site

variable {plan : Plan} {standpoint : Standpoint} {processors : Nat} {state : WatchState}
variable {change : Change} {changes : List Change}

/-- A change of a file in the components directory. Nothing else changes with it, and nothing in the
output. -/
structure EditsComponent (plan : Plan) (standpoint : Standpoint) (before : Disk) (change : Change) :
    Prop where
  place : ∃ location, change.path.resolve standpoint = .ok location ∧
    isWithin plan.components location = true
  elsewhere : ∀ place, (isWithin plan.components place = true → isWithin plan.output place = true) →
    Disk.entry? change.disk place = before.entry? place

/-- Whether a component change is let through, given when the last one was. -/
def letsThrough (plan : Plan) (standpoint : Standpoint) (lastRebuild : Nat) (change : Change) :
    Bool :=
  match change.path.resolve standpoint with
  | .error _ => false
  | .ok location => !(isScratch location || isWithin plan.output location) &&
      decide (lastRebuild + debounceDelay ≤ change.now)

theorem letsThrough_iff {location : Location} {lastRebuild : Nat}
    (hpath : change.path.resolve standpoint = .ok location) :
    letsThrough plan standpoint lastRebuild change = true ↔
      ¬Ignored plan location ∧ lastRebuild + debounceDelay ≤ change.now := by
  rw [letsThrough, hpath, Ignored, ← Bool.or_eq_true_iff]
  simp

/-- When the last component change was let through, and the disk at that time. -/
def latest (plan : Plan) (standpoint : Standpoint) (seen : Nat × Disk) (changes : List Change) :
    Nat × Disk :=
  changes.foldl (fun seen change =>
    if letsThrough plan standpoint seen.1 change then (change.now, change.disk) else seen) seen

/-! ## One change -/

section Step

variable (hroot : state.build.session.store.root = plan.components)
variable (hedits : EditsComponent plan standpoint state.build.disk change)

include hroot in
theorem touchesComponents_of_within {location : Location}
    (hcomponent : isWithin plan.components location = true) (destination : Option Path) :
    touchesComponents standpoint state location destination = .ok true := by
  apply if_pos
  rw [Store.owns, hroot, hcomponent]

include hroot hedits

theorem afterChange_passedOver
    (hthrough : letsThrough plan standpoint state.lastRebuild change = false) :
    state.afterChange plan standpoint processors change = state.withDisk change.disk := by
  obtain ⟨location, hpath, hcomponent⟩ := hedits.place
  have hsooner := mt (letsThrough_iff hpath).mpr (Bool.eq_false_iff.mp hthrough)
  unfold WatchState.afterChange
  by_cases hignored : Ignored plan location
  · rw [runFrom_handleChange_ignored hpath hignored]
  · have htouches : touchesComponents standpoint (state.withDisk change.disk) location
        change.destination = .ok true := touchesComponents_of_within hroot hcomponent _
    have hsoon : change.now < state.lastRebuild + debounceDelay :=
      Nat.not_le.mp fun hlate => hsooner ⟨hignored, hlate⟩
    rw [runFrom_handleChange_component hpath hignored htouches, state.lastRebuild_withDisk,
      if_pos hsoon]

theorem afterChange_letThrough
    (hthrough : letsThrough plan standpoint state.lastRebuild change = true) :
    state.afterChange plan standpoint processors change =
      (runFrom (rebuild plan processors) ((state.withDisk change.disk).dated change.now)).2 := by
  obtain ⟨location, hpath, hcomponent⟩ := hedits.place
  obtain ⟨hheeded, hlate⟩ := (letsThrough_iff hpath).mp hthrough
  have htouches : touchesComponents standpoint (state.withDisk change.disk) location
      change.destination = .ok true := touchesComponents_of_within hroot hcomponent _
  unfold WatchState.afterChange
  rw [runFrom_handleChange_component hpath hheeded htouches, state.lastRebuild_withDisk,
    if_neg (Nat.not_lt.mpr hlate)]
  rfl

end Step

/-- A rebuild leaves the disk that a new builder leaves. -/
theorem disk_rebuild (hfree : state.inFlight = false)
    (hkindred : plan.blankSession.Kindred state.build.session) :
    (runFrom (rebuild plan processors) state).2.build.disk =
      (runFrom (plan.build processors) (plan.initialState state.build.disk)).2.disk := by
  rw [build_rebuild hfree]
  exact (Plan.build_of_kindred processors hkindred).2

/-! ## Histories -/

/-- A watcher that shows, but for components outside the output, what a new builder builds from the
disk as it was at some time. -/
structure ShowsBuildOf (plan : Plan) (processors : Nat) (seen : Nat × Disk) (state : WatchState) :
    Prop where
  free : state.inFlight = false
  last : state.lastRebuild = seen.1
  kindred : plan.blankSession.Kindred state.build.session
  shown : ∀ place, (isWithin plan.components place = true → isWithin plan.output place = true) →
    Disk.entry? state.build.disk place =
      Disk.entry? (runFrom (plan.build processors) (plan.initialState seen.2)).2.disk place

namespace ShowsBuildOf

variable {seen : Nat × Disk}

/-- Whether it is let through or not, after a component change the output is that of the latest one
that was. -/
theorem afterChange (hshows : ShowsBuildOf plan processors seen state)
    (hedits : EditsComponent plan standpoint state.build.disk change) :
    ShowsBuildOf plan processors (latest plan standpoint seen [change])
      (state.afterChange plan standpoint processors change) := by
  have hroot : state.build.session.store.root = plan.components := hshows.kindred.root.symm
  rw [latest, List.foldl_cons, List.foldl_nil, ← hshows.last]
  cases hthrough : letsThrough plan standpoint state.lastRebuild change with
  | false =>
      rw [afterChange_passedOver hroot hedits hthrough, if_neg Bool.false_ne_true]
      exact {
        free := hshows.free
        last := hshows.last
        kindred := hshows.kindred
        shown := fun place hplace =>
          (hedits.elsewhere place hplace).trans (hshows.shown place hplace) }
  | true =>
      have hfree : ((state.withDisk change.disk).dated change.now).inFlight = false := hshows.free
      have hkindred : plan.blankSession.Kindred
          ((state.withDisk change.disk).dated change.now).build.session := hshows.kindred
      obtain ⟨hafter, hlast⟩ := @settled_rebuild plan processors _ hfree
      rw [afterChange_letThrough hroot hedits hthrough, if_pos rfl]
      refine ⟨hafter, hlast, ?_, ?_⟩
      · rw [build_rebuild hfree]
        exact Plan.preserves_build (lasting_kindred plan.blankSession) plan processors _ hkindred
      · intro place _
        rw [disk_rebuild hfree hkindred]
        rfl

/-- A history of component changes leaves the output that of the latest one let through. -/
theorem afterChanges (hshows : ShowsBuildOf plan processors seen state)
    (hhistory : History plan standpoint processors (EditsComponent plan standpoint) state changes) :
    ShowsBuildOf plan processors (latest plan standpoint seen changes)
      (state.afterChanges plan standpoint processors changes) := by
  induction changes generalizing state seen with
  | nil => exact hshows
  | cons change rest ih => exact ih (hshows.afterChange hhistory.1) hhistory.2

end ShowsBuildOf

end PageLoom.Watch
