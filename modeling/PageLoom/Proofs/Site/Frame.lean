import PageLoom.Proofs.Disk.Frame
import PageLoom.Proofs.Site.Footprint
import PageLoom.Proofs.Site.FullBuild

/-!
# What a build leaves alone

A build puts files under its output directory and next to it, where the lock goes, and nowhere else.
No place of the output is excluded by where the source is, so the output may lie beside the source,
in it or around it. A build that ends with an error leaves the same files alone.
-/

namespace PageLoom.Site

open Component Disk DiskAction BuildAction

variable {place : Location}

/-- The bytes of a file on the disk of a builder, if there is one. -/
def BuildState.bytesAt? (place : Location) (state : BuildState) : Option Bytes :=
  Disk.bytesAt? place state.disk

theorem not_isWithin_append_left {directory : Location}
    (hplace : isWithin directory place = false) (rest : List Text) :
    isWithin (directory ++ rest) place = false := by
  rw [Bool.eq_false_iff] at hplace ⊢
  intro hwithin
  exact hplace (isWithin_iff.mpr ((List.prefix_append ..).trans (isWithin_iff.mp hwithin)))

/-- A file that no step of a builder puts or removes stays what it is. -/
theorem sparesLoading_bytesAt? (place : Location) (bytes : Option Bytes) :
    SparesLoading (Footprint.sparing place) fun state =>
      BuildState.bytesAt? place state = bytes :=
  sparesLoading_disk (Disk.spares_bytesAt? place bytes)

namespace Plan

variable {plan : Plan}

theorem keeps_build (hplace : isWithin plan.output place = false)
    (hlock : lockOf plan.output ≠ place) (processors : Nat) :
    Keeps (BuildState.bytesAt? place) (plan.build processors) :=
  keeps_of_preserves fun bytes =>
    (sparesLoading_bytesAt? place bytes).build (Footprint.admits_sparing hplace) hlock processors

/-- A build creates, changes and removes no file that is neither under the output directory nor the
lock of that directory, however it ends. This holds of every file under the source directory too,
wherever the output directory is. -/
theorem bytesAt?_build (plan : Plan) (processors : Nat) (state : BuildState)
    (houtput : isWithin plan.output place = false) (hlock : place ≠ lockOf plan.output) :
    Disk.bytesAt? place (runFrom (plan.build processors) state).2.disk =
      Disk.bytesAt? place state.disk :=
  keeps_build houtput hlock.symm processors state

/-- The stylesheet of the small site survives a build into the site. -/
theorem bytesAt?_build_innerPlan :
    isWithin innerPlan.source ["site".toList, "style.css".toList] = true ∧
      isWithin innerPlan.source innerPlan.output = true ∧
      Disk.bytesAt? ["site".toList, "style.css".toList]
        (runFrom (innerPlan.build 1) (innerPlan.initialState smallSite)).2.disk =
          some (Utf8.encode "b".toList) := by
  refine ⟨by decide, by decide, ?_⟩
  rw [bytesAt?_build innerPlan 1 (innerPlan.initialState smallSite) (by decide) (by decide)]
  decide +kernel

end Plan

end PageLoom.Site
