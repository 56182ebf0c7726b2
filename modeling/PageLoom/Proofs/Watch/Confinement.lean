import PageLoom.Proofs.Watch.Requests

/-!
# Confinement to the output

Whatever builders and watchers are asked for, by whatever paths, they touch the output directory and
its lock only. Outside of these nothing is put, changed or removed, but directories can be made
where the output is to lie and nothing is yet. An error changes nothing about that.

Disks are compared before and after a request. While a text is written, its staged file stands next
to its place, but it is gone when the request ends.
-/

namespace PageLoom

/-! ## Disks -/

namespace Disk

/-- Two disks differ in an output directory and its lock only, and in directories that are new above
it. -/
def ConfinedTo (output : Location) (before after : Disk) : Prop :=
  ∀ place, isWithin output place = false → place ≠ DiskAction.lockOf output →
    after.entry? place = before.entry? place ∨
      isWithin place output = true ∧ before.entry? place = none ∧
        after.entry? place = some .directory

variable {output : Location}

theorem confinedTo_refl (output : Location) (disk : Disk) : ConfinedTo output disk disk :=
  fun _ _ _ => .inl rfl

/-- No step in an output directory or at its lock leads out of them. -/
theorem spares_confinedTo (output : Location) (before : Disk) :
    Spares (Footprint.ofOutput output) (ConfinedTo output before) := by
  constructor
  intro between after hstep hconfined place houtside hlock
  have hnotBelow : ¬output <+: place := by
    rwa [← isWithin_iff, Bool.not_eq_true]
  have hbetween := hconfined place houtside hlock
  cases hstep with
  | makes hmakes hfree =>
      rename_i location
      have hnone : between.entry? location = none := by
        rw [← Option.not_isSome_iff_eq_none, ← exists?, hfree]
        exact Bool.false_ne_true
      have hlocation : location ≠ [] := by
        rintro rfl
        cases hnone
      rw [entry?_set _ hlocation]
      by_cases hplace : place = location
      · -- A directory that is made outside lies above the output, and nothing was there before.
        subst hplace
        rw [hnone] at hbetween
        have habove : place <+: output := hmakes.resolve_right hnotBelow
        rcases hbetween with hsame | ⟨-, -, hdirectory⟩
        · exact .inr ⟨isWithin_iff.mpr habove, hsame.symm, if_pos rfl⟩
        · cases hdirectory
      · rwa [if_neg hplace]
  | puts hputs hroom =>
      rename_i location bytes
      have hlocation : location ≠ [] := by
        rintro rfl
        cases hroom
      have hplace : place ≠ location := by
        rintro rfl
        exact hputs.elim hnotBelow hlock
      rwa [entry?_set _ hlocation, if_neg hplace]
  | removes hremoves hfile =>
      rename_i location
      have hplace : place ≠ location := by
        rintro rfl
        exact hnotBelow hremoves
      rwa [entry?_erase _ (ne_nil_of_isFile hfile), if_neg hplace]

end Disk

namespace Watch

open Disk Site

/-- Whatever is asked for, a watcher and its builder leave alone all that is neither in the output
directory nor its lock, but for directories that are made above the output where nothing was. -/
theorem confinedTo_afterRequests (plan : Plan) (standpoint : Standpoint) (processors : Nat)
    (state : WatchState) (requests : List Request) :
    Disk.ConfinedTo plan.output state.build.disk
      (state.afterRequests plan standpoint processors requests).build.disk := by
  have hspares : SparesLoading (Footprint.ofOutput plan.output) fun build =>
      Disk.ConfinedTo plan.output state.build.disk build.disk :=
    sparesLoading_disk (Disk.spares_confinedTo plan.output state.build.disk)
  exact spared_afterRequests hspares (Footprint.covers_ofOutput plan.output) standpoint processors
    requests state (Disk.confinedTo_refl plan.output state.build.disk)

end Watch

end PageLoom
