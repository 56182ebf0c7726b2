import PageLoom.Proofs.Site.Rebuild

/-!
# Builds that are stopped

A build looks for the source and loads the components before it changes anything on the disk. If one
of the two directories is not there it ends with an error that nothing later ends with, so that such
an error tells that the disk is as it was. All that is lost is what a reset forgets.
-/

namespace PageLoom.Site

/-- The errors of a directory that is not there. -/
def BuildError.IsMissing : BuildError → Prop
  | .sourceMissing _ | .componentsMissing _ => True
  | _ => False

namespace Plan

open BuildAction Component Disk

variable {plan : Plan} {state after : BuildState} {processors : Nat} {error : BuildError}

/-! ## What updates and renderings end with -/

theorem ends_renderFile (plan : Plan) (location : Location) :
    Ends (fun target => plan.outputOf? location = some target) (fun error => ¬error.IsMissing)
      (plan.renderFile location) := by
  unfold renderFile
  split
  · next htarget =>
    refine (ends_onDisk (fun _ => id) _).bind fun bytes _ => ?_
    split
    · exact ends_throw id
    · refine (ends_modifyGet _).bind fun rendered _ => ?_
      split
      · exact ends_throw id
      · exact (ends_onDisk (fun _ => id) _).bind fun _ _ => ends_pure htarget
  · exact ends_throw id

/-- An update answers with the place that mirrors its file. -/
theorem ends_refresh (plan : Plan) (location : Location) :
    Ends (fun target => plan.outputOf? location = some target) (fun error => ¬error.IsMissing)
      (plan.refresh location) := by
  unfold refresh
  split
  · exact (ends_modifyGet _).bind fun _ _ => plan.ends_renderFile location
  · split
    · exact ends_throw id
    · next htarget => exact (ends_onDisk (fun _ => id) _).bind fun _ _ => ends_pure htarget

theorem ends_renderPart (plan : Plan) (part : List Location) :
    Ends (fun _ => True) (fun error => ¬error.IsMissing) (plan.renderPart part) :=
  ends_mapM fun location =>
    (ends_attempt (plan.ends_renderFile location) _).bind fun _ _ => ends_pure trivial

theorem ends_renderParts (plan : Plan) (parts : List (List Location)) :
    Ends (fun _ => True) (fun error => ¬error.IsMissing) (plan.renderParts parts) := by
  induction parts with
  | nil => exact ends_pure trivial
  | cons part rest ih =>
      refine (ends_attempt (plan.ends_renderPart part) _).bind fun outcome houtcome => ?_
      refine (ends_attempt ih _).bind fun others hothers => ?_
      cases outcome with
      | error error => exact ends_throw houtcome
      | ok outcome =>
          cases others with
          | error error => exact ends_throw hothers
          | ok others => exact ends_pure trivial

theorem ends_processFile (plan : Plan) (location : Location) :
    Ends (fun target? => ∀ target, target? = some target → plan.outputOf? location = some target)
      (fun _ => True) (plan.processFile location) := by
  have hattempt : Ends
      (fun target? => ∀ target, target? = some target → plan.outputOf? location = some target)
      (fun _ => True) (plan.attemptRefresh location) := by
    have hrefresh : Ends (fun target => plan.outputOf? location = some target) (fun _ => True)
        (plan.refresh location) := (plan.ends_refresh location).weaken fun _ _ => trivial
    refine (ends_attempt hrefresh _).bind fun outcome houtcome => ?_
    cases outcome with
    | error error => exact ends_pure nofun
    | ok target =>
        refine ends_pure fun other hother => ?_
        cases hother
        exact houtcome
  rw [processFile_eq]
  split
  · exact ends_pure nofun
  · refine ends_get.bind fun state _ => ?_
    split
    · exact (ends_trivial plan.loadComponents).bind fun _ _ => hattempt
    · exact hattempt

/-! ## Builds -/

theorem find_eq_ok {disk : Disk} {location : Location} {found : Option Entry}
    (hfind : disk.find location = .ok found) : disk.entry? location = found := by
  rw [Disk.find] at hfind
  split at hfind
  · next hentry =>
    cases hfind
    exact hentry
  · next hentry =>
    split at hfind <;> cases hfind
    exact hentry

/-- A missing directory stops a build before the disk is changed: if it is the source nothing has
happened, and if it is that of the components the session was reset. -/
theorem stopped_build (hrun : runFrom (plan.build processors) state = (.error error, after))
    (hmissing : error.IsMissing) :
    error = .sourceMissing plan.source ∧ state.disk.isDirectory plan.source = false ∧
        after = state ∨
      error = .componentsMissing plan.components ∧
        state.disk.isDirectory state.session.store.root = false ∧ after = restarted state := by
  unfold Plan.build at hrun
  have hlook : runFrom (onDisk (DiskAction.look plan.source)) state =
      ((state.disk.find plan.source).mapError .disk, state) := by
    rw [runFrom_onDisk, DiskAction.look, runFrom_bind, runFrom_get, andThen_ok, runFrom_lift]
  rw [runFrom_bind, hlook] at hrun
  cases hfind : state.disk.find plan.source with
  | error failure =>
      rw [hfind] at hrun
      cases hrun
      exact hmissing.elim
  | ok found =>
      rw [hfind] at hrun
      have hentry := find_eq_ok hfind
      rw [Except.mapError, andThen_ok] at hrun
      split at hrun
      · have hreset : runFrom (modify fun state : BuildState =>
            { state with session := state.session.reset } : BuildAction PUnit) state =
              (.ok ⟨⟩, restarted state) := rfl
        rw [runFrom_bind, hreset, andThen_ok, runFrom_bind] at hrun
        rcases plan.loadComponents_cases (restarted state) with
          ⟨failure, hload⟩ | ⟨hroot, hload⟩ | ⟨-, hload⟩ <;> rw [hload] at hrun
        · cases hrun
          exact hmissing.elim
        · cases hrun
          exact .inr ⟨rfl, hroot, rfl⟩
        · -- the disk is changed from here on, and no directory is looked for again
          rw [andThen_ok] at hrun
          refine absurd hmissing (@Ends.of_error BuildError BuildState _ (fun _ => True)
            (fun error => ¬error.IsMissing) _ _ _ _ ?_ hrun)
          refine (ends_onDisk (fun _ => id) _).bind fun _ _ => ?_
          refine (ends_onDisk (fun _ => id) _).bind fun copied _ => ends_get.bind fun filled _ => ?_
          refine (plan.ends_renderParts _).bind fun outcomes _ => ends_get.bind fun done _ => ?_
          exact ends_pure trivial
      · next hother =>
        cases hrun
        refine .inl ⟨rfl, ?_, rfl⟩
        rw [Bool.eq_false_iff]
        intro hdirectory
        exact hother (hentry.symm.trans (isDirectory_iff.mp hdirectory))

end Plan

end PageLoom.Site
