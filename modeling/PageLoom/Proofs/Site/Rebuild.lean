import PageLoom.Proofs.Component.Generation
import PageLoom.Proofs.Site.Lasting
import PageLoom.Proofs.Site.Loading
import PageLoom.Proofs.Site.Requests

/-!
# Builds without a past

A build begins with a reset and a load, so nothing of what a builder did before shows in it. From
any state of a builder it ends with the same report or error, and leaves the same disk, as the build
of a new builder on the same disk.
-/

namespace PageLoom.Site

open BuildAction Component Disk DiskAction

/-- Two builders on the same disk, with sessions that belong together. -/
structure BuildState.Beside (R : Session → Session → Prop) (state partner : BuildState) : Prop where
  disk : state.disk = partner.disk
  session : R state.session partner.session

variable {α : Type} {R : Session → Session → Prop} {state partner : BuildState}

/-- What is done on the disk alone is done in parallel. -/
theorem parallel_onDisk (action : DiskAction α) :
    Parallel (BuildState.Beside R) (onDisk action) (onDisk action) := by
  intro state partner hbeside
  rw [runFrom_onDisk, runFrom_onDisk, hbeside.disk]
  exact ⟨alike_eq_iff.mpr rfl, rfl, hbeside.session⟩

theorem parallel_attempt {action : BuildAction α}
    (haction : Parallel (BuildState.Beside R) action action) (handled : BuildError → Bool) :
    Parallel (BuildState.Beside R) (attempt handled action) (attempt handled action) := by
  intro state partner hbeside
  have hrun := haction state partner hbeside
  rw [runFrom_attempt, runFrom_attempt]
  generalize runFrom action state = run at hrun ⊢
  generalize runFrom action partner = other at hrun ⊢
  obtain ⟨result, after⟩ := run
  obtain ⟨otherResult, otherAfter⟩ := other
  obtain ⟨hresult, hafter⟩ := hrun
  obtain rfl := alike_eq_iff.mp hresult
  cases result with
  | ok value => exact sideBySide_ok rfl hafter
  | error error =>
      cases hhandled : handled error with
      | true => simpa only [hhandled, if_true] using sideBySide_ok rfl hafter
      | false => simpa only [hhandled, Bool.false_eq_true, if_false] using sideBySide_error hafter

namespace Plan

variable (plan : Plan)

/-! ## Documents -/

theorem parallel_renderFile (location : Location) :
    Parallel (BuildState.Beside Session.Renumbered) (plan.renderFile location)
      (plan.renderFile location) := by
  unfold renderFile
  split
  · rename_i below target hbelow htarget
    refine (parallel_onDisk _).bind fun bytes => ?_
    cases Utf8.decode? bytes with
    | none => exact parallel_throw _
    | some text =>
        refine (parallel_modifyGet fun state partner hbeside => ?_).bind fun rendered => ?_
        · have hrender := hbeside.session.render text (textBelow below) plan.config.globals
          exact ⟨alike_eq_iff.mp hrender.result, hbeside.disk, hrender.state⟩
        · cases rendered with
          | error error => exact parallel_throw _
          | ok rendered => exact (parallel_onDisk _).bind fun _ => parallel_pure _
  · exact parallel_throw _

theorem parallel_renderPart (part : List Location) :
    Parallel (BuildState.Beside Session.Renumbered) (plan.renderPart part) (plan.renderPart part) :=
  parallel_mapM fun location =>
    (parallel_attempt (plan.parallel_renderFile location) _).bind fun _ => parallel_pure _

theorem parallel_renderParts (parts : List (List Location)) :
    Parallel (BuildState.Beside Session.Renumbered) (plan.renderParts parts)
      (plan.renderParts parts) := by
  induction parts with
  | nil => exact parallel_pure _
  | cons part rest ih =>
      refine (parallel_attempt (plan.parallel_renderPart part) _).bind fun outcome => ?_
      refine (parallel_attempt ih _).bind fun others => ?_
      cases outcome with
      | error error => exact parallel_throw _
      | ok outcome =>
          cases others with
          | error error => exact parallel_throw _
          | ok others => exact parallel_pure _

/-! ## Loading -/

variable {plan}

/-- The state of a builder that is about to load. -/
def restarted (state : BuildState) : BuildState := { state with session := state.session.reset }

/-- A build that ends with a report went through its stages: it loaded, took the lock, copied the
source and rendered the documents that it then found. -/
theorem stages_of_build {processors : Nat} {report : BuildReport} {done : BuildState}
    (hrun : runFrom (plan.build processors) state = (.ok report, done)) :
    ∃ size loaded taken filled outcomes,
      runFrom plan.loadComponents (restarted state) = (.ok size, loaded) ∧
      runFrom (takeLock plan.output) state.disk = (.ok (), taken) ∧
      runFrom (copyTree plan.traversalExclusions plan.source plan.output) taken =
        (.ok report.copied, filled) ∧
      runFrom (plan.renderParts (partition (documents filled plan.rule plan.source)
        (plan.workers processors))) { loaded with disk := filled } = (.ok outcomes, done) := by
  unfold build at hrun
  rw [runFrom_bind, andThen_eq_ok] at hrun
  obtain ⟨found, looked, hlook, hrun⟩ := hrun
  have hsame : looked = state := by
    rw [runFrom_onDisk] at hlook
    exact (Prod.mk.inj hlook).2.symm
  subst hsame
  split at hrun
  · rw [runFrom_bind, andThen_eq_ok] at hrun
    obtain ⟨_, reset, hreset, hrun⟩ := hrun
    cases hreset
    rw [runFrom_bind, andThen_eq_ok] at hrun
    obtain ⟨size, loaded, hload, hrun⟩ := hrun
    have hdisk : loaded.disk = looked.disk := by
      rw [runFrom_loadComponents_eq] at hload
      split at hload
      · cases hload
      · split at hload
        · cases hload
          rfl
        · cases hload
    rw [runFrom_bind, andThen_eq_ok] at hrun
    obtain ⟨_, locked, hlocked, hrun⟩ := hrun
    obtain ⟨taken, hlock, rfl⟩ := runFrom_onDisk_eq_ok.mp hlocked
    rw [runFrom_bind, andThen_eq_ok] at hrun
    obtain ⟨copied, between, hbetween, hrun⟩ := hrun
    obtain ⟨filled, hcopy, rfl⟩ := runFrom_onDisk_eq_ok.mp hbetween
    rw [runFrom_bind, runFrom_get, andThen_ok, runFrom_bind, andThen_eq_ok] at hrun
    obtain ⟨outcomes, rendered, hrender, hrun⟩ := hrun
    rw [runFrom_bind, runFrom_get, andThen_ok] at hrun
    cases hrun
    exact ⟨size, loaded, taken, filled, outcomes, hload, hdisk ▸ hlock, hcopy, hrender⟩
  · cases hrun

/-- A load after a reset either fails for both of two builders, or leaves them the same. -/
theorem sideBySide_load (hbeside : state.Beside Session.Kindred partner) :
    (∃ error,
      runFrom plan.loadComponents (restarted state) = (.error error, restarted state) ∧
      runFrom plan.loadComponents (restarted partner) = (.error error, restarted partner)) ∨
    ∃ size after otherAfter,
      runFrom plan.loadComponents (restarted state) = (.ok size, after) ∧
      runFrom plan.loadComponents (restarted partner) = (.ok size, otherAfter) ∧
      after.Beside Session.Renumbered otherAfter := by
  have hdisk : (restarted state).disk = (restarted partner).disk := hbeside.disk
  have hroot : (restarted state).session.store.root = (restarted partner).session.store.root :=
    hbeside.session.root
  rw [runFrom_loadComponents_eq, runFrom_loadComponents_eq, hdisk, hroot]
  cases ((restarted partner).disk.find plan.components).mapError BuildError.disk with
  | error error => exact .inl ⟨error, rfl, rfl⟩
  | ok found =>
      dsimp only
      by_cases hdirectory :
          (restarted partner).disk.isDirectory (restarted partner).session.store.root = true
      · have hloaded := hbeside.session.loadedFrom (restarted partner).disk
        have hsize : (partner.session.reset.loadedFrom (restarted partner).disk).store.size =
            (state.session.reset.loadedFrom (restarted partner).disk).store.size :=
          congrArg List.length hloaded.templates.symm
        rw [if_pos hdirectory, if_pos hdirectory]
        exact .inr ⟨_, ⟨_, state.session.reset.loadedFrom (restarted partner).disk, true⟩,
          ⟨_, partner.session.reset.loadedFrom (restarted partner).disk, true⟩, rfl,
          congrArg (fun size => (Except.ok size, BuildState.mk _ _ _)) hsize, rfl, hloaded⟩
      · rw [if_neg hdirectory, if_neg hdirectory]
        exact .inl ⟨_, rfl, rfl⟩

/-! ## Whole builds -/

/-- Two builders for the same components directory build the same from the same disk. -/
theorem parallel_build (plan : Plan) (processors : Nat) :
    Parallel (BuildState.Beside Session.Kindred) (plan.build processors)
      (plan.build processors) := by
  have hreset : ∀ state, runFrom (modify fun state : BuildState =>
      { state with session := state.session.reset } : BuildAction PUnit) state =
        (.ok ⟨⟩, restarted state) := fun _ => rfl
  unfold build
  refine (parallel_onDisk _).bind fun found => ?_
  extract_lets rest
  have hrest : ∀ ready, Parallel (BuildState.Beside Session.Kindred) (rest ready) (rest ready) := by
    intro ready state partner hbeside
    rw [runFrom_bind, runFrom_bind, hreset, hreset, andThen_ok, andThen_ok, runFrom_bind,
      runFrom_bind]
    rcases sideBySide_load hbeside with ⟨error, hload, hother⟩ |
      ⟨size, after, otherAfter, hload, hother, hafter⟩
    · rw [hload, hother, andThen_error, andThen_error]
      exact sideBySide_error ⟨hbeside.disk,
        ⟨hbeside.session.root, hbeside.session.extensions, hbeside.session.traced⟩⟩
    · rw [hload, hother, andThen_ok, andThen_ok]
      refine SideBySide.weaken (Parallel.bind (parallel_onDisk _) (fun _ =>
        (parallel_onDisk _).bind fun copied => ?_) after otherAfter hafter) fun later otherLater
          hlater => ⟨hlater.disk, hlater.session.toKindred⟩
      refine parallel_get_bind fun filled otherFilled hfilled => ?_
      rw [hfilled.disk]
      refine ((plan.parallel_renderParts _).bind fun outcomes => ?_) filled otherFilled hfilled
      refine parallel_get_bind fun done otherDone hdone => ?_
      dsimp only
      rw [hdone.session.failures, hdone.session.cache.size, hdone.session.cache.hits]
      exact sideBySide_ok rfl hdone
  split
  · exact hrest ()
  · exact (parallel_throw _).bind hrest

/-- The session of a builder that has not built yet. -/
def blankSession (plan : Plan) : Session := (plan.initialState Disk.empty).session

/-- Whatever a builder did before, it builds what a new builder builds from the same disk. -/
theorem build_of_kindred (processors : Nat) (hkindred : plan.blankSession.Kindred state.session) :
    (runFrom (plan.build processors) state).1 =
        (runFrom (plan.build processors) (plan.initialState state.disk)).1 ∧
      (runFrom (plan.build processors) state).2.disk =
        (runFrom (plan.build processors) (plan.initialState state.disk)).2.disk := by
  have hrun := plan.parallel_build processors (plan.initialState state.disk) state ⟨rfl, hkindred⟩
  exact ⟨(alike_eq_iff.mp hrun.result).symm, hrun.state.disk.symm⟩

/-! ## Histories -/

end Plan

end PageLoom.Site
