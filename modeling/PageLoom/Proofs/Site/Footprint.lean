import PageLoom.Proofs.Component.Generation
import PageLoom.Proofs.Disk.Footprint
import PageLoom.Proofs.Site.Render

/-!
# The footprint of a builder

A builder takes steps of a footprint on the disk. Unless it loads, the templates of its session stay
what they are; if it does, the session is still one for the same components directory. Whatever none
of this destroys lasts through every action of the builder, however the action ends. Which footprint
it is depends on the action: a build treads on the whole output and on the lock next to it, an
update on the output of one file only.
-/

namespace PageLoom

open Disk

namespace DiskAction

open Site

variable {footprint : Footprint} {J : Disk → Prop} {output : Location}

/-! ## Copying a source -/

theorem preserves_copyBelow (hspares : Disk.Spares footprint J) (hadmits : footprint.Admits output)
    (exclude : List Location) (root : Location) (height : Nat) (below : List Text) :
    Preserves J (copyBelow exclude root output height below) := by
  have hchild : ∀ below : List Text, ∀ name, footprint.Admits (output ++ below ++ [name]) :=
    fun below name => (hadmits.append below).append [name]
  induction height generalizing below with
  | zero => exact preserves_pure _
  | succ height ih =>
      apply preserves_get_bind
      intro disk hdisk
      dsimp only
      split
      · refine Preserves.bind ?_ (fun _ => Preserves.bind ?_ fun _ => Preserves.bind ?_ fun _ => ?_)
          disk hdisk
        · exact preserves_forM fun name => hspares.makeDirectory (hchild below name).makes_above
        · exact preserves_forM fun name => hspares.copyFile _ (hchild below name)
        · exact preserves_mapM fun name => ih _
        · exact preserves_pure _
      · exact hdisk

theorem preserves_copyTree (hspares : Disk.Spares footprint J) (hadmits : footprint.Admits output)
    (exclude : List Location) (root : Location) :
    Preserves J (copyTree exclude root output) := by
  refine (hspares.makeDirectory hadmits.makes_above).bind fun _ => ?_
  apply preserves_get_bind
  exact fun disk hdisk => preserves_copyBelow hspares hadmits exclude root _ _ disk hdisk

end DiskAction

namespace Site

open BuildAction Component DiskAction

variable {α : Type} {I : BuildState → Prop}

theorem preserves_onDisk {action : DiskAction α}
    (haction : ∀ session loaded, Preserves (fun disk => I ⟨disk, session, loaded⟩) action) :
    Preserves I (onDisk action) := by
  refine Preserves.bind (preserves_modifyGet fun state hstate => ?_) fun result => ?_
  · exact haction state.session state.loaded state.disk hstate
  · cases result with
    | ok value => exact preserves_pure _
    | error error => exact preserves_throw _

theorem preserves_attempt {action : BuildAction α} (haction : Preserves I action)
    (handled : BuildError → Bool) : Preserves I (attempt handled action) := by
  intro state hstate
  have hafter := haction state hstate
  rw [runFrom_attempt]
  generalize runFrom action state = run at hafter ⊢
  obtain ⟨result, after⟩ := run
  cases result with
  | ok value => exact hafter
  | error error => cases hhandled : handled error <;> simpa [hhandled] using hafter

/-- What a builder does not destroy as long as it does not load: by the steps of a footprint, and by
changes to its session that leave the templates alone. -/
structure Spares (footprint : Footprint) (I : BuildState → Prop) : Prop where
  onDisk : ∀ session loaded, Disk.Spares footprint fun disk => I ⟨disk, session, loaded⟩
  session : ∀ state session, session.store = state.session.store →
    session.traced = state.session.traced → I state → I { state with session }

/-- What is not destroyed by loading either, which the session is the same for. -/
structure SparesLoading (footprint : Footprint) (I : BuildState → Prop) : Prop
    extends Spares footprint I where
  loads : ∀ state session, state.session.Kindred session → I state → I ⟨state.disk, session, true⟩

/-- What concerns the disk alone is spared by the session. -/
theorem sparesLoading_disk {footprint : Footprint} {J : Disk → Prop}
    (hspares : Disk.Spares footprint J) : SparesLoading footprint fun state => J state.disk :=
  ⟨⟨fun _ _ => hspares, fun _ _ _ _ hdisk => hdisk⟩, fun _ _ _ hdisk => hdisk⟩

namespace Plan

/-- Expands or copies a source file, with nothing cached. -/
def refresh (plan : Plan) (location : Location) : BuildAction Location := do
  if plan.isDocument location then
    modify fun state => { state with session := state.session.clearCache }
    plan.renderFile location
  else
    match plan.outputOf? location with
    | none => throw .outsideSource
    | some target =>
      onDisk (DiskAction.copyFile location target)
      return target

/-- Brings a source file up to date, if nothing spoils it. -/
def attemptRefresh (plan : Plan) (location : Location) : BuildAction (Option Location) := do
  match ← attempt BuildError.spoilsDocument (plan.refresh location) with
  | .ok target => return some target
  | .error _ => return none

theorem processFile_eq (plan : Plan) (location : Location) :
    plan.processFile location = (do
      if plan.ignores location then return none
      if !(← get).loaded then let _ ← plan.loadComponents
      plan.attemptRefresh location) := rfl

end Plan

namespace Spares

variable {footprint : Footprint} (hspares : Spares footprint I) (plan : Plan)

include hspares

/-! ## One document -/

section Document

variable {location : Location}
variable (hadmits : ∀ target, plan.outputOf? location = some target → footprint.Admits target)

include hadmits

/-- A document is written to its place in the output. -/
theorem renderFile : Preserves I (plan.renderFile location) := by
  unfold Plan.renderFile
  split
  · rename_i below target hbelow htarget
    refine (preserves_onDisk fun session loaded => Disk.Spares.readBytes _).bind fun bytes => ?_
    cases Utf8.decode? bytes with
    | none => exact preserves_throw _
    | some text =>
        refine Preserves.bind (preserves_modifyGet fun state hstate => ?_) fun rendered => ?_
        · exact hspares.session state _ rfl rfl hstate
        · cases rendered with
          | error error => exact preserves_throw _
          | ok rendered =>
              exact (preserves_onDisk fun session loaded =>
                (hspares.onDisk session loaded).writeText (hadmits target htarget) _).bind fun _ =>
                  preserves_pure _
  · exact preserves_throw _

theorem refresh : Preserves I (plan.refresh location) := by
  unfold Plan.refresh
  split
  · refine Preserves.bind (preserves_modifyGet fun state hstate => ?_) fun _ =>
      hspares.renderFile plan hadmits
    exact hspares.session state state.session.clearCache rfl rfl hstate
  · split
    · exact preserves_throw _
    · rename_i target htarget
      exact (preserves_onDisk fun session loaded =>
        (hspares.onDisk session loaded).copyFile _ (hadmits target htarget)).bind fun _ =>
          preserves_pure _

/-- A refresh writes its document, or puts its copy in the same place. -/
theorem attemptRefresh : Preserves I (plan.attemptRefresh location) := by
  refine (preserves_attempt (hspares.refresh plan hadmits) _).bind fun outcome => ?_
  cases outcome with
  | ok target => exact preserves_pure _
  | error error => exact preserves_pure _

end Document

theorem removeFile {location : Location}
    (hremoves : ∀ target, plan.outputOf? location = some target → footprint.removes target) :
    Preserves I (plan.removeFile location) := by
  unfold Plan.removeFile
  split
  · exact preserves_pure _
  · rename_i target htarget
    exact preserves_onDisk fun session loaded =>
      (hspares.onDisk session loaded).removeFile (hremoves target htarget)

/-! ## All documents -/

variable {plan} (hadmits : footprint.Admits plan.output)

include hadmits

omit hspares in
/-- The output of every file lies in the output directory. -/
theorem admits_outputOf {location target : Location}
    (htarget : plan.outputOf? location = some target) : footprint.Admits target := by
  obtain ⟨rest, -, rfl⟩ := Option.map_eq_some_iff.mp htarget
  exact hadmits.append rest

theorem renderPart (part : List Location) : Preserves I (plan.renderPart part) :=
  preserves_mapM fun _ => (preserves_attempt
    (hspares.renderFile plan fun _ => admits_outputOf hadmits) _).bind fun _ => preserves_pure _

theorem renderParts (parts : List (List Location)) : Preserves I (plan.renderParts parts) := by
  induction parts with
  | nil => exact preserves_pure _
  | cons part rest ih =>
      refine (preserves_attempt (hspares.renderPart hadmits part) _).bind fun outcome => ?_
      refine (preserves_attempt ih _).bind fun others => ?_
      cases outcome with
      | error error => exact preserves_throw _
      | ok outcome =>
          cases others with
          | error error => exact preserves_throw _
          | ok others => exact preserves_pure _

end Spares

namespace SparesLoading

variable {footprint : Footprint} (hspares : SparesLoading footprint I) (plan : Plan)

include hspares

/-! ## With loading -/

theorem loadComponents : Preserves I plan.loadComponents := by
  refine (preserves_onDisk fun session loaded => Disk.Spares.look _).bind fun _ => ?_
  apply preserves_get_bind
  intro state hstate
  rw [Session.load?_eq]
  by_cases hroot : state.disk.isDirectory state.session.store.root = true
  · rw [if_pos hroot]
    exact hspares.loads state _ ⟨rfl, rfl, rfl⟩ hstate
  · rw [if_neg hroot]
    exact hstate

theorem processFile {location : Location}
    (hadmits : ∀ target, plan.outputOf? location = some target → footprint.Admits target) :
    Preserves I (plan.processFile location) := by
  have hrefresh := hspares.attemptRefresh plan hadmits
  rw [Plan.processFile_eq]
  split
  · exact preserves_pure _
  · refine preserves_get.bind fun state => ?_
    dsimp only
    split
    · exact (hspares.loadComponents plan).bind fun _ => hrefresh
    · exact hrefresh

variable {plan}

/-- A build puts files into the output directory, and the lock next to it. -/
theorem build (hadmits : footprint.Admits plan.output) (hlock : footprint.puts (lockOf plan.output))
    (processors : Nat) : Preserves I (plan.build processors) := by
  unfold Plan.build
  refine (preserves_onDisk fun session loaded => Disk.Spares.look _).bind fun found => ?_
  extract_lets rest
  have hrest : ∀ ready, Preserves I (rest ready) := fun _ =>
    (preserves_modifyGet fun state hstate =>
      hspares.session state state.session.reset rfl rfl hstate).bind fun _ =>
    (hspares.loadComponents plan).bind fun _ =>
    (preserves_onDisk fun session loaded =>
      (hspares.onDisk session loaded).takeLock hadmits hlock).bind fun _ =>
    (preserves_onDisk fun session loaded =>
      preserves_copyTree (hspares.onDisk session loaded) hadmits _ _).bind fun _ =>
    preserves_get.bind fun _ =>
    (hspares.renderParts hadmits _).bind fun _ =>
    preserves_get.bind fun _ => preserves_pure _
  split
  · exact hrest ()
  · exact (preserves_throw _).bind hrest

end SparesLoading

end Site

end PageLoom
