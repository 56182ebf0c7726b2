import PageLoom.Proofs.Site.Frame
import PageLoom.Proofs.Site.Product

/-!
# Updates of one file

A changed source file is expanded or copied alone. If nothing is in its way, its product takes its
place in the output, and only directories above it are new besides; if the place is too long for a
copy, not even that. Other files stay as they are whatever happens.
-/

namespace PageLoom.Site.Plan

open Component Disk DiskAction BuildAction

variable {plan : Plan} {state : BuildState} {location place : Location} {below : List Text}

/-- A builder with an empty cache. -/
def emptied (state : BuildState) : BuildState :=
  { state with session := state.session.clearCache }

/-- A builder that has loaded refreshes every file that it does not ignore. -/
theorem runFrom_processFile (hloaded : state.loaded = true)
    (hheeded : plan.ignores location = false) :
    runFrom (plan.processFile location) state =
      andThen (fun outcome after => (.ok outcome.toOption, after))
        (runFrom (attempt BuildError.spoilsDocument (plan.refresh location)) state) := by
  rw [processFile_eq, if_neg (by rw [hheeded]; exact Bool.false_ne_true), runFrom_bind,
    runFrom_get, andThen_ok, if_neg (by rw [hloaded]; exact Bool.false_ne_true)]
  change runFrom (plan.attemptRefresh _) state = _
  rw [attemptRefresh, runFrom_bind]
  congr 1
  funext outcome after
  cases outcome <;> rfl

/-- It ignores no file of the source, unless the output is in the source. -/
theorem ignores_append (houtside : isWithin plan.source plan.output = false)
    (below : List Text) : plan.ignores (plan.source ++ below) = false := by
  rw [ignores, isWithin_iff.mpr (List.prefix_append ..), traversalExclusions, houtside]
  rfl

/-- A builder that has loaded does not load again for an update. -/
theorem outfit_processFile (hloaded : state.loaded = true) (location : Location) :
    outfit (runFrom (plan.processFile location) state).2 = outfit state := by
  rw [processFile_eq]
  split
  · rfl
  · rw [runFrom_bind, runFrom_get, andThen_ok, if_neg (by rw [hloaded]; exact Bool.false_ne_true)]
    refine (spares_outfit _).attemptRefresh plan (fun target _ => ?_) state rfl
    exact (Footprint.covers_everywhere target).toAdmits

/-! ## Other files -/

/-- An update changes no file but the output of its own, and those in a directory that stands in
its place. -/
theorem keeps_processFile
    (hplace : ∀ target, plan.outputOf? location = some target → isWithin target place = false) :
    Keeps (BuildState.bytesAt? place) (plan.processFile location) :=
  keeps_of_preserves fun bytes => (sparesLoading_bytesAt? place bytes).processFile plan
    fun target htarget => Footprint.admits_sparing (hplace target htarget)

/-! ## The file itself -/

variable {templates : List (Text × Text)} {content bytes : Bytes}

/-- A builder that has loaded, and a source file with nothing in the way of its output. -/
structure Awaits (plan : Plan) (templates : List (Text × Text)) (state : BuildState)
    (below : List Text) (content : Bytes) : Prop where
  stocked : plan.Stocked templates state
  wellFormed : state.disk.WellFormed
  receives : state.disk.Receives (plan.output ++ below)
  content : state.disk.entry? (plan.source ++ below) = some (.file content)

theorem runFrom_refresh_other (hother : plan.isDocument (plan.source ++ below) = false) :
    runFrom (plan.refresh (plan.source ++ below)) state =
      andThen (fun _ after => (.ok (plan.output ++ below), after))
        (runFrom (onDisk (copyFile (plan.source ++ below) (plan.output ++ below))) state) := by
  rw [refresh, hother, if_neg Bool.false_ne_true, outputOf?_append, runFrom_bind]
  rfl

theorem runFrom_refresh_document (hdocument : plan.isDocument (plan.source ++ below) = true) :
    runFrom (plan.refresh (plan.source ++ below)) state =
      runFrom (plan.renderFile (plan.source ++ below)) (emptied state) := by
  rw [refresh, hdocument, if_pos rfl, runFrom_bind]
  rfl

/-- What is below the output is not below the source. -/
theorem append_ne_append (houtside : isWithin plan.source plan.output = false)
    (hinside : isWithin plan.output plan.source = false) (below other : List Text) :
    plan.source ++ below ≠ plan.output ++ other := by
  intro hsame
  have hapart := not_isWithin_append houtside hinside other
  rw [← hsame, isWithin_iff.mpr (List.prefix_append ..)] at hapart
  cases hapart

section Product

variable (hawaits : plan.Awaits templates state below content)
variable (hproduct : plan.product? templates below content = some bytes)
variable (hfits : Fits (plan.output ++ below))

include hawaits hproduct hfits

/-- A file that is no document is copied. -/
theorem runFrom_refresh_copied (houtside : isWithin plan.source plan.output = false)
    (hinside : isWithin plan.output plan.source = false)
    (hother : plan.isDocument (plan.source ++ below) = false) :
    ∃ after, runFrom (plan.refresh (plan.source ++ below)) state =
        (.ok (plan.output ++ below), after) ∧
      plan.Stocked templates after ∧
      after.disk = state.disk.withFile (plan.output ++ below) bytes := by
  rw [product?_other hother] at hproduct
  cases hproduct
  have hcopy := runFrom_copyFile_receives hawaits.wellFormed hawaits.receives hfits
    (append_ne_append houtside hinside below below).symm hawaits.content
  rw [runFrom_refresh_other hother, runFrom_onDisk_ok hcopy, andThen_ok]
  exact ⟨_, rfl, ⟨hawaits.stocked.equipped, hawaits.stocked.loaded⟩, rfl⟩

/-- A document is expanded as it is from scratch. -/
theorem runFrom_refresh_rendered (hdocument : plan.isDocument (plan.source ++ below) = true)
    (hstaging : Fits (stagingOf (plan.output ++ below))) :
    ∃ after, runFrom (plan.refresh (plan.source ++ below)) state =
        (.ok (plan.output ++ below), after) ∧
      plan.Stocked templates after ∧
      after.disk = state.disk.withFile (plan.output ++ below) bytes := by
  obtain ⟨text, expanded, hdecoded, hfresh, rfl⟩ := (product?_document hdocument).mp hproduct
  have hequipped : plan.Equipped templates (emptied state).session :=
    hawaits.stocked.equipped.clearCache
  have hread : runFrom (onDisk (readBytes (plan.source ++ below))) (emptied state) =
      (.ok content, emptied state) := runFrom_readBytes_file hawaits.content
  have hrendered := Session.written?_eq_some.mp (hequipped.written?
    (Cache.sound_empty _ _) (Cache.closed_empty _) hfresh)
  have hwrite := runFrom_writeText_receives hawaits.wellFormed hawaits.receives hfits hstaging
    expanded
  have hrun := runFrom_renderFile_ok hread hdecoded hrendered
  rw [@runFrom_onDisk_ok _ (plan.rendered (emptied state) text below) _ _ _ hwrite,
    andThen_ok] at hrun
  rw [runFrom_refresh_document hdocument, hrun]
  exact ⟨_, rfl,
    ⟨hequipped.afterCalls [.render text (textBelow below) plan.config.globals],
      hawaits.stocked.loaded⟩, rfl⟩

/-- The product of a file is put in its place. -/
theorem runFrom_processFile_product (houtside : isWithin plan.source plan.output = false)
    (hinside : isWithin plan.output plan.source = false)
    (hstaging : plan.isDocument (plan.source ++ below) = true →
      Fits (stagingOf (plan.output ++ below))) :
    ∃ after, runFrom (plan.processFile (plan.source ++ below)) state =
        (.ok (some (plan.output ++ below)), after) ∧
      plan.Stocked templates after ∧
      after.disk = state.disk.withFile (plan.output ++ below) bytes := by
  obtain ⟨after, hrefresh, hafter⟩ : ∃ after, runFrom (plan.refresh (plan.source ++ below)) state =
      (.ok (plan.output ++ below), after) ∧ plan.Stocked templates after ∧
        after.disk = state.disk.withFile (plan.output ++ below) bytes := by
    cases hdocument : plan.isDocument (plan.source ++ below) with
    | false => exact runFrom_refresh_copied hawaits hproduct hfits houtside hinside hdocument
    | true => exact runFrom_refresh_rendered hawaits hproduct hfits hdocument (hstaging hdocument)
  refine ⟨after, ?_, hafter⟩
  rw [runFrom_processFile hawaits.stocked.loaded (ignores_append houtside below),
    runFrom_attempt, hrefresh]
  rfl

end Product

/-- A copy for whose place the disk is too small leaves directories at most. -/
theorem runFrom_processFile_overlong (hawaits : plan.Awaits templates state below content)
    (houtside : isWithin plan.source plan.output = false)
    (hother : plan.isDocument (plan.source ++ below) = false)
    (hoverlong : ¬Fits (plan.output ++ below))
    (habsent : state.disk.entry? (plan.output ++ below) = none) :
    ∃ above, above <+: (plan.output ++ below).dropLast ∧
      runFrom (plan.processFile (plan.source ++ below)) state =
        (.ok none, { state with disk := state.disk.addDirectories above }) := by
  obtain ⟨above, habove, hcopy⟩ := runFrom_copyFile_overlong hawaits.wellFormed hawaits.receives
    hoverlong habsent hawaits.content
  refine ⟨above, habove, ?_⟩
  rw [runFrom_processFile hawaits.stocked.loaded (ignores_append houtside below),
    runFrom_attempt, runFrom_refresh_other hother, runFrom_onDisk_error hcopy, andThen_error]
  rfl

end PageLoom.Site.Plan
