import PageLoom.Proofs.Disk.Residue
import PageLoom.Proofs.Site.Update

/-!
# Skipped updates

An update that is skipped changes no file. It may leave directories behind: what is written or
copied to a new directory of the output gets that directory first, before it turns out that there is
nothing to copy, or that the file cannot be put there. A document that cannot be read or expanded
leaves nothing, as that is found out before.
-/

namespace PageLoom.Site.Plan

open Component Disk DiskAction BuildAction

variable {plan : Plan} {state after : BuildState} {location : Location} {below : List Text}
variable {error : BuildError} {bytes : Bytes}

/-- A source file can be read and expanded. -/
def Expands (plan : Plan) (state : BuildState) (below : List Text) : Prop :=
  ∃ bytes text expanded, state.disk.entry? (plan.source ++ below) = some (.file bytes) ∧
    Utf8.decode? bytes = some text ∧
    (state.session.render text (textBelow below) plan.config.globals).1 = .ok expanded

/-- An update comes to the output with a document that it expands, and with any other file,
whatever is there to copy. -/
def Arrives (plan : Plan) (state : BuildState) (below : List Text) : Prop :=
  plan.isDocument (plan.source ++ below) = true → plan.Expands (emptied state) below

/-- An update makes a directory for its file. -/
def Leaves (plan : Plan) (state : BuildState) (location place : Location) : Prop :=
  plan.ignores location = false ∧ ∃ below, location = plan.source ++ below ∧
    plan.Arrives state below ∧ Paves state.disk (plan.output ++ below) place

/-! ## Updates that fail -/

/-- A document that is expanded but cannot be written leaves the directories above its place. -/
theorem disk_of_renderFile_expanded (hexpands : plan.Expands state below)
    (hrun : runFrom (plan.renderFile (plan.source ++ below)) state = (.error error, after)) :
    after.disk = (runFrom (makeParent (plan.output ++ below)) state.disk).2 := by
  obtain ⟨bytes, text, expanded, hentry, hdecoded, hrendered⟩ := hexpands
  rw [runFrom_renderFile_ok (runFrom_readBytes_file hentry) hdecoded hrendered] at hrun
  cases hwrite : runFrom (onDisk (writeText (plan.output ++ below) expanded))
      (plan.rendered state text below) with
  | mk result written =>
      rw [hwrite] at hrun
      cases result with
      | ok value => cases hrun
      | error failure =>
          cases hrun
          obtain ⟨cause, hcause⟩ := exists_of_onDisk_error hwrite
          exact eq_of_writeText_error hcause

/-- A document that cannot be read or expanded fails before anything is done on the disk. -/
theorem disk_of_renderFile_unexpanded (hexpands : ¬plan.Expands state below)
    (hrun : runFrom (plan.renderFile (plan.source ++ below)) state = (.error error, after)) :
    after.disk = state.disk := by
  cases hread : state.disk.read (plan.source ++ below) with
  | error failure =>
      simp only [renderFile, below?_append, outputOf?_append] at hrun
      rw [runFrom_bind, runFrom_readBytes, hread] at hrun
      cases hrun
      rfl
  | ok bytes =>
      have hentry := read_eq_ok.mp hread
      have hreads := runFrom_readBytes_file hentry
      cases hdecoded : Utf8.decode? bytes with
      | none =>
          rw [runFrom_renderFile_undecodable hreads hdecoded] at hrun
          cases hrun
          rfl
      | some text =>
          cases hrendered :
              (state.session.render text (textBelow below) plan.config.globals).1 with
          | error failure =>
              rw [runFrom_renderFile_error hreads hdecoded hrendered] at hrun
              cases hrun
              rfl
          | ok expanded =>
              exact absurd ⟨bytes, text, expanded, hentry, hdecoded, hrendered⟩ hexpands

/-- A refresh that fails leaves the directories above the place of its file, if it comes so far. -/
theorem disk_of_refresh_error
    (hrun : runFrom (plan.refresh (plan.source ++ below)) state = (.error error, after)) :
    (plan.Arrives state below →
      after.disk = (runFrom (makeParent (plan.output ++ below)) state.disk).2) ∧
    (¬plan.Arrives state below → after.disk = state.disk) := by
  cases hdocument : plan.isDocument (plan.source ++ below) with
  | true =>
      rw [runFrom_refresh_document hdocument] at hrun
      rw [Arrives, hdocument]
      constructor
      · intro harrives
        have hafter := disk_of_renderFile_expanded (harrives rfl) hrun
        exact hafter
      · intro hnot
        have hafter := disk_of_renderFile_unexpanded (fun hexpands => hnot fun _ => hexpands) hrun
        exact hafter
  | false =>
      have harrives : plan.Arrives state below := by
        intro hother
        rw [hdocument] at hother
        cases hother
      refine ⟨fun _ => ?_, fun hnot => absurd harrives hnot⟩
      rw [runFrom_refresh_other hdocument] at hrun
      cases hcopy : runFrom (onDisk (copyFile (plan.source ++ below) (plan.output ++ below)))
          state with
      | mk result copied =>
          rw [hcopy] at hrun
          cases result with
          | ok value => cases hrun
          | error failure =>
              cases hrun
              obtain ⟨cause, hcause⟩ := exists_of_onDisk_error hcopy
              exact eq_of_copyFile_error hcause

/-! ## Updates that are skipped -/

/-- An update that is heeded and yet skipped is a refresh that failed. -/
theorem exists_refresh_error (hloaded : state.loaded = true)
    (hheeded : plan.ignores location = false)
    (hrun : runFrom (plan.processFile location) state = (.ok none, after)) :
    ∃ error, runFrom (plan.refresh location) state = (.error error, after) := by
  rw [runFrom_processFile hloaded hheeded, runFrom_attempt] at hrun
  generalize runFrom (plan.refresh location) state = run at hrun
  obtain ⟨result, between⟩ := run
  cases result with
  | ok target => cases hrun
  | error error =>
      dsimp only at hrun
      split at hrun
      · cases hrun
        exact ⟨error, rfl⟩
      · cases hrun

/-- A skipped update leaves the directories that it makes for its file, and all else as it was. -/
theorem entry?_of_skipped (hdisk : state.disk.WellFormed) (hloaded : state.loaded = true)
    (hrun : runFrom (plan.processFile location) state = (.ok none, after)) (place : Location) :
    (plan.Leaves state location place → after.disk.entry? place = some .directory) ∧
    (¬plan.Leaves state location place →
      after.disk.entry? place = state.disk.entry? place) := by
  cases hignored : plan.ignores location with
  | true =>
      rw [processFile_eq, if_pos hignored] at hrun
      cases hrun
      refine ⟨fun hleaves => ?_, fun _ => rfl⟩
      rw [hleaves.1] at hignored
      cases hignored
  | false =>
      have hwithin : isWithin plan.source location = true := by
        rw [ignores, Bool.or_eq_false_iff, Bool.not_eq_false'] at hignored
        exact hignored.1
      obtain ⟨below, rfl⟩ := isWithin_iff.mp hwithin
      obtain ⟨error, hrefresh⟩ := exists_refresh_error hloaded hignored hrun
      obtain ⟨harrived, hfailed⟩ := disk_of_refresh_error hrefresh
      obtain ⟨hmade, hkept⟩ := entry?_makeParent hdisk (plan.output ++ below) place
      constructor
      · rintro ⟨-, other, hsame, harrives, hpaves⟩
        rw [List.append_cancel_left_eq] at hsame
        subst hsame
        rw [harrived harrives, hmade hpaves]
      · intro hnot
        by_cases harrives : plan.Arrives state below
        · rw [harrived harrives, hkept fun hpaves =>
            hnot ⟨hignored, below, rfl, harrives, hpaves⟩]
        · rw [hfailed harrives]

/-- A skipped update changes no file, and takes nothing away. The output is as it was exactly if the
update makes no directory in it. -/
theorem output_kept_iff (hdisk : state.disk.WellFormed) (hloaded : state.loaded = true)
    (hrun : runFrom (plan.processFile location) state = (.ok none, after)) :
    (∀ place, after.disk.entry? place = state.disk.entry? place ∨
      state.disk.entry? place = none ∧ after.disk.entry? place = some .directory) ∧
    ((∀ place, isWithin plan.output place = true →
        after.disk.entry? place = state.disk.entry? place) ↔
      ∀ place, isWithin plan.output place = true → ¬plan.Leaves state location place) := by
  have hentry := entry?_of_skipped hdisk hloaded hrun
  refine ⟨fun place => ?_, fun hsame place hplace hleaves => ?_, fun hnone place hplace => ?_⟩
  · by_cases hleaves : plan.Leaves state location place
    · obtain ⟨-, below, -, -, hpaves⟩ := id hleaves
      exact .inr ⟨hpaves.absent, (hentry place).1 hleaves⟩
    · exact .inl ((hentry place).2 hleaves)
  · obtain ⟨-, below, -, -, hpaves⟩ := id hleaves
    have hdirectory := (hentry place).1 hleaves
    rw [hsame place hplace, hpaves.absent] at hdirectory
    cases hdirectory
  · exact (hentry place).2 (hnone place hplace)

/-- The small site with an output that is there. -/
def openedSite : Disk := smallSite.set ["out".toList] .directory

/-- A builder of that site that has loaded its component. -/
def openedState (plan : Plan) : BuildState where
  disk := openedSite
  session := plan.freshSession [("b".toList, "!".toList)]
  loaded := true

theorem openedSite_wellFormed : openedSite.WellFormed := by decide +kernel

/-- A missing stylesheet of the site itself is skipped, and the output is as it was. -/
theorem output_kept_iff_openedState :
    (runFrom ((smallPlan "out".toList (by decide)).processFile
        ["site".toList, "gone.css".toList])
          (openedState (smallPlan "out".toList (by decide)))).1 = .ok none ∧
      ∀ place, isWithin ["out".toList] place = true →
        (runFrom ((smallPlan "out".toList (by decide)).processFile
          ["site".toList, "gone.css".toList])
            (openedState (smallPlan "out".toList (by decide)))).2.disk.entry? place =
              openedSite.entry? place := by
  have hskipped : (runFrom ((smallPlan "out".toList (by decide)).processFile
      ["site".toList, "gone.css".toList])
        (openedState (smallPlan "out".toList (by decide)))).1 = .ok none := by
    decide +kernel
  refine ⟨hskipped, (output_kept_iff openedSite_wellFormed rfl
    (Prod.ext hskipped rfl)).2.mpr fun place hplace hleaves => ?_⟩
  obtain ⟨-, below, hsame, -, hpaves⟩ := hleaves
  obtain rfl : below = ["gone.css".toList] := by simpa [smallPlan] using hsame.symm
  -- The directory that it goes to is the output itself, which is there.
  have habove : place <+: ["out".toList] := hpaves.above.trans (List.takeWhile_prefix _)
  obtain rfl : place = ["out".toList] :=
    habove.eq_of_length_le (isWithin_iff.mp hplace).length_le
  have hthere : openedSite.entry? ["out".toList] = some .directory := by decide +kernel
  cases hpaves.absent.symm.trans hthere

/-- A missing stylesheet in a directory that the output does not have is skipped too, but the output
has the directory afterwards. -/
theorem processFile_leaves_directory :
    (runFrom ((smallPlan "out".toList (by decide)).processFile
        ["site".toList, "new".toList, "gone.css".toList])
          (openedState (smallPlan "out".toList (by decide)))).1 = .ok none ∧
      openedSite.entry? ["out".toList, "new".toList] = none ∧
      (runFrom ((smallPlan "out".toList (by decide)).processFile
        ["site".toList, "new".toList, "gone.css".toList])
          (openedState (smallPlan "out".toList (by decide)))).2.disk.entry?
            ["out".toList, "new".toList] = some .directory := by
  refine ⟨?_, ?_, ?_⟩
  · decide +kernel
  · decide +kernel
  · decide +kernel

end PageLoom.Site.Plan
