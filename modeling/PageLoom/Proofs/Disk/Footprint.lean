import PageLoom.Proofs.Action
import PageLoom.Proofs.Disk.Actions

/-!
# Footprints

All that happens on a disk happens in steps: a directory is made where nothing is, a file is put
where no directory is, or a file is removed. A footprint says where each of these may happen. Every
action of this module takes steps of some footprint only, so that it preserves whatever no such step
destroys, however it ends.
-/

namespace PageLoom.Disk

/-- Where directories may be made, files put and files removed. -/
structure Footprint where
  makes : Location → Prop
  puts : Location → Prop
  removes : Location → Prop

/-- The three things that can happen on a disk. -/
inductive Step (footprint : Footprint) : Disk → Disk → Prop
  | makes {disk : Disk} {location : Location} (hmakes : footprint.makes location)
      (hfree : disk.exists? location = false) : Step footprint disk (disk.set location .directory)
  | puts {disk : Disk} {location : Location} {bytes : Bytes} (hputs : footprint.puts location)
      (hroom : disk.isDirectory location = false) :
      Step footprint disk (disk.set location (.file bytes))
  | removes {disk : Disk} {location : Location} (hremoves : footprint.removes location)
      (hfile : disk.isFile location = true) : Step footprint disk (disk.erase location)

namespace Footprint

/-- Inside an output directory all may happen, above it directories may be made, and next to it its
lock may be put. -/
def ofOutput (output : Location) : Footprint where
  makes location := location <+: output ∨ output <+: location
  puts location := output <+: location ∨ location = DiskAction.lockOf output
  removes location := output <+: location

/-- The whole disk. -/
def everywhere : Footprint := ⟨fun _ => True, fun _ => True, fun _ => True⟩

/-- A footprint admits a place if it lets directories be made above and below it, and files be put
there and below it. -/
structure Admits (footprint : Footprint) (base : Location) : Prop where
  makes : ∀ location, location <+: base ∨ base <+: location → footprint.makes location
  puts : ∀ location, base <+: location → footprint.puts location

/-- A footprint covers an output if its lock can be taken besides, and files removed from it. -/
structure Covers (footprint : Footprint) (output : Location) : Prop
    extends footprint.Admits output where
  locks : footprint.puts (DiskAction.lockOf output)
  removes : ∀ location, output <+: location → footprint.removes location

variable {footprint : Footprint} {base : Location}

theorem covers_ofOutput (output : Location) : (ofOutput output).Covers output where
  makes _ hlocation := hlocation
  puts _ hlocation := .inl hlocation
  locks := .inr rfl
  removes _ hlocation := hlocation

theorem covers_everywhere (output : Location) : everywhere.Covers output where
  makes _ _ := trivial
  puts _ _ := trivial
  locks := trivial
  removes _ _ := trivial

theorem Admits.append (hadmits : footprint.Admits base) (rest : List Text) :
    footprint.Admits (base ++ rest) := by
  constructor
  · rintro location (habove | hbelow)
    · exact hadmits.makes location
        (List.prefix_or_prefix_of_prefix habove (List.prefix_append base rest))
    · exact hadmits.makes location (.inr ((List.prefix_append base rest).trans hbelow))
  · intro location hbelow
    exact hadmits.puts location ((List.prefix_append base rest).trans hbelow)

theorem Admits.makes_above (hadmits : footprint.Admits base) :
    ∀ above, above <+: base → footprint.makes above := fun above habove =>
  hadmits.makes above (.inl habove)

theorem Admits.makes_parent (hadmits : footprint.Admits base) :
    ∀ above, above <+: base.dropLast → footprint.makes above := fun above habove =>
  hadmits.makes above (.inl (habove.trans (List.dropLast_prefix base)))

theorem Admits.puts_self (hadmits : footprint.Admits base) : footprint.puts base :=
  hadmits.puts base (List.prefix_refl base)

end Footprint

/-- What no step of a footprint destroys. -/
structure Spares (footprint : Footprint) (J : Disk → Prop) : Prop where
  step : ∀ before after, Step footprint before after → J before → J after

namespace Spares

open DiskAction

variable {footprint : Footprint} {J : Disk → Prop} {disk : Disk} {location source target : Location}

theorem addDirectories (hspares : Spares footprint J)
    (hmakes : ∀ above, above <+: location → footprint.makes above) (hdisk : J disk) :
    J (disk.addDirectories location) := by
  have habove : ∀ directory ∈ lineage location, footprint.makes directory := fun directory hmem =>
    hmakes directory (mem_lineage.mp hmem).2
  unfold Disk.addDirectories
  revert habove
  induction lineage location generalizing disk with
  | nil => exact fun _ => hdisk
  | cons directory rest ih =>
      intro habove
      rw [List.foldl_cons]
      refine ih ?_ fun other hmem => habove other (List.mem_cons_of_mem _ hmem)
      cases hexists : disk.exists? directory with
      | true => exact hdisk
      | false =>
          exact hspares.step _ _ (.makes (habove directory (List.mem_cons_self ..)) hexists) hdisk

theorem look (location : Location) : Preserves J (DiskAction.look location) :=
  preserves_get_bind fun disk hdisk => preserves_lift _ disk hdisk

theorem readBytes (location : Location) : Preserves J (DiskAction.readBytes location) :=
  preserves_get_bind fun disk hdisk => preserves_lift _ disk hdisk

theorem place (hspares : Spares footprint J) (hputs : footprint.puts location) (bytes : Bytes) :
    Preserves J (change (·.place location bytes)) := by
  apply preserves_get_bind
  intro disk hdisk
  rw [runFrom_bind, runFrom_lift]
  change J (andThen _ (disk.place location bytes, disk)).2
  cases hplace : disk.place location bytes with
  | error error => exact hdisk
  | ok after =>
      have hset := eq_set_of_place hplace
      rw [hset.1]
      exact hspares.step _ _ (.puts hputs hset.2) hdisk

theorem makeDirectory (hspares : Spares footprint J)
    (hmakes : ∀ above, above <+: location → footprint.makes above) :
    Preserves J (DiskAction.makeDirectory location) := by
  apply preserves_get_bind
  intro disk hdisk
  cases disk.entry? location with
  | some entry => cases entry <;> exact hdisk
  | none =>
      have hmade : J (disk.addDirectories (location.takeWhile (!isOverlong ·))) :=
        hspares.addDirectories (fun above habove =>
          hmakes above (habove.trans (List.takeWhile_prefix _))) hdisk
      by_cases hsize : pathLimit < pathSize location
      · simp only [hsize, if_true]
        exact hdisk
      by_cases hblocked : disk.blocked location = true
      · simp only [hsize, hblocked, if_true, if_false]
        exact hdisk
      simp only [hsize, hblocked, if_false, Bool.false_eq_true]
      rw [runFrom_bind, runFrom_set, andThen_ok]
      split
      · exact hmade
      · exact hmade

theorem makeParent (hspares : Spares footprint J)
    (hmakes : ∀ above, above <+: location.dropLast → footprint.makes above) :
    Preserves J (DiskAction.makeParent location) := by
  apply preserves_get_bind
  intro disk hdisk
  split
  · exact hspares.makeDirectory hmakes disk hdisk
  · exact hdisk

theorem writeText (hspares : Spares footprint J) (hadmits : footprint.Admits location)
    (text : Text) : Preserves J (DiskAction.writeText location text) :=
  (hspares.makeParent hadmits.makes_parent).bind fun _ => (look _).bind fun _ =>
    hspares.place hadmits.puts_self _

/-- A copy goes to its target or, if that is a directory, into it. -/
theorem copyFile (hspares : Spares footprint J) (source : Location)
    (hadmits : footprint.Admits target) : Preserves J (DiskAction.copyFile source target) := by
  refine (hspares.makeParent hadmits.makes_parent).bind fun _ => ?_
  apply preserves_get_bind
  intro disk hdisk
  have hputs : footprint.puts (copyTarget disk source target) := by
    rw [copyTarget]
    split
    · exact hadmits.puts _ (List.prefix_append ..)
    · exact hadmits.puts_self
  have hput : Preserves J (do
      let bytes ← disk.read source
      change (·.place (copyTarget disk source target) bytes) : DiskAction Unit) :=
    (preserves_lift _).bind fun _ => hspares.place hputs _
  cases hsame : decide (copyTarget disk source target = source) && disk.exists? source with
  | true =>
      simp only [hsame, if_true]
      exact hdisk
  | false =>
      simp only [hsame, Bool.false_eq_true, if_false]
      exact hput disk hdisk

theorem takeLock (hspares : Spares footprint J) (hadmits : footprint.Admits location)
    (hlock : footprint.puts (lockOf location)) : Preserves J (DiskAction.takeLock location) := by
  have hparent : ∀ above, above <+: (lockOf location).dropLast → footprint.makes above := by
    rw [lockOf, List.dropLast_concat]
    exact hadmits.makes_parent
  unfold DiskAction.takeLock
  split
  · exact (preserves_throw _).bind fun _ => (hspares.makeDirectory hparent).bind fun _ =>
      hspares.place hlock _
  · exact (hspares.makeDirectory hparent).bind fun _ => hspares.place hlock _

theorem removeFile (hspares : Spares footprint J) (hremoves : footprint.removes location) :
    Preserves J (DiskAction.removeFile location) := by
  apply preserves_get_bind
  intro disk hdisk
  cases hfile : disk.isFile location with
  | false =>
      simp only [Bool.false_eq_true, if_false]
      exact hdisk
  | true =>
      simp only [if_true]
      exact hspares.step _ _ (.removes hremoves hfile) hdisk

end Spares

end PageLoom.Disk
