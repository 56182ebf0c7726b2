import PageLoom.Proofs.Site.Footprint

/-!
# What lasts through a build

A build makes directories where nothing is and puts files where no directory is, and removes none;
the session stays one for the same components directory. Whatever no such step destroys, wherever
it is taken, lasts through a build, however the build ends.
-/

namespace PageLoom

namespace Disk

/-- What no step destroys that a build takes on the disk. -/
structure Lasting (J : Disk → Prop) : Prop where
  makes : ∀ disk location, disk.exists? location = false → J disk → J (disk.set location .directory)
  puts : ∀ disk location bytes, disk.isDirectory location = false → J disk →
    J (disk.set location (.file bytes))

/-- A file stays a file. -/
theorem lasting_isFile (place : Location) : Lasting fun disk => disk.isFile place = true := by
  constructor
  · intro disk location hfree hfile
    obtain ⟨bytes, hbytes⟩ := isFile_iff.mp hfile
    have hlocation : location ≠ [] := by
      rintro rfl
      cases hfree
    rw [isFile, entry?_set disk hlocation, if_neg, hbytes]
    rintro rfl
    rw [exists?, hbytes] at hfree
    cases hfree
  · intro disk location bytes hdirectory hfile
    obtain ⟨old, hold⟩ := isFile_iff.mp hfile
    have hlocation : location ≠ [] := by
      rintro rfl
      cases hdirectory
    rw [isFile, entry?_set disk hlocation]
    by_cases hplace : place = location
    · rw [if_pos hplace]
    · rw [if_neg hplace, hold]

/-- Directories and files anywhere, and no removals. -/
def Footprint.additions : Footprint := ⟨fun _ => True, fun _ => True, fun _ => False⟩

theorem Footprint.admits_additions (base : Location) : additions.Admits base :=
  ⟨fun _ _ => trivial, fun _ _ => trivial⟩

theorem Lasting.spares {J : Disk → Prop} (hlasting : Lasting J) : Spares Footprint.additions J := by
  constructor
  intro before after hstep
  cases hstep with
  | makes hmakes hfree => exact hlasting.makes _ _ hfree
  | puts hputs hroom => exact hlasting.puts _ _ _ hroom
  | removes hremoves hfile => cases hremoves

end Disk

namespace Site

open BuildAction Component Disk DiskAction

/-- What no step of a build destroys, neither on the disk nor in its session. -/
structure Lasting (I : BuildState → Prop) : Prop where
  onDisk : ∀ session loaded, Disk.Lasting fun disk => I ⟨disk, session, loaded⟩
  session : ∀ state session loaded, state.session.Kindred session → I state →
    I { state with session, loaded }

/-- A file stays a file through a build. -/
theorem lasting_isFile (place : Location) : Lasting fun state => state.disk.isFile place = true :=
  ⟨fun _ _ => Disk.lasting_isFile place, fun _ _ _ _ hfile => hfile⟩

/-- A session stays one for the same components directory. -/
theorem lasting_kindred (session : Session) : Lasting fun state => session.Kindred state.session :=
  ⟨fun _ _ => ⟨fun _ _ _ hkindred => hkindred, fun _ _ _ _ hkindred => hkindred⟩,
    fun _ _ _ hkindred hsession => hsession.trans hkindred⟩

/-- The disk has no part in what a session is for. -/
theorem sparesLoading_kindred (footprint : Footprint) (session : Session) :
    SparesLoading footprint fun state => session.Kindred state.session := by
  refine ⟨⟨fun _ _ => ⟨fun _ _ _ hkindred => hkindred⟩, ?_⟩, fun _ _ hkindred hsession =>
    hsession.trans hkindred⟩
  exact fun state other hstore htraced hsession =>
    hsession.trans ⟨by rw [hstore], by rw [hstore], htraced.symm⟩

theorem Lasting.spares {I : BuildState → Prop} (hlasting : Lasting I) :
    SparesLoading Footprint.additions I where
  onDisk session loaded := (hlasting.onDisk session loaded).spares
  session state session hstore htraced :=
    hlasting.session state session state.loaded ⟨by rw [hstore], by rw [hstore], htraced.symm⟩
  loads state session := hlasting.session state session true

/-- What no step of a build destroys is there after it. -/
theorem Plan.preserves_build {I : BuildState → Prop} (hlasting : Lasting I) (plan : Plan)
    (processors : Nat) : Preserves I (plan.build processors) :=
  hlasting.spares.build (Footprint.admits_additions plan.output) trivial processors

end Site

end PageLoom
