import PageLoom.Proofs.Action
import PageLoom.Proofs.Disk.Names
import PageLoom.Proofs.Table

/-!
# Paths as texts

A path that was read from a text is the one that its own text is read as: the names are no empty
ones, no points and hold no slashes, so that cutting at slashes finds them again, and the anchor is
what the text begins with.
-/

namespace PageLoom

/-- A name as it stands between the slashes of a text. -/
structure IsPart (name : Text) : Prop where
  whole : '/' ∉ name
  nonempty : name ≠ []
  moving : name ≠ ['.']

namespace Path

structure IsWritten (path : Path) : Prop where
  anchor : path.anchor = [] ∨ path.anchor = ['/'] ∨ path.anchor = ['/', '/']
  names : ∀ name ∈ path.names, IsPart name

variable {path : Path} {text : Text} {names : List Text}

theorem anchorOf_cases (text : Text) :
    anchorOf text = [] ∨ anchorOf text = ['/'] ∨ anchorOf text = ['/', '/'] := by
  unfold anchorOf
  split <;> simp

theorem isWritten_ofText (text : Text) : (ofText text).IsWritten where
  anchor := anchorOf_cases text
  names name hmem := by
    obtain ⟨hsplit, hkept⟩ := List.mem_filter.mp hmem
    rw [Bool.and_eq_true, Bool.not_eq_true', bne_iff_ne] at hkept
    refine ⟨Text.not_mem_of_mem_splitOn hsplit, ?_, hkept.2⟩
    rintro rfl
    cases hkept.1

/-- Parts are found again between slashes. -/
theorem names_ofText_textOfNames (hnames : ∀ name ∈ names, IsPart name) :
    (ofText (textOfNames names)).names = names := by
  by_cases hsome : names = []
  · rw [hsome]
    rfl
  · have hseparates : Text.Separates ['/'] (textOfNames names) names := {
      exists_piece := hsome
      joined := rfl
      apart := fun name hmem => by
        rw [List.singleton_infix_iff]
        exact (hnames name hmem).whole }
    rw [ofText, hseparates.splitOn_eq]
    apply List.filter_eq_self.mpr
    intro name hmem
    rw [Bool.and_eq_true, Bool.not_eq_true', bne_iff_ne]
    exact ⟨by simpa using (hnames name hmem).nonempty, (hnames name hmem).moving⟩

/-- No slash stands in front of the parts. -/
theorem head?_textOfNames (hnames : ∀ name ∈ names, IsPart name) :
    ∀ c ∈ (textOfNames names).head?, c ≠ '/' := by
  cases names with
  | nil => nofun
  | cons name rest =>
      have hpart := hnames name (List.mem_cons_self ..)
      obtain ⟨first, others, rfl⟩ := List.exists_cons_of_ne_nil hpart.nonempty
      rw [textOfNames, Text.joinWith_cons]
      intro c hc
      cases hc
      rintro rfl
      exact hpart.whole (List.mem_cons_self ..)

theorem anchorOf_append {anchor : Text}
    (hanchor : anchor = [] ∨ anchor = ['/'] ∨ anchor = ['/', '/'])
    (hfirst : ∀ c ∈ text.head?, c ≠ '/') : anchorOf (anchor ++ text) = anchor := by
  cases text with
  | nil => rcases hanchor with rfl | rfl | rfl <;> rfl
  | cons c rest =>
      have hc : c ≠ '/' := hfirst c rfl
      rcases hanchor with rfl | rfl | rfl <;> simp [anchorOf, hc]

theorem names_ofText_append {anchor : Text}
    (hanchor : anchor = [] ∨ anchor = ['/'] ∨ anchor = ['/', '/']) (text : Text) :
    (ofText (anchor ++ text)).names = (ofText text).names := by
  rcases hanchor with rfl | rfl | rfl
  · rfl
  · exact names_ofText_slash text
  · exact (names_ofText_slash ('/' :: text)).trans (names_ofText_slash text)

/-- A path that can be written is read again from its text. -/
theorem ofText_toText (hpath : path.IsWritten) : ofText path.toText = path := by
  obtain ⟨anchor, names⟩ := path
  obtain ⟨hanchor, hnames⟩ := hpath
  rw [toText]
  split
  · next hnone =>
    rw [Bool.and_eq_true, List.isEmpty_iff, List.isEmpty_iff] at hnone
    obtain ⟨rfl, rfl⟩ : anchor = [] ∧ names = [] := hnone
    rfl
  · have hanchorOf := anchorOf_append hanchor (head?_textOfNames hnames)
    have hnamesOf := names_ofText_append hanchor (textOfNames names)
    rw [names_ofText_textOfNames hnames] at hnamesOf
    calc ofText (anchor ++ textOfNames names)
        = ⟨anchorOf (anchor ++ textOfNames names),
            (ofText (anchor ++ textOfNames names)).names⟩ := rfl
      _ = ⟨anchor, names⟩ := by rw [hanchorOf, hnamesOf]

end Path

/-- The names of the current directory are parts, and the home directories can be written. -/
structure Standpoint.IsWritten (standpoint : Standpoint) : Prop where
  current : ∀ name ∈ standpoint.current, IsPart name
  homes : ∀ entry ∈ standpoint.homes, entry.2.IsWritten

namespace Path

variable {standpoint : Standpoint} {path expanded : Path} {location : Location}

theorem IsWritten.expandHome (hpath : path.IsWritten) (hstandpoint : standpoint.IsWritten)
    (hexpanded : path.expandHome standpoint = .ok expanded) : expanded.IsWritten := by
  unfold Path.expandHome at hexpanded
  split at hexpanded
  · next user names =>
    split at hexpanded
    · cases hexpanded
    split at hexpanded
    · next home hhome =>
      split at hexpanded
      · cases hexpanded
      · cases hexpanded
        have hwritten := hstandpoint.homes _ (Table.mem_of_lookup hhome)
        refine ⟨hwritten.anchor, List.forall_mem_append.mpr ⟨hwritten.names, ?_⟩⟩
        exact fun name hmem => hpath.names name (List.mem_cons_of_mem _ hmem)
    · cases hexpanded
  · cases hexpanded
    exact hpath

/-- The names of a location that a path leads to are parts. -/
theorem IsWritten.locate (hpath : path.IsWritten) (hstandpoint : standpoint.IsWritten)
    (hlocation : path.locate standpoint = .ok location) : ∀ name ∈ location, IsPart name := by
  obtain ⟨expanded, hexpanded, hresolved⟩ := except_bind_eq_ok.mp hlocation
  have hwritten := hpath.expandHome hstandpoint hexpanded
  rw [resolve] at hresolved
  split at hresolved
  · cases hresolved
  · cases hresolved
    intro name hmem
    rcases List.mem_append.mp ((follow_sublist _ _).subset hmem) with hstart | hname
    · unfold start at hstart
      split at hstart
      · cases hstart
      · exact hstandpoint.current name hstart
    · exact hwritten.names name hname

end Path

end PageLoom
