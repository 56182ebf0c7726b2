import PageLoom.Proofs.Action
import PageLoom.Proofs.Markup.Numbering
import PageLoom.Template.Trace

/-!
# Texts with marker lines

An annotated text is a text with marker lines between its characters, but never inside of a
placeholder. Comments are put back into it at the same places as into the text without the lines.
Stripping leaves out every marker line, and nothing else unless the text itself has a marker.
-/

namespace PageLoom.Template

open Scan Markup

/-- What a name must not have in order to stand in a marker line. -/
def FitsLine (name : Text) : Prop := '\n' ∉ name ∧ '\x00' ∉ name

def IsMarker (marker : Text) : Prop := marker = startMarker ∨ marker = endMarker

/-- `Interlined start plain traced finish`: the traced text is the plain one with marker lines, read
from one state to another. -/
inductive Interlined : Option Nat → Text → Text → Option Nat → Prop
  | nil {state} : Interlined state [] [] state
  | char {start between finish c plain traced} (hadvance : advance? none start c = some between)
      (hrest : Interlined between plain traced finish) :
      Interlined start (c :: plain) (c :: traced) finish
  | line {marker name plain traced finish} (hmarker : IsMarker marker) (hname : FitsLine name)
      (hrest : Interlined none plain traced finish) :
      Interlined none plain (markerLine marker name ++ traced) finish

abbrev Annotated (plain traced : Text) : Prop := Interlined none plain traced none

section Composition

variable {start between finish : Option Nat} {plain traced : Text}

theorem Interlined.append {otherPlain otherTraced : Text}
    (hfirst : Interlined start plain traced between)
    (hsecond : Interlined between otherPlain otherTraced finish) :
    Interlined start (plain ++ otherPlain) (traced ++ otherTraced) finish := by
  induction hfirst with
  | nil => exact hsecond
  | char hadvance _ ih => exact .char hadvance (ih hsecond)
  | line hmarker hname _ ih =>
      rw [List.append_assoc]
      exact .line hmarker hname (ih hsecond)

/-- No line at all. -/
theorem interlined_of_leads {text : Text} (htext : Leads none start text finish) :
    Interlined start text text finish := by
  induction text generalizing start with
  | nil =>
      rw [leads_nil] at htext
      rw [htext]
      exact .nil
  | cons c text ih =>
      obtain ⟨between, hadvance, hrest⟩ := leads_cons.mp htext
      exact .char hadvance (ih hrest)

/-- The two lines around a fragment. -/
theorem annotated_wrapFragment {name : Text} (hname : FitsLine name)
    (htext : Annotated plain traced) : Annotated plain (wrapFragment name traced) := by
  have hend : Annotated [] (markerLine endMarker name ++ []) := .line (.inr rfl) hname .nil
  have hboth := (Interlined.line (.inl rfl) hname htext).append hend
  rwa [List.append_nil, List.append_nil] at hboth

end Composition

/-! ## Putting comments back -/

section Restoring

variable {comments : List Text} {plain traced : Text}

/-- From inside a placeholder both texts go on alike to the end of it. -/
theorem interlined_inside {count : Nat} (htext : Interlined (some count) plain traced none) :
    ∃ digits plainRest tracedRest, plain = digits ++ '\x00' :: plainRest ∧
      traced = digits ++ '\x00' :: tracedRest ∧ (∀ c ∈ digits, Text.isDigit c = true) ∧
      0 < count + digits.length ∧ Annotated plainRest tracedRest := by
  induction plain generalizing count traced with
  | nil => cases htext
  | cons c plain ih =>
      cases htext with
      | char hadvance hrest =>
          rw [advance?] at hadvance
          split_ifs at hadvance with hnul hzero hdigit
          · cases hadvance
            exact ⟨[], plain, _, by rw [hnul]; rfl, by rw [hnul]; rfl, by simp,
              Nat.pos_of_ne_zero hzero, hrest⟩
          · cases hadvance
            obtain ⟨digits, plainRest, tracedRest, rfl, rfl, hdigits, hpositive, hrest⟩ := ih hrest
            refine ⟨c :: digits, plainRest, tracedRest, rfl, rfl, ?_, ?_, hrest⟩
            · rw [Bool.and_eq_true] at hdigit
              exact List.forall_mem_cons.mpr ⟨hdigit.1, hdigits⟩
            · rw [List.length_cons]
              omega

theorem not_mem_markerLine {marker name : Text} (hmarker : IsMarker marker)
    (hname : FitsLine name) : '\x00' ∉ markerLine marker name := by
  have habsent : '\x00' ∉ marker := by
    rcases hmarker with rfl | rfl
    · decide
    · decide
  simp only [markerLine, List.cons_append, List.mem_cons, List.mem_append, not_or]
  exact ⟨by decide, ⟨⟨habsent, hname.2⟩, by decide⟩, by decide, List.not_mem_nil⟩

/-- What a placeholder gives way to does not depend on the lines, and is whole. -/
theorem alike_restorePiece (hcomments : ∀ comment ∈ comments, Sealed none comment) {digits : Text}
    (hdigits : ∀ c ∈ digits, Text.isDigit c = true) (hpositive : 0 < digits.length) :
    Alike Annotated (restorePiece comments (.found ('\x00' :: digits ++ ['\x00']) digits))
      (restorePiece comments (.found ('\x00' :: digits ++ ['\x00']) digits)) := by
  have hnone : ∀ most ∈ (none : Option Nat), digits.length ≤ most := fun most hmost => by
    cases hmost
  rw [restorePiece]
  cases Number.readWhole? digits with
  | none => exact .error
  | some number =>
      apply Alike.ok
      apply interlined_of_leads
      cases hcomment : comments[number]? with
      | none => exact sealed_of_digits hdigits hpositive hnone
      | some comment => exact hcomments comment (List.mem_of_getElem? hcomment)

/-- Comments are put back alike with and without marker lines. The induction is on the traced text,
which loses a character, a line or a placeholder. -/
theorem alike_restoreComments (hcomments : ∀ comment ∈ comments, Sealed none comment)
    (htext : Annotated plain traced) :
    Alike Annotated (restoreComments comments plain) (restoreComments comments traced) := by
  by_cases hnone : comments = []
  · subst hnone
    exact .ok htext
  induction hlength : traced.length using Nat.strongRecOn generalizing plain traced with
  | _ length ih =>
      cases htext with
      | nil =>
          rw [restoreComments_nil]
          exact .ok .nil
      | @char _ between _ c plain traced hadvance hrest =>
          by_cases hnul : c = '\x00'
          · subst hnul
            cases hadvance
            obtain ⟨digits, plainRest, tracedRest, rfl, rfl, hdigits, hpositive, hrest⟩ :=
              interlined_inside hrest
            rw [Nat.zero_add] at hpositive
            have hothers := ih tracedRest.length (by simp at hlength; omega) hrest rfl
            have hnew := alike_restorePiece hcomments hdigits hpositive
            rw [restoreComments_digits hnone hdigits hpositive,
              restoreComments_digits hnone hdigits hpositive]
            generalize restorePiece comments _ = new at hnew ⊢
            cases hnew with
            | error => exact .error
            | ok hnew => exact hothers.map fun _ _ hrest => hnew.append hrest
          · rw [advance?, if_neg hnul, Option.some.injEq] at hadvance
            subst hadvance
            have hothers := ih traced.length (by simp at hlength; omega) hrest rfl
            rw [restoreComments_cons hnul, restoreComments_cons hnul]
            exact hothers.map fun _ _ hrest => .char (by rw [advance?, if_neg hnul]) hrest
      | @line marker name _ traced _ hmarker hname hrest =>
          have hshorter : traced.length < length := by
            rw [← hlength, List.length_append]
            exact Nat.lt_add_of_pos_left (Nat.succ_pos _)
          rw [restoreComments_append (not_mem_markerLine hmarker hname)]
          exact (ih traced.length hshorter hrest rfl).map_right fun _ _ hrest =>
            .line hmarker hname hrest

end Restoring

/-! ## Stripping -/

section Stripping

variable {start finish : Option Nat} {plain traced : Text}

theorem contextFree_tracePattern : ContextFree tracePattern := fun _ _ _ => rfl

/-- A text without line ends at the head of the traced text is at the head of the plain one. -/
theorem Interlined.prefix_of_prefix {head : Text} (htext : Interlined start plain traced finish)
    (hhead : '\n' ∉ head) (htraced : head <+: traced) : head <+: plain := by
  induction htext generalizing head with
  | nil => exact htraced
  | char hadvance hrest ih =>
      cases head with
      | nil => exact List.nil_prefix
      | cons c head =>
          rw [List.mem_cons, not_or] at hhead
          obtain ⟨rfl, hrestHead⟩ := List.cons_prefix_cons.mp htraced
          exact List.cons_prefix_cons.mpr ⟨rfl, ih hhead.2 hrestHead⟩
  | line hmarker hname hrest ih =>
      cases head with
      | nil => exact List.nil_prefix
      | cons c head =>
          rw [markerLine, List.cons_append, List.cons_append] at htraced
          obtain ⟨rfl, -⟩ := List.cons_prefix_cons.mp htraced
          exact absurd (List.mem_cons_self ..) hhead

theorem markerLength?_line (marker : Text) {name : Text} (hname : '\n' ∉ name) (rest : Text) :
    markerLength? marker (marker ++ name ++ markerEnd ++ '\n' :: rest) =
      some (marker.length + (name ++ markerEnd).length + 1) := by
  have hline : (name ++ markerEnd ++ '\n' :: rest).takeWhile (· ≠ '\n') = name ++ markerEnd := by
    rw [List.takeWhile_append_of_pos, List.takeWhile_cons_of_neg (by simp), List.append_nil]
    intro c hmem
    simp only [ne_eq, decide_not, Bool.not_eq_eq_eq_not, Bool.not_true, decide_eq_false_iff_not]
    rintro rfl
    rcases List.mem_append.mp hmem with hmem | hmem
    · exact hname hmem
    · exact absurd hmem (by decide)
  have hends : Text.endsWith markerEnd (name ++ markerEnd) = true := by
    rw [Text.endsWith, Text.startsWith, List.reverse_append, Text.afterStart?_append]
    rfl
  rw [markerLength?, List.append_assoc marker, List.append_assoc marker, Text.afterStart?_append]
  simp only [hline, hends]
  simp

theorem tracePattern_line {marker name : Text} (hmarker : IsMarker marker) (hname : '\n' ∉ name)
    (rest : Text) :
    tracePattern none (markerLine marker name ++ rest) =
      some ((), (markerLine marker name).length - 1) := by
  have hline : markerLine marker name ++ rest =
      '\n' :: (marker ++ name ++ markerEnd ++ '\n' :: rest) := by
    simp [markerLine]
  have hlength : (markerLine marker name).length - 1 =
      marker.length + (name ++ markerEnd).length + 1 := by
    simp [markerLine]
    omega
  rw [hline, hlength]
  rcases hmarker with rfl | rfl
  · have hother : markerLength? endMarker (startMarker ++ name ++ markerEnd ++ '\n' :: rest) =
        none := rfl
    simp only [tracePattern, hother, markerLength?_line startMarker hname, Option.map_some]
  · simp only [tracePattern, markerLength?_line endMarker hname]

theorem tracePattern_of_ne {c : Char} (hother : c ≠ '\n') (text : Text) :
    tracePattern none (c :: text) = none := by
  unfold tracePattern
  split
  · rename_i rest hsame
    exact absurd (List.cons.inj hsame).1 hother
  · rfl

theorem markerLength?_of_not_prefix {marker text : Text} (hnone : ¬marker <+: text) :
    markerLength? marker text = none := by
  rw [markerLength?, Text.afterStart?_eq_none.mpr hnone]

/-- A line end of the plain text begins no marker line if there is no marker in that text. -/
theorem tracePattern_of_annotated (htext : Interlined start plain traced finish)
    (hplain : ∀ marker, IsMarker marker → ¬marker <:+: plain) (c : Char) :
    tracePattern none (c :: traced) = none := by
  by_cases hline : c = '\n'
  · have hnone : ∀ marker, IsMarker marker → '\n' ∉ marker → markerLength? marker traced = none :=
      fun marker hmarker hinside => markerLength?_of_not_prefix fun hprefixed =>
        hplain marker hmarker (htext.prefix_of_prefix hinside hprefixed).isInfix
    rw [hline, tracePattern, hnone endMarker (.inr rfl) (by decide),
      hnone startMarker (.inl rfl) (by decide)]
    rfl
  · exact tracePattern_of_ne hline traced

/-- Stripping a text without markers of its own leaves out all marker lines, and nothing else. -/
theorem stripMarkers_of_annotated (htext : Interlined start plain traced finish)
    (hplain : ∀ marker, IsMarker marker → ¬marker <:+: plain) : stripMarkers traced = plain := by
  induction htext with
  | nil => rfl
  | @char _ _ _ c plain traced hadvance hrest ih =>
      have hlater : ∀ marker, IsMarker marker → ¬marker <:+: plain := fun marker hmarker hinfixed =>
        hplain marker hmarker (List.infix_cons hinfixed)
      have hstripped := ih hlater
      rw [stripMarkers, replaceWith] at hstripped ⊢
      rw [pieces_cons_plain contextFree_tracePattern (tracePattern_of_annotated hrest hlater c),
        List.flatMap_cons, hstripped]
      rfl
  | @line marker name plain traced _ hmarker hname hrest ih =>
      have hstripped := ih hplain
      rw [stripMarkers, replaceWith] at hstripped ⊢
      obtain ⟨c, others, hline⟩ : ∃ c others, markerLine marker name = c :: others := ⟨_, _, rfl⟩
      have hfound := tracePattern_line hmarker hname.1 traced
      rw [hline, List.length_cons, Nat.add_sub_cancel, List.cons_append] at hfound
      rw [hline, List.cons_append, pieces_cons_found contextFree_tracePattern hfound,
        List.drop_left, List.flatMap_cons, hstripped]
      rfl

end Stripping

end PageLoom.Template
