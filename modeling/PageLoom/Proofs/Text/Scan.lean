import Mathlib.Data.List.Infix
import Mathlib.Tactic.Common
import PageLoom.Text.Scan

/-!
# Scanning piece by piece

Most patterns do not ask for the character before a position. Scanning with such a pattern goes on
after a piece as if the text began there, so that the pieces of a text are told one by one.
-/

namespace PageLoom.Scan

variable {α : Type} {pattern : Pattern α} {c : Char} {text before after : Text}

/-- The character before a position does not matter. -/
def ContextFree (pattern : Pattern α) : Prop :=
  ∀ before other text, pattern before text = pattern other text

theorem piecesFrom_eq (hpattern : ContextFree pattern) (skip : Nat) (before : Option Char)
    (text : Text) : piecesFrom pattern skip before text = pieces pattern (text.drop skip) := by
  have hbefore : ∀ skip (text : Text) before other,
      piecesFrom pattern skip before text = piecesFrom pattern skip other text := by
    intro skip text
    cases text with
    | nil => exact fun _ _ => by cases skip <;> rfl
    | cons c text =>
        cases skip with
        | succ skip => exact fun _ _ => rfl
        | zero => exact fun before other => by rw [piecesFrom, piecesFrom, hpattern before other]
  induction text generalizing skip before with
  | nil =>
      rw [List.drop_nil]
      cases skip <;> rfl
  | cons c text ih =>
      cases skip with
      | zero => exact hbefore 0 (c :: text) before none
      | succ skip => exact ih skip (some c)

theorem pieces_cons_plain (hpattern : ContextFree pattern)
    (hnone : pattern none (c :: text) = none) :
    pieces pattern (c :: text) = .plain c :: pieces pattern text := by
  rw [pieces, piecesFrom, hnone]
  exact congrArg _ (piecesFrom_eq hpattern 0 (some c) text)

theorem pieces_cons_found (hpattern : ContextFree pattern) {value : α} {more : Nat}
    (hsome : pattern none (c :: text) = some (value, more)) :
    pieces pattern (c :: text) =
      .found (c :: text.take more) value :: pieces pattern (text.drop more) := by
  rw [pieces, piecesFrom, hsome]
  exact congrArg _ (piecesFrom_eq hpattern more (some c) text)

/-- As long as the pattern does not begin, every character is a piece of its own. -/
theorem pieces_append_plain (hpattern : ContextFree pattern)
    (hnone : ∀ c rest, c :: rest <:+ before → pattern none (c :: rest ++ after) = none) :
    pieces pattern (before ++ after) = before.map .plain ++ pieces pattern after := by
  induction before with
  | nil => rfl
  | cons c before ih =>
      have hfirst := hnone c before (List.suffix_refl _)
      rw [List.cons_append] at hfirst ⊢
      rw [pieces_cons_plain hpattern hfirst,
        ih fun other rest hsuffix => hnone other rest (hsuffix.trans (List.suffix_cons ..))]
      rfl

theorem pieces_eq_plain (hpattern : ContextFree pattern)
    (hnone : ∀ c rest, c :: rest <:+ text → pattern none (c :: rest) = none) :
    pieces pattern text = text.map .plain := by
  have hpieces := @pieces_append_plain α pattern text [] hpattern fun c rest hsuffix => by
    rw [List.append_nil]
    exact hnone c rest hsuffix
  rwa [List.append_nil, show pieces pattern [] = [] from rfl, List.append_nil] at hpieces

/-- A pattern that begins with a certain character is not found where that does not stand. -/
theorem pieces_append_of_not_mem (hpattern : ContextFree pattern) {start : Char}
    (hstart : ∀ c rest, c ≠ start → pattern none (c :: rest) = none) (habsent : start ∉ before)
    (after : Text) : pieces pattern (before ++ after) = before.map .plain ++ pieces pattern after := by
  apply pieces_append_plain hpattern
  intro c rest hsuffix
  apply hstart
  rintro rfl
  exact habsent (hsuffix.subset (List.mem_cons_self ..))

theorem pieces_of_not_mem (hpattern : ContextFree pattern) {start : Char}
    (hstart : ∀ c rest, c ≠ start → pattern none (c :: rest) = none) (habsent : start ∉ text) :
    pieces pattern text = text.map .plain := by
  have hpieces := pieces_append_of_not_mem hpattern hstart habsent []
  rwa [List.append_nil, show pieces pattern [] = [] from rfl, List.append_nil] at hpieces

/-- A text that does not change where the pattern begins in the text before it is scanned after
that text. -/
theorem pieces_append (hpattern : ContextFree pattern)
    (hsame : ∀ c rest, c :: rest <:+ before →
      pattern none (c :: rest ++ after) = pattern none (c :: rest))
    (hbound : ∀ c rest value more, pattern none (c :: rest) = some (value, more) →
      more ≤ rest.length) :
    pieces pattern (before ++ after) = pieces pattern before ++ pieces pattern after := by
  induction hlength : before.length using Nat.strongRecOn generalizing before with
  | _ length ih =>
      cases before with
      | nil => rfl
      | cons c rest =>
          have hfirst := hsame c rest (List.suffix_refl _)
          have hlater : ∀ later : Text, later <:+ rest →
              pieces pattern (later ++ after) = pieces pattern later ++ pieces pattern after := by
            intro later hsuffix
            refine ih later.length ?_ (fun other others hother => ?_) rfl
            · rw [← hlength, List.length_cons]
              exact Nat.lt_succ_of_le hsuffix.length_le
            · exact hsame other others (hother.trans (hsuffix.trans (List.suffix_cons ..)))
          cases hfound : pattern none (c :: rest) with
          | none =>
              rw [hfound] at hfirst
              rw [List.cons_append] at hfirst ⊢
              rw [pieces_cons_plain hpattern hfirst, pieces_cons_plain hpattern hfound,
                hlater rest (List.suffix_refl _), List.cons_append]
          | some answer =>
              obtain ⟨value, more⟩ := answer
              have hmore := hbound c rest value more hfound
              rw [hfound] at hfirst
              rw [List.cons_append] at hfirst ⊢
              rw [pieces_cons_found hpattern hfirst, pieces_cons_found hpattern hfound,
                List.take_append_of_le_length hmore, List.drop_append_of_le_length hmore,
                hlater _ (List.drop_suffix ..), List.cons_append]

/-- No piece is empty. -/
theorem source_ne_nil {skip : Nat} {previous : Option Char} {piece : Piece α}
    (hmem : piece ∈ piecesFrom pattern skip previous text) : piece.source ≠ [] := by
  induction text generalizing skip previous with
  | nil => cases skip <;> cases hmem
  | cons c text ih =>
      cases skip with
      | succ skip => exact ih hmem
      | zero =>
          rw [piecesFrom] at hmem
          split at hmem
          · rcases List.mem_cons.mp hmem with rfl | hlater
            · simp [Piece.source]
            · exact ih hlater
          · rcases List.mem_cons.mp hmem with rfl | hlater
            · simp [Piece.source]
            · exact ih hlater

theorem getLast?_cons_or (c : Char) (text : Text) (previous : Option Char) :
    (c :: text).getLast?.or previous = text.getLast?.or (some c) := by
  rw [List.getLast?_cons]
  cases text.getLast? <;> rfl

/-- Scanning goes on where a pattern ends, after the last character that it covers. -/
theorem piecesFrom_append (pattern : Pattern α) (previous : Option Char) (before after : Text) :
    piecesFrom pattern before.length previous (before ++ after) =
      piecesFrom pattern 0 (before.getLast?.or previous) after := by
  induction before generalizing previous with
  | nil => rfl
  | cons c before ih =>
      rw [getLast?_cons_or]
      exact ih (some c)

end PageLoom.Scan

namespace PageLoom.Text

theorem afterStart?_eq_some {start text rest : Text} :
    afterStart? start text = some rest ↔ text = start ++ rest :=
  ⟨eq_append_of_afterStart?, fun hsplit => by rw [hsplit, afterStart?_append]⟩

theorem afterStart?_eq_none {start text : Text} :
    afterStart? start text = none ↔ ¬start <+: text := by
  rw [Option.eq_none_iff_forall_ne_some]
  constructor
  · rintro hnone ⟨rest, rfl⟩
    exact hnone rest (afterStart?_append start rest)
  · rintro hstart rest hsome
    exact hstart ⟨rest, (eq_append_of_afterStart? hsome).symm⟩

theorem cutAt?_eq_none {mark text : Text} : cutAt? mark text = none ↔ ¬mark <:+: text := by
  induction text with
  | nil => cases mark <;> simp [cutAt?]
  | cons c text ih =>
      rw [cutAt?, List.infix_cons_iff, not_or, ← ih]
      cases hstart : afterStart? mark (c :: text) with
      | some after =>
          have hprefixed : mark <+: c :: text := ⟨after, (eq_append_of_afterStart? hstart).symm⟩
          simp [hprefixed]
      | none =>
          have hother := afterStart?_eq_none.mp hstart
          cases cutAt? mark text <;> simp [hother]

/-- A mark whose first character does not come before it is where a text is cut. -/
theorem cutAt?_append {first : Char} {mark left right : Text} (hleft : first ∉ left) :
    cutAt? (first :: mark) (left ++ (first :: mark ++ right)) = some (left, right) := by
  induction left with
  | nil =>
      have hstart := afterStart?_append (first :: mark) right
      rw [List.nil_append]
      rw [List.cons_append] at hstart ⊢
      rw [cutAt?, hstart]
  | cons c left ih =>
      rw [List.mem_cons, not_or] at hleft
      rw [List.cons_append, cutAt?, afterStart?, if_neg hleft.1, ih hleft.2]

/-! ## Marks and a character that is in none of them -/

section Stops

variable {mark left right : Text} {stop : Char}

theorem afterStart?_append_stop (hstop : stop ∉ mark) :
    afterStart? mark (left ++ stop :: right) =
      (afterStart? mark left).map (· ++ stop :: right) := by
  induction mark generalizing left with
  | nil => simp
  | cons expected mark ih =>
      rw [List.mem_cons, not_or] at hstop
      cases left with
      | nil => simp [afterStart?, Ne.symm hstop.1]
      | cons actual left =>
          rw [List.cons_append, afterStart?, afterStart?]
          split
          · exact ih hstop.2
          · rfl

theorem cutAt?_append_stop (hmark : mark ≠ []) (hstop : stop ∉ mark) :
    cutAt? mark (left ++ stop :: right) =
      match cutAt? mark left with
      | some (before, after) => some (before, after ++ stop :: right)
      | none => (cutAt? mark right).map fun cut => (left ++ stop :: cut.1, cut.2) := by
  induction left with
  | nil =>
      obtain ⟨expected, others, rfl⟩ := List.exists_cons_of_ne_nil hmark
      have hfirst := @afterStart?_append_stop (expected :: others) [] right stop hstop
      have hnone : afterStart? (expected :: others) (stop :: right) = none := hfirst
      simp only [List.nil_append, cutAt?, hnone, List.isEmpty_cons, Bool.false_eq_true, if_false]
      cases cutAt? (expected :: others) right <;> rfl
  | cons c left ih =>
      have hfirst := @afterStart?_append_stop mark (c :: left) right stop hstop
      rw [List.cons_append] at hfirst ⊢
      rw [cutAt?, cutAt?, hfirst, ih]
      cases afterStart? mark (c :: left) with
      | some after => rfl
      | none =>
          cases cutAt? mark left with
          | some cut => rfl
          | none => cases cutAt? mark right <;> rfl

/-- A mark stands on one side of a character that is not in it. -/
theorem infix_append_stop (hmark : mark ≠ []) (hstop : stop ∉ mark) :
    mark <:+: left ++ stop :: right ↔ mark <:+: left ∨ mark <:+: right := by
  rw [← not_iff_not, not_or, ← cutAt?_eq_none, ← cutAt?_eq_none, ← cutAt?_eq_none,
    cutAt?_append_stop hmark hstop]
  cases cutAt? mark left <;> simp

/-- What stands before the first occurrence of a character. -/
theorem append_cons_left_inj {before other : Text} (hleft : stop ∉ left) (hright : stop ∉ right)
    (hsame : left ++ stop :: before = right ++ stop :: other) : left = right := by
  have hfirst : cutAt? [stop] (left ++ stop :: before) = some (left, before) := cutAt?_append hleft
  have hsecond : cutAt? [stop] (right ++ stop :: other) = some (right, other) :=
    cutAt?_append hright
  rw [hsame, hsecond] at hfirst
  exact (Prod.mk.inj (Option.some.inj hfirst)).1.symm

/-- A mark does not begin in a text without its first character. -/
theorem not_prefix_append (hleft : left ≠ []) (habsent : stop ∉ left) :
    ¬stop :: mark <+: left ++ right := by
  obtain ⟨first, others, rfl⟩ := List.exists_cons_of_ne_nil hleft
  rw [List.cons_append, List.cons_prefix_cons, not_and]
  rintro rfl
  exact absurd List.mem_cons_self habsent

/-- A mark does not reach over a character that is not in it. -/
theorem prefix_of_prefix_append (hstop : stop ∉ mark) (hstart : mark <+: left ++ stop :: right) :
    mark <+: left := by
  by_contra hnone
  rw [← afterStart?_eq_none] at hnone
  have hreach := @afterStart?_append_stop mark left right stop hstop
  rw [hnone, Option.map_none, afterStart?_eq_none] at hreach
  exact hreach hstart

end Stops

end PageLoom.Text
