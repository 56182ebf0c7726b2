import Mathlib.Data.List.Induction
import Mathlib.Tactic.Common
import PageLoom.Markup.Comment
import PageLoom.Props

/-!
# Sealed texts

A text is sealed if its NUL characters stand in placeholders only, with no more digits than a limit
allows, if there is one: the numbers that can be read have one. Whoever reads such a text is outside
its placeholders, or behind some digits of one. A mark, which is neither a digit nor NUL, is always
outside, so that what is cut out of a sealed text between two marks is sealed, and another sealed
text may be put in its place.
-/

namespace PageLoom.Markup

open Scan

/-- One character further: `none` is outside placeholders, and `some count` inside one, of which
`count` digits are read. There may be a limit to how many digits there are. -/
def advance? (limit : Option Nat) : Option Nat → Char → Option (Option Nat)
  | none, c => some (if c = '\x00' then some 0 else none)
  | some count, c =>
    if c = '\x00' then if count = 0 then none else some none
    else if Text.isDigit c && limit.all (count < ·) then some (some (count + 1)) else none

def Leads (limit start : Option Nat) (text : Text) (finish : Option Nat) : Prop :=
  text.foldlM (advance? limit) start = some finish

def Sealed (limit : Option Nat) (text : Text) : Prop := Leads limit none text none

def IsMark (c : Char) : Prop := c ≠ '\x00' ∧ Text.isDigit c = false

instance (c : Char) : Decidable (IsMark c) := inferInstanceAs (Decidable (_ ∧ _))

section Texts

variable {limit start finish : Option Nat} {text before after : Text} {c : Char}

@[simp]
theorem leads_nil : Leads limit start [] finish ↔ start = finish := by
  simp [Leads]

theorem leads_cons : Leads limit start (c :: text) finish ↔
    ∃ between, advance? limit start c = some between ∧ Leads limit between text finish := by
  rw [Leads, List.foldlM_cons]
  exact Option.bind_eq_some_iff

theorem leads_append : Leads limit start (before ++ after) finish ↔
    ∃ between, Leads limit start before between ∧ Leads limit between after finish := by
  rw [Leads, List.foldlM_append]
  exact Option.bind_eq_some_iff

theorem advance?_mark (hmark : IsMark c) {between : Option Nat} :
    advance? limit start c = some between ↔ start = none ∧ between = none := by
  cases start with
  | none => simp [advance?, hmark.1, eq_comm]
  | some count => simp [advance?, hmark.1, hmark.2]

theorem leads_mark (hmark : IsMark c) :
    Leads limit start (c :: text) finish ↔ start = none ∧ Leads limit none text finish := by
  rw [leads_cons]
  constructor
  · rintro ⟨between, hadvance, htext⟩
    obtain ⟨rfl, rfl⟩ := (advance?_mark hmark).mp hadvance
    exact ⟨rfl, htext⟩
  · rintro ⟨rfl, htext⟩
    exact ⟨none, (advance?_mark hmark).mpr ⟨rfl, rfl⟩, htext⟩

/-- A text may be cut at a mark. -/
theorem leads_append_mark (hmark : IsMark c) :
    Leads limit start (before ++ c :: after) finish ↔
      Leads limit start before none ∧ Leads limit none after finish := by
  rw [leads_append]
  constructor
  · rintro ⟨between, hbefore, hmarked⟩
    obtain ⟨rfl, hafter⟩ := (leads_mark hmark).mp hmarked
    exact ⟨hbefore, hafter⟩
  · rintro ⟨hbefore, hafter⟩
    exact ⟨none, hbefore, (leads_mark hmark).mpr ⟨rfl, hafter⟩⟩

@[simp]
theorem sealed_nil : Sealed limit [] := leads_nil.mpr rfl

theorem Sealed.append (hbefore : Sealed limit before) (hafter : Sealed limit after) :
    Sealed limit (before ++ after) := leads_append.mpr ⟨none, hbefore, hafter⟩

theorem sealed_cons (hmark : IsMark c) : Sealed limit (c :: text) ↔ Sealed limit text := by
  rw [Sealed, leads_mark hmark]
  exact and_iff_right rfl

theorem sealed_append_mark (hmark : IsMark c) :
    Sealed limit (before ++ c :: after) ↔ Sealed limit before ∧ Sealed limit after :=
  leads_append_mark hmark

/-- Without NUL one stays outside. -/
theorem leads_append_of_not_mem (habsent : '\x00' ∉ before) :
    Leads limit none (before ++ after) finish ↔ Leads limit none after finish := by
  induction before with
  | nil => rfl
  | cons c before ih =>
      rw [List.mem_cons, not_or] at habsent
      rw [List.cons_append, leads_cons]
      have hadvance : advance? limit none c = some none := by
        rw [advance?, if_neg (Ne.symm habsent.1)]
      simp [hadvance, ih habsent.2]

theorem sealed_of_not_mem (habsent : '\x00' ∉ text) : Sealed limit text := by
  rw [← List.append_nil text, Sealed, leads_append_of_not_mem habsent, leads_nil]

theorem sealed_flatten {texts : List Text} (htexts : ∀ text ∈ texts, Sealed limit text) :
    Sealed limit texts.flatten := by
  induction texts with
  | nil => exact sealed_nil
  | cons text rest ih =>
      rw [List.flatten_cons]
      exact (htexts text (List.mem_cons_self ..)).append
        (ih fun other hmem => htexts other (List.mem_cons_of_mem _ hmem))

end Texts

/-! ## Pieces -/

section Pieces

variable {α : Type} {limit start finish : Option Nat} {found : List (Piece α)}
variable {pattern : Pattern α}

/-- Reading the pieces of a text, every found one of which is sealed and stands outside. -/
def Threads (limit : Option Nat) : Option Nat → List (Piece α) → Option Nat → Prop
  | start, [], finish => start = finish
  | start, .plain c :: rest, finish =>
    ∃ between, advance? limit start c = some between ∧ Threads limit between rest finish
  | start, .found source _ :: rest, finish =>
    start = none ∧ Sealed limit source ∧ Threads limit none rest finish

/-- What a pattern covers begins and ends with a mark. -/
def Marked (pattern : Pattern α) : Prop :=
  ∀ before c text value more, pattern before (c :: text) = some (value, more) →
    IsMark c ∧ ∃ inside last rest, text = inside ++ last :: rest ∧ IsMark last ∧
      more = inside.length + 1

theorem threads_append {before after : List (Piece α)} :
    Threads limit start (before ++ after) finish ↔
      ∃ between, Threads limit start before between ∧ Threads limit between after finish := by
  induction before generalizing start with
  | nil => simp [Threads]
  | cons piece rest ih =>
      cases piece with
      | plain c =>
          simp only [List.cons_append, Threads, ih]
          constructor
          · rintro ⟨first, hadvance, between, hrest, hafter⟩
            exact ⟨between, ⟨first, hadvance, hrest⟩, hafter⟩
          · rintro ⟨between, ⟨first, hadvance, hrest⟩, hafter⟩
            exact ⟨first, hadvance, between, hrest, hafter⟩
      | found source value =>
          simp only [List.cons_append, Threads, ih]
          constructor
          · rintro ⟨hstart, hsource, between, hrest, hafter⟩
            exact ⟨between, ⟨hstart, hsource, hrest⟩, hafter⟩
          · rintro ⟨between, ⟨hstart, hsource, hrest⟩, hafter⟩
            exact ⟨hstart, hsource, between, hrest, hafter⟩

theorem threads_piecesFrom (hmarked : Marked pattern) {skip : Nat} {before : Option Char}
    {text : Text} (htext : Leads limit start (text.drop skip) finish) :
    Threads limit start (piecesFrom pattern skip before text) finish := by
  induction text generalizing start skip before with
  | nil =>
      rw [List.drop_nil, leads_nil] at htext
      rw [piecesFrom]
      exact htext
  | cons c text ih =>
      cases skip with
      | succ skip => exact ih htext
      | zero =>
          rw [List.drop_zero] at htext
          rw [piecesFrom]
          split
          · obtain ⟨between, hadvance, hrest⟩ := leads_cons.mp htext
            exact ⟨between, hadvance, ih hrest⟩
          · rename_i value more hfound
            obtain ⟨hfirst, inside, last, rest, rfl, hlast, rfl⟩ := hmarked _ _ _ _ _ hfound
            obtain ⟨hstart, hinside⟩ := (leads_mark hfirst).mp htext
            obtain ⟨hinside, hrest⟩ := (leads_append_mark hlast).mp hinside
            refine ⟨hstart, ?_, ih ?_⟩
            · have hsource : (inside ++ last :: rest).take (inside.length + 1) =
                  inside ++ [last] := List.take_length_add_append 1
              rw [hsource, sealed_cons hfirst, sealed_append_mark hlast]
              exact ⟨hinside, sealed_nil⟩
            · rwa [List.drop_length_add_append]

/-- What was found begins where the pattern does. -/
theorem found_of_mem {skip : Nat} {before : Option Char} {text source : Text} {value : α}
    (hmem : .found source value ∈ piecesFrom pattern skip before text) :
    ∃ before c rest more, pattern before (c :: rest) = some (value, more) ∧
      source = c :: rest.take more := by
  induction text generalizing skip before with
  | nil => cases hmem
  | cons c text ih =>
      cases skip with
      | succ skip => exact ih hmem
      | zero =>
          rw [piecesFrom] at hmem
          split at hmem
          · rcases List.mem_cons.mp hmem with hsame | hmem
            · cases hsame
            · exact ih hmem
          · rename_i hfound
            rcases List.mem_cons.mp hmem with hsame | hmem
            · cases hsame
              exact ⟨_, c, text, _, hfound, rfl⟩
            · exact ih hmem

/-- A pattern that covers what is between marks cuts a sealed text into sealed pieces. -/
theorem threads_pieces (hmarked : Marked pattern) {text : Text}
    (htext : Leads limit start text finish) :
    Threads limit start (pieces pattern text) finish := threads_piecesFrom hmarked htext

theorem Threads.sourceOf (hfound : Threads limit start found finish) :
    Leads limit start (sourceOf found) finish := by
  induction found generalizing start with
  | nil => exact leads_nil.mpr hfound
  | cons piece rest ih =>
      cases piece with
      | plain c =>
          obtain ⟨between, hadvance, hrest⟩ := hfound
          exact leads_cons.mpr ⟨between, hadvance, ih hrest⟩
      | found source value =>
          obtain ⟨rfl, hsource, hrest⟩ := hfound
          exact leads_append.mpr ⟨none, hsource, ih hrest⟩

theorem Threads.sealed_of_mem (hfound : Threads limit start found finish) {source : Text}
    {value : α}
    (hmem : .found source value ∈ found) : Sealed limit source := by
  obtain ⟨before, after, rfl⟩ := List.append_of_mem hmem
  obtain ⟨between, -, -, hsource, -⟩ := threads_append.mp hfound
  exact hsource

/-- Sealed texts may be put in the place of what was found. -/
theorem Threads.flatMap (hfound : Threads limit start found finish) {change : Text → α → Text}
    (hchange : ∀ source value, .found source value ∈ found → Sealed limit (change source value)) :
    Leads limit start (found.flatMap fun
      | .plain c => [c]
      | .found source value => change source value) finish := by
  induction found generalizing start with
  | nil => exact leads_nil.mpr hfound
  | cons piece rest ih =>
      have hrestChange := fun source value hmem =>
        hchange source value (List.mem_cons_of_mem _ hmem)
      rw [List.flatMap_cons]
      cases piece with
      | plain c =>
          obtain ⟨between, hadvance, hrest⟩ := hfound
          exact leads_cons.mpr ⟨between, hadvance, ih hrest hrestChange⟩
      | found source value =>
          obtain ⟨rfl, -, hrest⟩ := hfound
          exact leads_append.mpr
            ⟨none, hchange source value (List.mem_cons_self ..), ih hrest hrestChange⟩

end Pieces

/-! ## Cutting and filling -/

section Filling

variable {limit start finish : Option Nat} {text : Text}

theorem marked_literal {first last : Char} (hfirst : IsMark first) (hlast : IsMark last)
    (inside : Text) : Marked (literal (first :: inside ++ [last])) := by
  intro before c text value more hfound
  simp only [literal, List.cons_append, List.isEmpty_cons, Bool.false_eq_true, if_false] at hfound
  split at hfound
  · rename_i hstarts
    obtain ⟨rest, hrest⟩ := Option.isSome_iff_exists.mp hstarts
    have hsplit := Text.eq_append_of_afterStart? hrest
    rw [List.cons_append, List.cons.injEq] at hsplit
    obtain ⟨rfl, rfl⟩ := hsplit
    rw [Option.some.injEq, Prod.mk.injEq] at hfound
    refine ⟨hfirst, inside, last, rest, by simp, hlast, ?_⟩
    rw [← hfound.2]
    simp
  · cases hfound

/-- Filling places between marks with a sealed text. -/
theorem leads_replaceAll {first last : Char} (hfirst : IsMark first) (hlast : IsMark last)
    {inside new : Text} (hnew : Sealed limit new) (htext : Leads limit start text finish) :
    Leads limit start (Text.replaceAll (first :: inside ++ [last]) new text) finish :=
  (threads_pieces (marked_literal hfirst hlast inside) htext).flatMap fun _ _ _ => hnew

/-- The code points of all blanks. -/
def blankCodes : List Nat :=
  List.range' 9 5 ++ List.range' 28 5 ++ [133, 160, 5760] ++ List.range' 8192 11 ++
    [8232, 8233, 8239, 8287, 12288]

theorem isMark_of_isBlank {c : Char} (hblank : Text.isBlank c = true) : IsMark c := by
  have hcodes : ∀ code ∈ blankCodes, IsMark (Char.ofNat code) := by decide
  have hmem : c.toNat ∈ blankCodes := by
    unfold Text.isBlank at hblank
    dsimp only at hblank
    simp only [blankCodes, List.mem_append, List.mem_range'_1, List.mem_cons, List.not_mem_nil]
    split at hblank
    · simp only [Bool.or_eq_true, Bool.and_eq_true, decide_eq_true_eq] at hblank
      omega
    · simp only [Bool.or_eq_true, Bool.and_eq_true, decide_eq_true_eq, beq_iff_eq] at hblank
      omega
  rw [← Char.ofNat_toNat c]
  exact hcodes _ hmem

theorem Sealed.dropWhile (htext : Sealed limit text) :
    Sealed limit (text.dropWhile Text.isBlank) := by
  induction text with
  | nil => exact sealed_nil
  | cons c text ih =>
      rw [List.dropWhile_cons]
      split
      · rename_i hblank
        exact ih ((sealed_cons (isMark_of_isBlank hblank)).mp htext)
      · exact htext

theorem Sealed.trimEnd (htext : Sealed limit text) : Sealed limit (Text.trimEnd text) := by
  rw [Text.trimEnd, Text.trimEndWhile]
  induction text using List.reverseRecOn with
  | nil => exact sealed_nil
  | append_singleton text c ih =>
      rw [List.reverse_append, List.reverse_singleton, List.singleton_append, List.dropWhile_cons]
      split
      · rename_i hblank
        exact ih ((sealed_append_mark (isMark_of_isBlank hblank)).mp htext).1
      · rwa [← List.singleton_append, ← List.reverse_singleton, ← List.reverse_append,
          List.reverse_reverse]

theorem Sealed.trim (htext : Sealed limit text) : Sealed limit (Text.trim text) :=
  htext.dropWhile.trimEnd

theorem Sealed.splitOn {separator : Char} (hmark : IsMark separator) (htext : Sealed limit text) :
    ∀ part ∈ Text.splitOn separator text, Sealed limit part := by
  have hparts : ∀ (text : Text) (start : Option Nat), Leads limit start text none →
      ∃ part parts, Text.splitOn separator text = part :: parts ∧ Leads limit start part none ∧
        ∀ other ∈ parts, Sealed limit other := by
    intro text
    induction text with
    | nil => exact fun start htext => ⟨[], [], rfl, htext, by simp⟩
    | cons c text ih =>
        intro start htext
        rw [Text.splitOn]
        by_cases hseparator : c = separator
        · subst hseparator
          obtain ⟨rfl, hrest⟩ := (leads_mark hmark).mp htext
          obtain ⟨part, parts, hsplit, hpart, hparts⟩ := ih none hrest
          rw [if_pos rfl, hsplit]
          refine ⟨[], part :: parts, rfl, leads_nil.mpr rfl, ?_⟩
          intro other hmem
          rcases List.mem_cons.mp hmem with rfl | hmem
          · exact hpart
          · exact hparts other hmem
        · obtain ⟨between, hadvance, hrest⟩ := leads_cons.mp htext
          obtain ⟨part, parts, hsplit, hpart, hparts⟩ := ih between hrest
          rw [if_neg hseparator, hsplit]
          exact ⟨c :: part, parts, rfl, leads_cons.mpr ⟨between, hadvance, hpart⟩, hparts⟩
  obtain ⟨part, parts, hsplit, hpart, hothers⟩ := hparts text none htext
  rw [hsplit]
  intro other hmem
  rcases List.mem_cons.mp hmem with rfl | hmem
  · exact hpart
  · exact hothers other hmem

theorem sealed_joinWith {separator : Char} (hmark : IsMark separator) {texts : List Text}
    (htexts : ∀ text ∈ texts, Sealed limit text) :
    Sealed limit (Text.joinWith [separator] texts) := by
  induction texts with
  | nil => exact sealed_nil
  | cons text rest ih =>
      have htext := htexts text (List.mem_cons_self ..)
      cases rest with
      | nil => exact htext
      | cons next others =>
          rw [Text.joinWith, List.append_assoc, List.singleton_append, sealed_append_mark hmark]
          exact ⟨htext, ih fun other hmem => htexts other (List.mem_cons_of_mem _ hmem)⟩

end Filling

/-! ## Props -/

section Values

variable {limit : Option Nat} {value : PropValue} {props : Props}

def SealedValue (limit : Option Nat) : PropValue → Prop
  | .scalar text => Sealed limit text
  | .list values => ∀ text ∈ values, Sealed limit text

def SealedProps (limit : Option Nat) (props : Props) : Prop :=
  ∀ prop ∈ props, SealedValue limit prop.2

theorem SealedValue.asText (hvalue : SealedValue limit value) : Sealed limit value.asText := by
  cases value with
  | scalar text => exact hvalue
  | list values => exact sealed_joinWith (by decide) hvalue

theorem SealedValue.items (hvalue : SealedValue limit value) :
    ∀ item ∈ value.items, Sealed limit item := by
  cases value with
  | scalar text =>
      cases text with
      | nil => simp [PropValue.items]
      | cons c text => exact Sealed.splitOn (by decide) hvalue
  | list values => exact hvalue

theorem sealedProps_of_plain (hplain : ∀ prop ∈ props, '\x00' ∉ prop.2.asText) :
    SealedProps limit props := by
  have hjoined : ∀ texts : List Text, '\x00' ∉ Text.joinWith [','] texts →
      ∀ text ∈ texts, '\x00' ∉ text := by
    intro texts habsent
    induction texts with
    | nil => exact fun text hmem => by cases hmem
    | cons text rest ih =>
        cases rest with
        | nil => simpa [Text.joinWith] using habsent
        | cons next others =>
            rw [Text.joinWith, List.mem_append, List.mem_append, not_or, not_or] at habsent
            intro other hmem
            rcases List.mem_cons.mp hmem with rfl | hmem
            · exact habsent.1.1
            · exact ih habsent.2 other hmem
  rintro ⟨name, value⟩ hmem
  have habsent := hplain _ hmem
  cases value with
  | scalar text => exact sealed_of_not_mem habsent
  | list values => exact fun text htext => sealed_of_not_mem (hjoined values habsent text htext)

end Values

end PageLoom.Markup
