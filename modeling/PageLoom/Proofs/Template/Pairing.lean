import Mathlib.Tactic.Common
import PageLoom.Template.Block

/-!
# Pairing of directives

Opening and closing directives of a text pair like brackets: one that closes belongs to the nearest
one that is still open. A directive without a partner is text, and so is a separating directive
outside of every pair. Replacing the outermost blocks follows this pairing up to the first opening
directive without a partner, and leaves the rest of the text alone.
-/

namespace PageLoom.Template

open Scan

/-- What a text consists of once its directives are paired: pieces that stand for themselves, and
blocks between two partners. -/
inductive Part where
  | piece (piece : Piece Directive)
  | block (source : Text) (sections : List Section)
deriving Repr, DecidableEq

def Part.source : Part → Text
  | .piece found => found.source
  | .block source _ => source

def sourceOfParts (parts : List Part) : Text := parts.flatMap Part.source

/-- The sections of a block up to some place in it, the last of which goes on there. -/
structure Cut where
  complete : List Section
  current : Section

namespace Cut

def start (directive : Directive) : Cut := ⟨[], ⟨directive, []⟩⟩

def extend (cut : Cut) (text : Text) : Cut :=
  ⟨cut.complete, ⟨cut.current.directive, cut.current.body ++ text⟩⟩

/-- A separating directive begins the next section, everything else is text of the current one. -/
def add (role : Keyword → Role) (cut : Cut) (part : Part) : Cut :=
  match part with
  | .piece (.found source directive) =>
    if role directive.keyword = .separates then
      ⟨cut.complete ++ [cut.current], ⟨directive, []⟩⟩
    else cut.extend source
  | part => cut.extend part.source

def sections (cut : Cut) : List Section := cut.complete ++ [cut.current]

end Cut

def cutParts (role : Keyword → Role) (directive : Directive) (parts : List Part) : Cut :=
  parts.foldl (Cut.add role) (Cut.start directive)

/-- An opening directive that is still open, after the parts that stand before it. -/
structure Opened where
  before : List Part
  source : Text
  directive : Directive

def Opened.close (role : Keyword → Role) (opened : Opened) (inside : List Part) (closer : Text) :
    List Part :=
  opened.before ++
    [.block (opened.source ++ sourceOfParts inside ++ closer)
      (cutParts role opened.directive inside).sections]

/-- Directives that are never closed stand for themselves. -/
def leaveOpen : List Opened → List Part → List Part
  | [], level => level
  | last :: opened, level =>
    leaveOpen opened (last.before ++ .piece (.found last.source last.directive) :: level)

/-- Pairs the directives of some pieces, given the directives that are open, the last of them first,
and the parts since then. -/
def pairFrom (role : Keyword → Role) (opened : List Opened) (level : List Part) :
    List (Piece Directive) → List Part
  | [] => leaveOpen opened level
  | .plain c :: rest => pairFrom role opened (level ++ [.piece (.plain c)]) rest
  | .found source directive :: rest =>
    match role directive.keyword, opened with
    | .opens, _ => pairFrom role (⟨level, source, directive⟩ :: opened) [] rest
    | .closes, last :: others => pairFrom role others (last.close role level source) rest
    | .closes, [] | .separates, _ | .isText, _ =>
      pairFrom role opened (level ++ [.piece (.found source directive)]) rest

def paired (role : Keyword → Role) (found : List (Piece Directive)) : List Part :=
  pairFrom role [] [] found

/-- Whether a part is an opening directive without a partner. -/
def Part.isUnclosed (role : Keyword → Role) : Part → Bool
  | .piece (.found _ directive) => role directive.keyword == .opens
  | _ => false

def Part.isBlock : Part → Bool
  | .piece _ => false
  | .block _ _ => true

variable {role : Keyword → Role} {opened : List Opened} {level : List Part} {c : Char}
variable {source : Text} {directive : Directive} {found rest : List (Piece Directive)}

/-! ## One piece after the other -/

theorem sourceOfParts_append (left right : List Part) :
    sourceOfParts (left ++ right) = sourceOfParts left ++ sourceOfParts right :=
  List.flatMap_append

/-- A piece that stands for itself when some directives are open: it opens nothing, and if it is a
closing directive there is nothing to close. -/
def StandsAlone (role : Keyword → Role) (opened : List Opened) : Piece Directive → Prop
  | .plain _ => True
  | .found _ directive =>
    role directive.keyword ≠ .opens ∧ (role directive.keyword = .closes → opened = [])

theorem pairFrom_opens (hrole : role directive.keyword = .opens) :
    pairFrom role opened level (.found source directive :: rest) =
      pairFrom role (⟨level, source, directive⟩ :: opened) [] rest := by
  simp only [pairFrom, hrole]

theorem pairFrom_closes {last : Opened} (hrole : role directive.keyword = .closes) :
    pairFrom role (last :: opened) level (.found source directive :: rest) =
      pairFrom role opened (last.close role level source) rest := by
  simp only [pairFrom, hrole]

theorem pairFrom_standsAlone {piece : Piece Directive} (hpiece : StandsAlone role opened piece) :
    pairFrom role opened level (piece :: rest) =
      pairFrom role opened (level ++ [.piece piece]) rest := by
  cases piece with
  | plain c => rfl
  | found source directive =>
      cases hrole : role directive.keyword with
      | opens => exact absurd hrole hpiece.1
      | closes =>
          cases hpiece.2 hrole
          simp only [pairFrom, hrole]
      | separates => simp only [pairFrom, hrole]
      | isText => simp only [pairFrom, hrole]

/-- What a piece is to the directives that are open. -/
theorem piece_cases (role : Keyword → Role) (opened : List Opened) (piece : Piece Directive) :
    StandsAlone role opened piece ∨
      (∃ source directive, piece = .found source directive ∧ role directive.keyword = .opens) ∨
      ∃ source directive last others, piece = .found source directive ∧
        role directive.keyword = .closes ∧ opened = last :: others := by
  cases piece with
  | plain c => exact .inl trivial
  | found source directive =>
      cases hrole : role directive.keyword with
      | opens => exact .inr (.inl ⟨source, directive, rfl, hrole⟩)
      | closes =>
          cases opened with
          | nil => exact .inl ⟨by rw [hrole]; decide, fun _ => rfl⟩
          | cons last others =>
              exact .inr (.inr ⟨source, directive, last, others, rfl, hrole, rfl⟩)
      | separates => exact .inl ⟨by simp [hrole], by simp [hrole]⟩
      | isText => exact .inl ⟨by simp [hrole], by simp [hrole]⟩

theorem source_close (last : Opened) (inside : List Part) (closer : Text) :
    sourceOfParts (last.close role inside closer) =
      sourceOfParts last.before ++ last.source ++ sourceOfParts inside ++ closer := by
  simp [Opened.close, sourceOfParts, Part.source]

theorem source_leaveOpen (opened : List Opened) (level : List Part) :
    sourceOfParts (leaveOpen opened level) =
      sourceOfParts (leaveOpen opened []) ++ sourceOfParts level := by
  induction opened generalizing level with
  | nil => rfl
  | cons last opened ih =>
      rw [leaveOpen, leaveOpen, ih, ih (last.before ++ _)]
      simp [sourceOfParts]

theorem source_pairFrom (opened : List Opened) (level : List Part)
    (found : List (Piece Directive)) :
    sourceOfParts (pairFrom role opened level found) =
      sourceOfParts (leaveOpen opened level) ++ sourceOf found := by
  induction found generalizing opened level with
  | nil => rw [pairFrom, sourceOf, List.flatMap_nil, List.append_nil]
  | cons piece rest ih =>
      rcases piece_cases role opened piece with halone | ⟨source, directive, rfl, hrole⟩ |
        ⟨source, directive, last, others, rfl, hrole, rfl⟩
      · rw [pairFrom_standsAlone halone, ih, source_leaveOpen, source_leaveOpen opened level]
        simp [sourceOfParts, sourceOf, Part.source]
      · rw [pairFrom_opens hrole, ih, leaveOpen, source_leaveOpen, source_leaveOpen opened level]
        simp [sourceOfParts, sourceOf, Part.source, Piece.source]
      · rw [pairFrom_closes hrole, ih, leaveOpen, source_leaveOpen, source_close,
          source_leaveOpen others (last.before ++ _)]
        simp [sourceOfParts, sourceOf, Part.source, Piece.source]

/-- Pairing loses nothing. -/
@[simp]
theorem source_paired (found : List (Piece Directive)) :
    sourceOfParts (paired role found) = sourceOf found := source_pairFrom [] [] found

/-! ## A directive that is never closed -/

theorem leaveOpen_concat (opened : List Opened) (last : Opened) (level : List Part) :
    leaveOpen (opened ++ [last]) level =
      last.before ++ .piece (.found last.source last.directive) :: leaveOpen opened level := by
  induction opened generalizing level with
  | nil => rfl
  | cons first opened ih => exact ih _

/-- The parts before an opening directive that is never closed, and that directive, stay in front
of what the pieces after it are paired to. -/
theorem pairFrom_unclosed {last : Opened} (hnone : tailOf? role opened.length found = none) :
    pairFrom role (opened ++ [last]) level found =
      last.before ++
        .piece (.found last.source last.directive) :: pairFrom role opened level found := by
  induction found generalizing opened level with
  | nil => exact leaveOpen_concat opened last level
  | cons piece rest ih =>
      rcases piece_cases role (opened ++ [last]) piece with halone | ⟨source, directive, rfl, hrole⟩ |
        ⟨source, directive, first, others, rfl, hrole, hopened⟩
      · have hinner : StandsAlone role opened piece := by
          cases piece with
          | plain c => trivial
          | found source directive =>
              exact ⟨halone.1, fun hcloses => absurd (halone.2 hcloses) (by simp)⟩
        rw [pairFrom_standsAlone halone, pairFrom_standsAlone hinner]
        apply ih
        cases piece with
        | plain c => simpa [tailOf?] using hnone
        | found source directive =>
            cases hrole : role directive.keyword with
            | opens => exact absurd hrole halone.1
            | closes => exact absurd (halone.2 hrole) (by simp)
            | separates =>
                cases hdepth : opened.length <;> simpa [tailOf?, hrole, hdepth] using hnone
            | isText => simpa [tailOf?, hrole] using hnone
      · rw [pairFrom_opens hrole, pairFrom_opens hrole]
        apply @ih (⟨level, source, directive⟩ :: opened)
        simpa [tailOf?, hrole] using hnone
      · cases opened with
        | nil => simp [tailOf?, hrole] at hnone
        | cons inner opened =>
            rw [List.cons_append, pairFrom_closes hrole, pairFrom_closes hrole]
            apply ih
            simpa [tailOf?, hrole] using hnone

/-! ## A directive that is closed -/

namespace Cut

variable {cut : Cut}

theorem extend_append (first second : Text) :
    cut.extend (first ++ second) = (cut.extend first).extend second := by
  simp [extend]

/-- All sections of a block of which some part is cut already. -/
def finish (cut : Cut) (tail : Tail) : List Section :=
  cut.complete ++ ⟨cut.current.directive, cut.current.body ++ tail.body⟩ :: tail.sections

theorem finish_withText (text : Text) (tail : Tail) :
    cut.finish (tail.withText text) = (cut.extend text).finish tail := by
  simp [finish, extend, Tail.withText]

theorem finish_withSection (source : Text) (tail : Tail)
    (hrole : role directive.keyword = .separates) :
    cut.finish (tail.withSection directive) =
      (cut.add role (.piece (.found source directive))).finish tail := by
  simp [finish, add, Tail.withSection, hrole]

end Cut

theorem cutParts_concat (parts : List Part) (part : Part) :
    cutParts role directive (parts ++ [part]) = (cutParts role directive parts).add role part :=
  List.foldl_append

/-- What is cut of a block in which some directives are still open: all since the first of them is
text. -/
def cutInside (role : Keyword → Role) (directive : Directive) : List Opened → List Part → Cut
  | [], level => cutParts role directive level
  | last :: opened, level =>
    (cutInside role directive opened last.before).extend (last.source ++ sourceOfParts level)

/-- A part that separates nothing is text of the block. -/
theorem cutInside_concat {part : Part}
    (hpart : opened = [] → (cutParts role directive level).add role part =
      (cutParts role directive level).extend part.source) :
    cutInside role directive opened (level ++ [part]) =
      (cutInside role directive opened level).extend part.source := by
  cases opened with
  | nil => rw [cutInside, cutParts_concat, hpart rfl, cutInside]
  | cons last opened =>
      rw [cutInside, cutInside, ← Cut.extend_append, sourceOfParts_append, List.append_assoc]
      simp [sourceOfParts]

theorem cutInside_close (last : Opened) (closer : Text) :
    cutInside role directive opened (last.close role level closer) =
      (cutInside role directive (last :: opened) level).extend closer := by
  rw [Opened.close, cutInside_concat fun _ => rfl, cutInside, ← Cut.extend_append]
  rfl

/-- The parts after the end of a block, given what is cut of it so far and what a search for its end
finds ahead. -/
def Opened.closeAhead (role : Keyword → Role) (last : Opened) (opened : List Opened)
    (level : List Part) (found : List (Piece Directive)) (tail : Tail) : List Part :=
  last.before ++
    [.block
      (last.source ++ sourceOfParts (leaveOpen opened level) ++ sourceOf (found.take tail.size))
      ((cutInside role last.directive opened level).finish tail)]

/-- The partner of an opening directive ends its block, whatever is opened and closed before. -/
theorem pairFrom_closed {last : Opened} {below : List Opened} {tail : Tail}
    (htail : tailOf? role opened.length found = some tail) :
    pairFrom role (opened ++ last :: below) level found =
      pairFrom role below (last.closeAhead role opened level found tail)
        (found.drop tail.size) := by
  induction found generalizing opened level tail with
  | nil => cases htail
  | cons piece rest ih =>
      -- A piece that is text of the block, or of a block inside it, leaves the rest of the tail.
      have hinside : ∀ (inner : List Opened) (after : List Part),
          (tailOf? role inner.length rest).map (Tail.withText piece.source) = some tail →
          pairFrom role (opened ++ last :: below) level (piece :: rest) =
            pairFrom role (inner ++ last :: below) after rest →
          sourceOfParts (leaveOpen inner after) =
            sourceOfParts (leaveOpen opened level) ++ piece.source →
          cutInside role last.directive inner after =
            (cutInside role last.directive opened level).extend piece.source →
          pairFrom role (opened ++ last :: below) level (piece :: rest) =
            pairFrom role below (last.closeAhead role opened level (piece :: rest) tail)
              ((piece :: rest).drop tail.size) := by
        intro inner after hmap hstep hsource hcut
        obtain ⟨shorter, hshorter, rfl⟩ := Option.map_eq_some_iff.mp hmap
        rw [hstep, ih hshorter, Opened.closeAhead, Opened.closeAhead, hsource, hcut,
          Cut.finish_withText]
        simp [Tail.withText, sourceOf]
      have hlevel : sourceOfParts (leaveOpen opened (level ++ [.piece piece])) =
          sourceOfParts (leaveOpen opened level) ++ piece.source := by
        rw [source_leaveOpen, source_leaveOpen opened level]
        simp [sourceOfParts, Part.source]
      cases piece with
      | plain c => exact hinside opened _ htail rfl hlevel (cutInside_concat fun _ => rfl)
      | found source directive =>
          cases hrole : role directive.keyword with
          | opens =>
              apply hinside (⟨level, source, directive⟩ :: opened) []
              · simpa [tailOf?, hrole, Piece.source] using htail
              · exact pairFrom_opens hrole
              · exact hlevel
              · rw [cutInside]
                exact congrArg _ (List.append_nil _)
          | closes =>
              cases opened with
              | nil =>
                  simp only [tailOf?, hrole, List.length_nil, Option.some.injEq] at htail
                  subst htail
                  rw [List.nil_append, pairFrom_closes hrole, Opened.close, Opened.closeAhead]
                  simp [leaveOpen, sourceOf, Piece.source, cutInside, Cut.finish, Cut.sections]
              | cons first opened =>
                  apply hinside opened (first.close role level source)
                  · simpa [tailOf?, hrole, Piece.source] using htail
                  · exact pairFrom_closes hrole
                  · rw [← hlevel, leaveOpen, source_leaveOpen, source_close,
                      source_leaveOpen opened (first.before ++ _)]
                    simp [sourceOfParts, Part.source, Piece.source]
                  · exact cutInside_close first source
          | separates =>
              have halone : StandsAlone role (opened ++ last :: below) (.found source directive) :=
                ⟨by simp [hrole], by simp [hrole]⟩
              cases opened with
              | nil =>
                  simp only [tailOf?, hrole, List.length_nil] at htail
                  obtain ⟨shorter, hshorter, rfl⟩ := Option.map_eq_some_iff.mp htail
                  rw [pairFrom_standsAlone halone, @ih [] _ _ hshorter, Opened.closeAhead,
                    Opened.closeAhead, cutInside, cutParts_concat, cutInside,
                    Cut.finish_withSection source shorter hrole, hlevel]
                  simp [Tail.withSection, sourceOf]
              | cons first opened =>
                  apply hinside (first :: opened) _ ?_ (pairFrom_standsAlone halone) hlevel
                    (cutInside_concat (by simp))
                  simpa [tailOf?, hrole, Piece.source] using htail
          | isText =>
              have halone : StandsAlone role (opened ++ last :: below) (.found source directive) :=
                ⟨by simp [hrole], by simp [hrole]⟩
              apply hinside opened _ ?_ (pairFrom_standsAlone halone) hlevel
                (cutInside_concat fun _ => by simp [Cut.add, hrole, Part.source, Piece.source])
              simpa [tailOf?, hrole, Piece.source] using htail

/-! ## The outermost parts -/

/-- Pieces are paired from left to right: one that stands for itself, an opening directive that is
never closed, or one that is closed by the end of a tail. -/
@[elab_as_elim]
theorem pairing_induction {motive : List (Piece Directive) → Prop} (role : Keyword → Role)
    (nil : motive [])
    (alone : ∀ piece rest, StandsAlone role [] piece → motive rest → motive (piece :: rest))
    (unclosed : ∀ source directive rest, role directive.keyword = .opens →
      tailOf? role 0 rest = none → motive rest → motive (.found source directive :: rest))
    (closed : ∀ source directive rest tail, role directive.keyword = .opens →
      tailOf? role 0 rest = some tail → motive (rest.drop tail.size) →
        motive (.found source directive :: rest))
    (found : List (Piece Directive)) : motive found := by
  induction hlength : found.length using Nat.strongRecOn generalizing found with
  | _ length ih =>
      cases found with
      | nil => exact nil
      | cons piece rest =>
          have hshorter : ∀ later : List (Piece Directive), later.length ≤ rest.length →
              motive later := fun later hlater =>
            ih later.length (by rw [← hlength]; exact Nat.lt_succ_of_le hlater) later rfl
          rcases piece_cases role [] piece with halone | ⟨source, directive, rfl, hrole⟩ |
            ⟨source, directive, last, others, -, -, hopened⟩
          · exact alone piece rest halone (hshorter rest (Nat.le_refl _))
          · cases htail : tailOf? role 0 rest with
            | none =>
                exact unclosed source directive rest hrole htail (hshorter rest (Nat.le_refl _))
            | some tail =>
                apply closed source directive rest tail hrole htail
                exact hshorter _ (List.drop_sublist ..).length_le
          · cases hopened

theorem pairFrom_nil (level : List Part) (found : List (Piece Directive)) :
    pairFrom role [] level found = level ++ paired role found := by
  rw [paired]
  induction found using pairing_induction role generalizing level with
  | nil => exact (List.append_nil level).symm
  | alone piece rest halone ih =>
      rw [pairFrom_standsAlone halone, pairFrom_standsAlone halone, ih, ih ([] ++ _)]
      simp
  | unclosed source directive rest hrole hnone ih =>
      have hfirst := @pairFrom_unclosed role [] [] rest ⟨level, source, directive⟩ hnone
      have hempty := @pairFrom_unclosed role [] [] rest ⟨[], source, directive⟩ hnone
      rw [pairFrom_opens hrole, pairFrom_opens hrole]
      rw [List.nil_append] at hfirst hempty
      rw [hfirst, hempty]
      rfl
  | closed source directive rest tail hrole htail ih =>
      have hfirst := @pairFrom_closed role [] [] rest ⟨level, source, directive⟩ [] tail htail
      have hempty := @pairFrom_closed role [] [] rest ⟨[], source, directive⟩ [] tail htail
      rw [pairFrom_opens hrole, pairFrom_opens hrole]
      rw [List.nil_append] at hfirst hempty
      rw [hfirst, hempty, ih, ih (Opened.closeAhead ..)]
      simp [Opened.closeAhead]

theorem paired_standsAlone {piece : Piece Directive} (halone : StandsAlone role [] piece) :
    paired role (piece :: rest) = .piece piece :: paired role rest := by
  rw [paired, pairFrom_standsAlone halone, pairFrom_nil]
  rfl

theorem paired_unclosed (hrole : role directive.keyword = .opens)
    (hnone : tailOf? role 0 rest = none) :
    paired role (.found source directive :: rest) =
      .piece (.found source directive) :: paired role rest := by
  have hunclosed := @pairFrom_unclosed role [] [] rest ⟨[], source, directive⟩ hnone
  rw [paired, pairFrom_opens hrole]
  exact hunclosed

/-- The block of an opening directive that is closed is what the search for its end finds. -/
theorem paired_closed {tail : Tail} (hrole : role directive.keyword = .opens)
    (htail : tailOf? role 0 rest = some tail) :
    paired role (.found source directive :: rest) =
      .block (source ++ sourceOf (rest.take tail.size))
          (⟨directive, tail.body⟩ :: tail.sections) ::
        paired role (rest.drop tail.size) := by
  have hclosed := @pairFrom_closed role [] [] rest ⟨[], source, directive⟩ [] tail htail
  rw [paired, pairFrom_opens hrole, ← List.nil_append [_], hclosed, pairFrom_nil]
  simp [Opened.closeAhead, leaveOpen, cutInside, cutParts, Cut.start, Cut.finish, sourceOfParts]

end PageLoom.Template
