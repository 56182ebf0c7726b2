import PageLoom.Proofs.Text.Replace
import PageLoom.Proofs.Toml.Scalar
import PageLoom.Toml.Document

/-!
# What the reading of a document can fail for

Every reader of a part of a document leaves an end of the text, and its errors have their causes in
the text. So a document is malformed, holds a number with too many digits, or opens more arrays and
inline tables than there is room for.
-/

namespace PageLoom.Toml

open Config

variable {room : Nat} {text rest : Text} {item : Reader Datum}

/-! ## Keys and what stands between values -/

theorem within_keyPart (text : Text) : Within room text (keyPart text) := by
  unfold keyPart
  split
  · exact (within_literal _).mono (List.suffix_cons _ _)
  · exact (within_basic _).mono (List.suffix_cons _ _)
  · split
    · exact List.dropWhile_suffix _
    · exact trivial
  · exact trivial

theorem within_keyFrom (steps : Nat) (text : Text) : Within room text (keyFrom steps text) := by
  induction steps generalizing text with
  | zero => exact trivial
  | succ steps ih =>
      refine (within_keyPart text).bind fun part rest hrest => ?_
      have hspaces := (skipSpaces_suffix rest).trans hrest
      dsimp only
      split
      · next after hpoint =>
        rw [hpoint] at hspaces
        have hafter := (skipSpaces_suffix after).trans ((List.suffix_cons _ after).trans hspaces)
        exact ((ih _).mono hafter).bind fun _ _ hlast => hlast
      · exact hspaces

theorem within_key (text : Text) : Within room text (key text) := within_keyFrom _ text

/-- What is left after something is skipped is an end of a text. -/
def Skips (room : Nat) (text : Text) (result : Except TomlError Text) : Prop :=
  Meets (· <:+ text) (Blames room text) result

theorem Skips.mono {result : Except TomlError Text} (hresult : Skips room rest result)
    (hsuffix : rest <:+ text) : Skips room text result :=
  Meets.imp hresult (fun _ hleft => hleft.trans hsuffix) fun _ => Blames.mono hsuffix

theorem skips_skipComment (text : Text) : Skips room text (skipComment text) := by
  unfold skipComment
  split
  · next rest =>
    split
    · exact trivial
    · exact (List.dropWhile_suffix _).trans (List.suffix_cons _ rest)
  · exact List.suffix_rfl

theorem skips_skipCommentsAndBlanks (steps : Nat) (text : Text) :
    Skips room text (skipCommentsAndBlanks steps text) := by
  induction steps generalizing text with
  | zero => exact List.suffix_rfl
  | succ steps ih =>
      have hblanks : text.dropWhile isSpaceOrNewline <:+ text := List.dropWhile_suffix _
      unfold skipCommentsAndBlanks
      split
      · next rest hcomment =>
        rw [hcomment] at hblanks
        exact Meets.bind ((skips_skipComment _).mono hblanks) fun after hafter =>
          (ih after).mono hafter
      · exact hblanks

theorem skips_skipBetweenItems (text : Text) : Skips room text (skipBetweenItems text) :=
  skips_skipCommentsAndBlanks _ text

/-! ## Values -/

theorem within_arrayItems (hitem : ∀ text, Within room text (item text)) (steps : Nat)
    (text : Text) : Within room text (arrayItems item steps text) := by
  induction steps generalizing text with
  | zero => exact trivial
  | succ steps ih =>
      refine Meets.bind (skips_skipBetweenItems text) fun start hstart => ?_
      split
      · exact (List.suffix_cons _ _).trans hstart
      refine ((hitem _).mono hstart).bind fun first rest hrest => ?_
      refine Meets.bind ((skips_skipBetweenItems rest).mono hrest) fun after hafter => ?_
      split
      · exact (List.suffix_cons _ _).trans hafter
      · next others =>
        exact ((ih others).mono ((List.suffix_cons _ _).trans hafter)).bind fun _ _ hlast => hlast
      · exact trivial

theorem within_keyAndValue (hitem : ∀ text, Within room text (item text)) (text : Text) :
    Within room text (keyAndValue item text) := by
  refine (within_key text).bind fun key rest hrest => ?_
  dsimp only
  split
  · next after =>
    have hafter := (skipSpaces_suffix after).trans ((List.suffix_cons _ after).trans hrest)
    exact ((hitem _).mono hafter).bind fun _ _ hlast => hlast
  · exact trivial

theorem blames_inlineConflict (key : Key) (table : Table) :
    Blames room text (inlineConflict key table) := by
  unfold inlineConflict
  split <;> exact trivial

theorem within_inlineEntries (hitem : ∀ text, Within room text (item text)) (steps : Nat)
    (closed : List Key) (table : Table) (text : Text) :
    Within room text (inlineEntries item steps closed table text) := by
  induction steps generalizing closed table text with
  | zero => exact trivial
  | succ steps ih =>
      refine (within_keyAndValue hitem text).bind fun entry rest hrest => ?_
      have hspaces := (skipSpaces_suffix rest).trans hrest
      obtain ⟨key, value⟩ := entry
      dsimp only
      split
      · exact trivial
      split
      · exact blames_inlineConflict key table
      split
      · next after hafter =>
        rw [hafter] at hspaces
        exact (List.suffix_cons _ after).trans hspaces
      · next after hafter =>
        rw [hafter] at hspaces
        exact (ih _ _ _).mono ((skipSpaces_suffix after).trans
          ((List.suffix_cons _ after).trans hspaces))
      · exact trivial

theorem within_inlineTable (hitem : ∀ text, Within room text (item text)) (text : Text) :
    Within room text (inlineTable item text) := by
  have hspaces := skipSpaces_suffix text
  unfold inlineTable
  split
  · next rest hrest =>
    rw [hrest] at hspaces
    exact (List.suffix_cons _ rest).trans hspaces
  · exact (within_inlineEntries hitem _ _ _ _).mono hspaces

theorem Within.mapFirst {α β : Type} {f : α → β} {result : Except TomlError (α × Text)}
    (hresult : Within room text result) : Within room text (mapFirst f result) := by
  cases result with
  | error error => exact hresult
  | ok read => exact hresult

/-- What an opening bracket or brace takes of the room, it adds to the weight of the text. -/
theorem Within.opened {α : Type} {c : Char} {inner : Nat} {result : Except TomlError (α × Text)}
    (hresult : Within inner text result) (hroom : room ≤ openingRoom c + inner) :
    Within room (c :: text) result := by
  refine Meets.imp hresult (fun _ hleft => hleft.trans (List.suffix_cons c text)) ?_
  intro error herror
  cases error with
  | malformed | conflict => exact trivial
  | tooManyDigits => exact HasLongNumber.mono (List.suffix_cons c text) herror
  | tooDeep =>
      have hinner : inner < nestingWeight text := herror
      have hweight : nestingWeight (c :: text) = openingRoom c + nestingWeight text := rfl
      change room < nestingWeight (c :: text)
      omega

theorem within_value (room : Nat) (text : Text) : Within room text (value room text) := by
  induction room using Nat.strongRecOn generalizing text with
  | _ room ih =>
      -- The items of an array or an inline table have the room that its opening leaves.
      have hbracket : openingRoom '[' = 2 := rfl
      have hbrace : openingRoom '\x7b' = 3 := rfl
      unfold value
      split
      · exact (within_basicLines _).mapFirst.mono (List.suffix_append ['"', '"', '"'] _)
      · exact (within_basic _).mapFirst.mono (List.suffix_cons _ _)
      · exact (within_literalLines _).mapFirst.mono (List.suffix_append ['\'', '\'', '\''] _)
      · exact (within_literal _).mapFirst.mono (List.suffix_cons _ _)
      · next rest =>
        split
        · next inner =>
          exact (within_arrayItems (ih inner (by omega)) _ rest).mapFirst.opened (by omega)
        · next hlow =>
          change room < openingRoom '[' + nestingWeight rest
          by_contra hroom
          exact hlow (room - 2) (by omega)
      · next rest =>
        split
        · next inner =>
          exact (within_inlineTable (ih inner (by omega)) rest).mapFirst.opened (by omega)
        · next hlow =>
          change room < openingRoom '\x7b' + nestingWeight rest
          by_contra hroom
          exact hlow (room - 3) (by omega)
      · split
        · next hstart => exact suffix_of_afterStart? hstart
        · next hstart => exact suffix_of_afterStart? hstart
        · exact within_momentOrNumber _

/-! ## Statements -/

theorem within_keyValueStatement (hitem : ∀ text, Within room text (item text))
    (progress : Progress) (text : Text) :
    Within room text (keyValueStatement item progress text) := by
  refine (within_keyAndValue hitem text).bind fun entry rest hrest => ?_
  obtain ⟨key, value⟩ := entry
  dsimp only
  split
  · exact trivial
  split
  · exact trivial
  split
  · exact trivial
  · exact hrest

theorem within_tableStatement (progress : Progress) (text : Text) :
    Within room text (tableStatement progress text) := by
  refine ((within_key _).mono (skipSpaces_suffix text)).bind fun key rest hrest => ?_
  dsimp only
  split
  · exact trivial
  split
  · exact (List.suffix_cons _ _).trans hrest
  · exact trivial

theorem within_arrayTableStatement (progress : Progress) (text : Text) :
    Within room text (arrayTableStatement progress text) := by
  refine ((within_key _).mono (skipSpaces_suffix text)).bind fun key rest hrest => ?_
  dsimp only
  split
  · exact trivial
  split
  · exact trivial
  split
  · exact (List.suffix_append [']', ']'] _).trans hrest
  · exact trivial

theorem within_line (hitem : ∀ text, Within room text (item text)) (progress : Progress)
    (text : Text) : Within room text (line item progress text) := by
  unfold line
  split
  · exact List.suffix_rfl
  · exact List.suffix_rfl
  · exact List.suffix_rfl
  · exact (within_arrayTableStatement _ _).mono (List.suffix_append ['[', '['] _)
  · exact (within_tableStatement _ _).mono (List.suffix_cons _ _)
  · exact within_keyValueStatement hitem progress _

theorem meets_statements (hitem : ∀ text, Within room text (item text)) (steps : Nat)
    (progress : Progress) (text : Text) :
    Meets (fun _ => True) (Blames room text) (statements item steps progress text) := by
  induction steps generalizing progress text with
  | zero => exact trivial
  | succ steps ih =>
      refine Meets.bind ((within_line hitem progress _).mono (skipSpaces_suffix text))
        fun read hread => ?_
      obtain ⟨progress, rest⟩ := read
      have hspaces := (skipSpaces_suffix rest).trans hread
      refine Meets.bind ((skips_skipComment _).mono hspaces) fun after hafter => ?_
      split
      · exact trivial
      · next next =>
        have hnext := (List.suffix_cons _ next).trans hafter
        exact (ih progress next).imp (fun _ _ => trivial) fun _ => Blames.mono hnext
      · exact trivial

/-! ## Line ends -/

theorem unifyLineEnds_cons {c : Char} (hplain : ¬['\r', '\n'] <+: c :: text) :
    unifyLineEnds (c :: text) = c :: unifyLineEnds text := Text.replaceAll_cons hplain

theorem unifyLineEnds_lineEnd (text : Text) :
    unifyLineEnds ('\r' :: '\n' :: text) = '\n' :: unifyLineEnds text :=
  Text.replaceAll_append nofun

theorem lineEnd_cases {property : Text → Prop} (nil : property [])
    (lineEnd : ∀ rest, property rest → property ('\r' :: '\n' :: rest))
    (plain : ∀ c rest, ¬['\r', '\n'] <+: c :: rest → property rest → property (c :: rest))
    (text : Text) : property text := by
  induction text using Text.induction_marks [['\r', '\n']] (by simp) with
  | nil => exact nil
  | mark found hfound rest ih =>
      obtain rfl := List.mem_singleton.mp hfound
      exact lineEnd rest ih
  | plain c rest hnone ih => exact plain c rest (hnone _ (List.mem_singleton_self _)) ih

theorem nestingWeight_unifyLineEnds (text : Text) :
    nestingWeight (unifyLineEnds text) = nestingWeight text := by
  induction text using lineEnd_cases with
  | nil => rfl
  | lineEnd rest ih =>
      rw [unifyLineEnds_lineEnd]
      exact ((Nat.zero_add _).trans ih).trans ((Nat.zero_add _).trans (Nat.zero_add _)).symm
  | plain c rest hplain ih =>
      rw [unifyLineEnds_cons hplain]
      exact congrArg (openingRoom c + ·) ih

variable {run : Text}

theorem prefix_of_unifyLineEnds (hrun : '\n' ∉ run) (hstart : run <+: unifyLineEnds text) :
    run <+: text := by
  induction text using lineEnd_cases generalizing run with
  | nil => exact hstart
  | lineEnd rest ih =>
      rw [unifyLineEnds_lineEnd, List.prefix_cons_iff] at hstart
      obtain rfl | ⟨others, rfl, -⟩ := hstart
      · exact List.nil_prefix
      · exact absurd (List.mem_cons_self ..) hrun
  | plain c rest hplain ih =>
      rw [unifyLineEnds_cons hplain, List.prefix_cons_iff] at hstart
      obtain rfl | ⟨others, rfl, hothers⟩ := hstart
      · exact List.nil_prefix
      · have hfree : '\n' ∉ others := fun hmem => hrun (List.mem_cons_of_mem c hmem)
        exact List.cons_prefix_cons.mpr ⟨rfl, ih hfree hothers⟩

theorem infix_of_unifyLineEnds (hrun : '\n' ∉ run) (hinside : run <:+: unifyLineEnds text) :
    run <:+: text := by
  induction text using lineEnd_cases with
  | nil => exact hinside
  | lineEnd rest ih =>
      rw [unifyLineEnds_lineEnd, List.infix_cons_iff, List.prefix_cons_iff] at hinside
      obtain (rfl | ⟨others, rfl, -⟩) | hrest := hinside
      · exact List.nil_infix
      · exact absurd (List.mem_cons_self ..) hrun
      · exact (ih hrest).trans (List.suffix_append ['\r', '\n'] rest).isInfix
  | plain c rest hplain ih =>
      rw [unifyLineEnds_cons hplain, List.infix_cons_iff] at hinside
      obtain hstart | hrest := hinside
      · rw [← unifyLineEnds_cons hplain] at hstart
        exact (prefix_of_unifyLineEnds hrun hstart).isInfix
      · exact (ih hrest).trans (List.suffix_cons c rest).isInfix

theorem HasLongNumber.of_unifyLineEnds (hlong : HasLongNumber (unifyLineEnds text)) :
    HasLongNumber text := by
  obtain ⟨run, hinside, hrun, hlength⟩ := hlong
  have hfree : '\n' ∉ run := fun hmem => absurd (hrun '\n' hmem) (by decide)
  exact ⟨run, infix_of_unifyLineEnds hfree hinside, hrun, hlength⟩

/-- If a document is not read, it is malformed, or it holds a number with too many digits or more
brackets and braces than there is room for. -/
theorem blames_parse {error : TomlError} (hparse : parse text = .error error) :
    Blames nestingRoom text error := by
  have hread := meets_statements (within_value nestingRoom) ((unifyLineEnds text).length + 1)
    Progress.start (unifyLineEnds text)
  change Meets _ _ (parse text) at hread
  rw [hparse] at hread
  cases error with
  | malformed | conflict => exact trivial
  | tooManyDigits => exact HasLongNumber.of_unifyLineEnds hread
  | tooDeep =>
      have hweight : nestingRoom < nestingWeight (unifyLineEnds text) := hread
      rwa [nestingWeight_unifyLineEnds] at hweight

end PageLoom.Toml
