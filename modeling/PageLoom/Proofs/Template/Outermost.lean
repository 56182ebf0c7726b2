import PageLoom.Proofs.Action
import PageLoom.Proofs.Template.Pairing
import PageLoom.Proofs.Text.Scan
import PageLoom.Template.Conditional

/-!
# Outermost blocks

Replacing the outermost blocks of a text follows the pairing of its directives up to the first
opening directive without a partner, and leaves the text alone from there on. So a text is evaluated
block by block, wherever the blocks stand, exactly if no block comes after such a directive.
-/

namespace PageLoom.Template

open Scan

/-- Puts `change sections` in the place of every block for which it gives something. -/
def rewriteParts {ε : Type} (change : List Section → Except ε (Option Text)) :
    List Part → Except ε Text
  | [] => .ok []
  | .piece piece :: rest => do return piece.source ++ (← rewriteParts change rest)
  | .block source sections :: rest => do
    let changed? ← change sections
    return changed?.getD source ++ (← rewriteParts change rest)

variable {role : Keyword → Role} {source : Text} {directive : Directive}
variable {found rest : List (Piece Directive)}

/-! ## Replacing blocks -/

/-- The parts before the first opening directive without a partner. -/
def beforeUnclosed (role : Keyword → Role) (parts : List Part) : List Part :=
  parts.takeWhile fun part => !part.isUnclosed role

/-- The first opening directive without a partner and the parts after it. -/
def fromUnclosed (role : Keyword → Role) (parts : List Part) : List Part :=
  parts.dropWhile fun part => !part.isUnclosed role

theorem beforeUnclosed_append (parts : List Part) :
    beforeUnclosed role parts ++ fromUnclosed role parts = parts :=
  List.takeWhile_append_dropWhile

theorem beforeUnclosed_cons {part : Part} (hclosed : part.isUnclosed role = false)
    (parts : List Part) : beforeUnclosed role (part :: parts) = part :: beforeUnclosed role parts :=
  List.takeWhile_cons_of_pos (by rw [hclosed]; rfl)

theorem fromUnclosed_cons {part : Part} (hclosed : part.isUnclosed role = false)
    (parts : List Part) : fromUnclosed role (part :: parts) = fromUnclosed role parts :=
  List.dropWhile_cons_of_pos (by rw [hclosed]; rfl)

theorem not_isUnclosed {piece : Piece Directive} (halone : StandsAlone role [] piece) :
    (Part.piece piece).isUnclosed role = false := by
  cases piece with
  | plain c => rfl
  | found source directive => exact beq_eq_false_iff_ne.mpr halone.1

section Replacing

variable {ε : Type} {change : List Section → Except ε (Option Text)}

theorem replaceBlocks_skip (skip : Nat) (found : List (Piece Directive)) :
    replaceBlocks role change skip found = replaceBlocks role change 0 (found.drop skip) := by
  induction found generalizing skip with
  | nil => cases skip <;> rfl
  | cons piece rest ih =>
      cases skip with
      | zero => rfl
      | succ skip => exact ih skip

/-- Blocks are replaced up to the first opening directive without a partner, and from there on the
text stays as it is. -/
theorem replaceBlocks_eq (found : List (Piece Directive)) :
    replaceBlocks role change 0 found = do
      let replaced ← rewriteParts change (beforeUnclosed role (paired role found))
      return replaced ++ sourceOfParts (fromUnclosed role (paired role found)) := by
  induction found using pairing_induction role with
  | nil => rfl
  | alone piece rest halone ih =>
      have hpiece := not_isUnclosed halone
      rw [paired_standsAlone halone, beforeUnclosed_cons hpiece, fromUnclosed_cons hpiece,
        rewriteParts]
      have hfirst : replaceBlocks role change 0 (piece :: rest) = do
          return piece.source ++ (← replaceBlocks role change 0 rest) := by
        cases piece with
        | plain c => rfl
        | found source directive => exact if_neg halone.1
      rw [hfirst, ih]
      cases rewriteParts change (beforeUnclosed role (paired role rest)) with
      | error error => rfl
      | ok replaced => exact congrArg Except.ok (List.append_assoc ..).symm
  | unclosed source directive rest hrole hnone ih =>
      have hunclosed : (Part.piece (.found source directive)).isUnclosed role = true :=
        beq_iff_eq.mpr hrole
      rw [paired_unclosed hrole hnone, beforeUnclosed, fromUnclosed,
        List.takeWhile_cons_of_neg (by simp [hunclosed]),
        List.dropWhile_cons_of_neg (by simp [hunclosed]), replaceBlocks, if_pos hrole, hnone]
      have hsource : sourceOfParts (.piece (.found source directive) :: paired role rest) =
          source ++ sourceOf rest := by
        rw [← @source_paired role rest]
        rfl
      rw [hsource]
      rfl
  | closed source directive rest tail hrole htail ih =>
      rw [paired_closed hrole htail, beforeUnclosed_cons rfl, fromUnclosed_cons rfl, rewriteParts,
        replaceBlocks, if_pos hrole, htail]
      dsimp only
      rw [replaceBlocks_skip, ih]
      cases change (⟨directive, tail.body⟩ :: tail.sections) with
      | error error => rfl
      | ok changed? =>
          cases rewriteParts change (beforeUnclosed role (paired role (rest.drop tail.size))) with
          | error error => rfl
          | ok replaced => exact congrArg Except.ok (List.append_assoc ..).symm

theorem rewriteParts_congr {other : List Section → Except ε (Option Text)} {parts : List Part}
    (hsame : ∀ source sections, .block source sections ∈ parts → change sections = other sections) :
    rewriteParts change parts = rewriteParts other parts := by
  induction parts with
  | nil => rfl
  | cons part rest ih =>
      have hrest := ih fun source sections hmem =>
        hsame source sections (List.mem_cons_of_mem _ hmem)
      cases part with
      | piece piece => rw [rewriteParts, rewriteParts, hrest]
      | block source sections =>
          rw [rewriteParts, rewriteParts, hrest, hsame source sections (List.mem_cons_self ..)]

theorem rewriteParts_append (left right : List Part) :
    rewriteParts change (left ++ right) = do
      let first ← rewriteParts change left
      let second ← rewriteParts change right
      return first ++ second := by
  induction left with
  | nil =>
      rw [List.nil_append]
      cases rewriteParts change right <;> rfl
  | cons part left ih =>
      cases part with
      | piece piece =>
          rw [List.cons_append, rewriteParts, rewriteParts, ih]
          cases rewriteParts change left with
          | error error => rfl
          | ok first =>
              cases rewriteParts change right with
              | error error => rfl
              | ok second => exact congrArg Except.ok (List.append_assoc ..).symm
      | block source sections =>
          rw [List.cons_append, rewriteParts, rewriteParts, ih]
          cases change sections with
          | error error => rfl
          | ok changed? =>
              cases rewriteParts change left with
              | error error => rfl
              | ok first =>
                  cases rewriteParts change right with
                  | error error => rfl
                  | ok second => exact congrArg Except.ok (List.append_assoc ..).symm

/-- Without blocks nothing is replaced. -/
theorem rewriteParts_of_no_block {parts : List Part}
    (hparts : ∀ part ∈ parts, part.isBlock = false) :
    rewriteParts change parts = .ok (sourceOfParts parts) := by
  induction parts with
  | nil => rfl
  | cons part rest ih =>
      have hrest := ih fun other hmem => hparts other (List.mem_cons_of_mem _ hmem)
      cases part with
      | piece piece =>
          rw [rewriteParts, hrest]
          rfl
      | block source sections => cases hparts _ (List.mem_cons_self ..)

/-- If every block gives way to a shorter text, the whole does not get longer, and with a block in
it it gets shorter. -/
theorem length_rewriteParts {parts : List Part} {text : Text}
    (hshorter : ∀ source sections changed?, .block source sections ∈ parts →
      change sections = .ok changed? → ∃ new, changed? = some new ∧ new.length < source.length)
    (hrun : rewriteParts change parts = .ok text) :
    text.length ≤ (sourceOfParts parts).length ∧
      ((∃ part ∈ parts, part.isBlock = true) → text.length < (sourceOfParts parts).length) := by
  induction parts generalizing text with
  | nil =>
      cases hrun
      exact ⟨Nat.le_refl _, by simp⟩
  | cons part rest ih =>
      have hlater := fun text => @ih text fun source sections changed? hmem =>
        hshorter source sections changed? (List.mem_cons_of_mem _ hmem)
      have hsource : (sourceOfParts (part :: rest)).length =
          part.source.length + (sourceOfParts rest).length := by
        simp [sourceOfParts]
      cases part with
      | piece piece =>
          rw [rewriteParts, except_bind_eq_ok] at hrun
          obtain ⟨following, hfollowing, hsame⟩ := hrun
          cases hsame
          obtain ⟨hle, hlt⟩ := hlater following hfollowing
          rw [hsource, List.length_append]
          refine ⟨Nat.add_le_add_left hle _, ?_⟩
          rintro ⟨part, hmem, hblock⟩
          rcases List.mem_cons.mp hmem with rfl | hmem
          · cases hblock
          · exact Nat.add_lt_add_left (hlt ⟨part, hmem, hblock⟩) _
      | block source sections =>
          rw [rewriteParts, except_bind_eq_ok] at hrun
          obtain ⟨changed?, hchanged, hrun⟩ := hrun
          rw [except_bind_eq_ok] at hrun
          obtain ⟨following, hfollowing, hsame⟩ := hrun
          cases hsame
          obtain ⟨new, rfl, hnew⟩ := hshorter _ _ _ (List.mem_cons_self ..) hchanged
          have hwhole := Nat.add_lt_add_of_lt_of_le hnew (hlater following hfollowing).1
          rw [hsource, List.length_append]
          exact ⟨Nat.le_of_lt hwhole, fun _ => hwhole⟩

end Replacing

/-! ## Bodies are shorter than their blocks -/

/-- The bodies of a block stand within the pieces that it takes. -/
theorem length_body_tailOf? {depth : Nat} {tail : Tail}
    (htail : tailOf? role depth found = some tail) :
    ∀ part ∈ (⟨directive, tail.body⟩ :: tail.sections : List Section),
      part.body.length ≤ (sourceOf (found.take tail.size)).length := by
  induction found generalizing depth tail directive with
  | nil => cases htail
  | cons piece rest ih =>
      have hsource : ∀ count, (sourceOf ((piece :: rest).take (count + 1))).length =
          piece.source.length + (sourceOf (rest.take count)).length := by
        intro count
        simp [sourceOf]
      have hinside : ∀ depth,
          (tailOf? role depth rest).map (Tail.withText piece.source) = some tail →
          ∀ part ∈ (⟨directive, tail.body⟩ :: tail.sections : List Section),
            part.body.length ≤ (sourceOf ((piece :: rest).take tail.size)).length := by
        intro depth hmap part hmem
        obtain ⟨shorter, hshorter, rfl⟩ := Option.map_eq_some_iff.mp hmap
        rw [Tail.withText, hsource]
        rcases List.mem_cons.mp hmem with rfl | hmem
        · have hbody := @ih directive _ _ hshorter _ (List.mem_cons_self ..)
          simpa [Tail.withText] using hbody
        · have hbody := @ih directive _ _ hshorter part (List.mem_cons_of_mem _ hmem)
          exact Nat.le_trans hbody (Nat.le_add_left ..)
      cases piece with
      | plain c => exact hinside depth htail
      | found source other =>
          cases hrole : role other.keyword with
          | opens => exact hinside (depth + 1) (by simpa [tailOf?, hrole, Piece.source] using htail)
          | isText => exact hinside depth (by simpa [tailOf?, hrole, Piece.source] using htail)
          | closes =>
              cases depth with
              | zero =>
                  simp only [tailOf?, hrole, Option.some.injEq] at htail
                  subst htail
                  simp
              | succ depth =>
                  exact hinside depth (by simpa [tailOf?, hrole, Piece.source] using htail)
          | separates =>
              cases depth with
              | zero =>
                  simp only [tailOf?, hrole] at htail
                  obtain ⟨shorter, hshorter, rfl⟩ := Option.map_eq_some_iff.mp htail
                  intro part hmem
                  rw [Tail.withSection, hsource]
                  rcases List.mem_cons.mp hmem with rfl | hmem
                  · exact Nat.zero_le _
                  · exact Nat.le_trans (ih hshorter part hmem) (Nat.le_add_left ..)
              | succ depth =>
                  exact hinside (depth + 1) (by simpa [tailOf?, hrole, Piece.source] using htail)

theorem length_bodies_lt {sections : List Section} (hfound : ∀ piece ∈ found, piece.source ≠ [])
    (hblock : .block source sections ∈ paired role found) :
    0 < source.length ∧ ∀ part ∈ sections, part.body.length < source.length := by
  induction found using pairing_induction role with
  | nil => cases hblock
  | alone piece rest halone ih =>
      rw [paired_standsAlone halone] at hblock
      rcases List.mem_cons.mp hblock with hsame | hblock
      · cases hsame
      · exact ih (fun other hmem => hfound other (List.mem_cons_of_mem _ hmem)) hblock
  | unclosed opener directive rest hrole hnone ih =>
      rw [paired_unclosed hrole hnone] at hblock
      rcases List.mem_cons.mp hblock with hsame | hblock
      · cases hsame
      · exact ih (fun other hmem => hfound other (List.mem_cons_of_mem _ hmem)) hblock
  | closed opener directive rest tail hrole htail ih =>
      rw [paired_closed hrole htail] at hblock
      rcases List.mem_cons.mp hblock with hsame | hblock
      · cases hsame
        have hopener : 0 < opener.length :=
          List.length_pos_iff.mpr (hfound _ (List.mem_cons_self ..))
        rw [List.length_append]
        refine ⟨Nat.add_pos_left hopener _, fun part hpart => ?_⟩
        exact Nat.lt_of_le_of_lt (length_body_tailOf? htail part hpart)
          (Nat.lt_add_of_pos_left hopener)
      · exact ih (fun other hmem =>
          hfound other (List.mem_cons_of_mem _ (List.mem_of_mem_drop hmem)))
          hblock

/-! ## Conditionals -/

section Conditionals

variable {scope : Props} {text body : Text} {sections : List Section}

/-- The parts of a text for conditionals. -/
def conditionalParts (text : Text) : List Part := paired conditionalRole (directives text)

/-- What a block gives way to: its chosen body, in which the blocks are evaluated in turn. -/
def evaluateChosen (scope : Props) (sections : List Section) :
    Except NumberFault (Option Text) := do
  return some (← evaluateConditionals scope (← chosenBody scope sections))

/-- Every outermost block gives way to what is chosen of it, wherever it stands. -/
def evaluateOutermost (scope : Props) (text : Text) : Except NumberFault Text :=
  rewriteParts (evaluateChosen scope) (conditionalParts text)

theorem length_trim_le (text : Text) : (Text.trim text).length ≤ text.length := by
  have hend : ∀ text : Text, (Text.trimEndWhile Text.isBlank text).length ≤ text.length := by
    intro text
    rw [Text.trimEndWhile, List.length_reverse]
    exact (List.dropWhile_sublist _).length_le.trans (List.length_reverse ..).le
  exact (hend _).trans (List.dropWhile_sublist _).length_le

/-- What is chosen of a block is a trimmed body of it, or nothing. -/
theorem of_chosenBody (hchosen : chosenBody scope sections = .ok body) :
    body = [] ∨ ∃ part ∈ sections, body = Text.trim part.body := by
  induction sections with
  | nil =>
      cases hchosen
      exact .inl rfl
  | cons part rest ih =>
      rw [chosenBody] at hchosen
      split at hchosen
      · cases hchosen
        exact .inr ⟨part, List.mem_cons_self .., rfl⟩
      · rw [except_bind_eq_ok] at hchosen
        obtain ⟨holds, -, hchosen⟩ := hchosen
        cases holds with
        | true =>
            cases hchosen
            exact .inr ⟨part, List.mem_cons_self .., rfl⟩
        | false =>
            rcases ih hchosen with hnone | ⟨other, hmem, hbody⟩
            · exact .inl hnone
            · exact .inr ⟨other, List.mem_cons_of_mem _ hmem, hbody⟩

theorem length_source_le {parts : List Part} {part : Part} (hmem : part ∈ parts) :
    part.source.length ≤ (sourceOfParts parts).length :=
  (List.sublist_flatten_of_mem (List.mem_map_of_mem hmem)).length_le

theorem length_chosenBody_lt (hblock : .block source sections ∈ conditionalParts text)
    (hchosen : chosenBody scope sections = .ok body) : body.length < source.length := by
  obtain ⟨hsource, hbodies⟩ := length_bodies_lt (fun piece hmem => source_ne_nil hmem) hblock
  rcases of_chosenBody hchosen with rfl | ⟨part, hpart, rfl⟩
  · exact hsource
  · exact (length_trim_le part.body).trans_lt (hbodies part hpart)

theorem length_block_le {parts : List Part} (hparts : parts ⊆ conditionalParts text)
    (hblock : .block source sections ∈ parts) : source.length ≤ text.length := by
  have hsource := length_source_le (hparts hblock)
  rwa [conditionalParts, source_paired, directives, sourceOf_pieces] at hsource

theorem beforeUnclosed_subset {parts : List Part} : beforeUnclosed role parts ⊆ parts :=
  (List.takeWhile_prefix _).subset

theorem fromUnclosed_subset {parts : List Part} : fromUnclosed role parts ⊆ parts :=
  (List.dropWhile_suffix _).subset

/-- With room for one more level, what matters is how the bodies are evaluated that are shorter than
the text. -/
theorem evaluateConditionalsWithin_succ {depth : Nat} {evaluate : Text → Except NumberFault Text}
    (hsame : ∀ body : Text, body.length < text.length →
      evaluateConditionalsWithin scope depth body = evaluate body) :
    evaluateConditionalsWithin scope (depth + 1) text = do
      let evaluated ← rewriteParts
        (fun sections => do return some (← evaluate (← chosenBody scope sections)))
        (beforeUnclosed conditionalRole (conditionalParts text))
      return evaluated ++ sourceOfParts (fromUnclosed conditionalRole (conditionalParts text)) := by
  rw [evaluateConditionalsWithin, replaceBlocks_eq]
  congr 1
  apply rewriteParts_congr
  intro source sections hblock
  have hmem := beforeUnclosed_subset hblock
  have hsource := length_block_le (List.Subset.refl _) hmem
  cases hchosen : chosenBody scope sections with
  | error fault => rfl
  | ok body =>
      have hbody := length_chosenBody_lt hmem hchosen
      change (do return some (← evaluateConditionalsWithin scope depth body)) =
        (do return some (← evaluate body))
      rw [hsame body (hbody.trans_le hsource)]

/-- Any room will do that is not less than the length of the text. -/
theorem evaluateConditionalsWithin_congr {depth other : Nat} (hdepth : text.length ≤ depth)
    (hother : text.length ≤ other) :
    evaluateConditionalsWithin scope depth text = evaluateConditionalsWithin scope other text := by
  have hnil : ∀ room, evaluateConditionalsWithin scope room [] = .ok [] := by
    intro room
    cases room <;> rfl
  induction depth generalizing text other with
  | zero => rw [List.length_eq_zero_iff.mp (Nat.le_zero.mp hdepth), hnil, hnil]
  | succ depth ih =>
      cases other with
      | zero => rw [List.length_eq_zero_iff.mp (Nat.le_zero.mp hother), hnil, hnil]
      | succ other =>
          have hsame : ∀ body : Text, body.length < text.length →
              evaluateConditionalsWithin scope depth body =
                evaluateConditionalsWithin scope other body := by
            intro body hbody
            exact ih (by omega) (by omega)
          rw [evaluateConditionalsWithin_succ hsame, evaluateConditionalsWithin_succ fun _ _ => rfl]

/-- Up to the first opening directive without a partner a text is evaluated block by block, and from
there on it stays as it is. -/
theorem evaluateConditionals_eq (scope : Props) (text : Text) :
    evaluateConditionals scope text = do
      let evaluated ← rewriteParts (evaluateChosen scope)
        (beforeUnclosed conditionalRole (conditionalParts text))
      return evaluated ++ sourceOfParts (fromUnclosed conditionalRole (conditionalParts text)) :=
  calc evaluateConditionals scope text
      = evaluateConditionalsWithin scope (text.length + 1) text :=
        evaluateConditionalsWithin_congr (Nat.le_refl _) (Nat.le_succ _)
    _ = _ := evaluateConditionalsWithin_succ fun _ hbody =>
        evaluateConditionalsWithin_congr hbody.le (Nat.le_refl _)

/-- What a block gives way to is shorter than the block, as long as evaluation makes no body of it
longer. -/
theorem length_evaluateChosen {parts : List Part} (hparts : parts ⊆ conditionalParts text)
    (hbodies : ∀ body evaluated : Text, body.length < text.length →
      evaluateConditionals scope body = .ok evaluated → evaluated.length ≤ body.length)
    {changed? : Option Text} (hblock : .block source sections ∈ parts)
    (hchanged : evaluateChosen scope sections = .ok changed?) :
    ∃ new, changed? = some new ∧ new.length < source.length := by
  rw [evaluateChosen, except_bind_eq_ok] at hchanged
  obtain ⟨body, hchosen, hchanged⟩ := hchanged
  rw [except_bind_eq_ok] at hchanged
  obtain ⟨evaluated, hevaluated, hsame⟩ := hchanged
  cases hsame
  have hbody := length_chosenBody_lt (hparts hblock) hchosen
  have hsource := length_block_le hparts hblock
  exact ⟨evaluated, rfl,
    (hbodies body evaluated (hbody.trans_le hsource) hevaluated).trans_lt hbody⟩

theorem length_evaluateConditionals {evaluated : Text}
    (hrun : evaluateConditionals scope text = .ok evaluated) : evaluated.length ≤ text.length := by
  induction hlength : text.length using Nat.strongRecOn generalizing text evaluated with
  | _ length ih =>
      rw [evaluateConditionals_eq, except_bind_eq_ok] at hrun
      obtain ⟨first, hfirst, hsame⟩ := hrun
      cases hsame
      have hbodies : ∀ body evaluated : Text, body.length < text.length →
          evaluateConditionals scope body = .ok evaluated → evaluated.length ≤ body.length :=
        fun body evaluated hbody hevaluated =>
          ih body.length (by rw [← hlength]; exact hbody) hevaluated rfl
      have hshorter := (length_rewriteParts (fun source sections changed? hblock =>
        length_evaluateChosen beforeUnclosed_subset hbodies hblock) hfirst).1
      have hwhole : sourceOfParts (conditionalParts text) = text := by
        rw [conditionalParts, source_paired, directives, sourceOf_pieces]
      rw [← hlength, List.length_append]
      calc first.length + (sourceOfParts (fromUnclosed conditionalRole
              (conditionalParts text))).length
          ≤ (sourceOfParts (beforeUnclosed conditionalRole (conditionalParts text))).length +
              (sourceOfParts (fromUnclosed conditionalRole (conditionalParts text))).length :=
            Nat.add_le_add_right hshorter _
        _ = (sourceOfParts (conditionalParts text)).length := by
            rw [← List.length_append, ← sourceOfParts_append, beforeUnclosed_append]
        _ = text.length := congrArg List.length hwhole

/-- A text is evaluated up to its first opening directive without a partner. That is the same as
evaluating every outermost block exactly if no block comes after such a directive, unless the
evaluation ends before with a fault. -/
theorem evaluateConditionals_outermost (scope : Props) (text : Text) :
    (evaluateConditionals scope text = do
      let evaluated ← rewriteParts (evaluateChosen scope)
        (beforeUnclosed conditionalRole (conditionalParts text))
      return evaluated ++ sourceOfParts (fromUnclosed conditionalRole (conditionalParts text))) ∧
    (evaluateConditionals scope text = evaluateOutermost scope text ↔
      (∃ fault, rewriteParts (evaluateChosen scope)
        (beforeUnclosed conditionalRole (conditionalParts text)) = .error fault) ∨
      ∀ part ∈ fromUnclosed conditionalRole (conditionalParts text), part.isBlock = false) := by
  refine ⟨evaluateConditionals_eq scope text, ?_⟩
  have hboth : evaluateOutermost scope text = do
      let first ← rewriteParts (evaluateChosen scope)
        (beforeUnclosed conditionalRole (conditionalParts text))
      let second ← rewriteParts (evaluateChosen scope)
        (fromUnclosed conditionalRole (conditionalParts text))
      return first ++ second := by
    rw [evaluateOutermost, ← rewriteParts_append, beforeUnclosed_append]
  rw [hboth, evaluateConditionals_eq]
  cases hfirst : rewriteParts (evaluateChosen scope)
      (beforeUnclosed conditionalRole (conditionalParts text)) with
  | error fault => exact ⟨fun _ => .inl ⟨fault, rfl⟩, fun _ => rfl⟩
  | ok first =>
      constructor
      · intro hsame
        right
        -- A block that is evaluated gets shorter, so text with a block in it cannot stay as it is.
        have hsecond : rewriteParts (evaluateChosen scope)
            (fromUnclosed conditionalRole (conditionalParts text)) =
              .ok (sourceOfParts (fromUnclosed conditionalRole (conditionalParts text))) := by
          obtain ⟨first', hfirst', hsame⟩ := except_bind_eq_ok.mp hsame.symm
          cases hfirst'
          obtain ⟨second, hsecond, hsame⟩ := except_bind_eq_ok.mp hsame
          rw [hsecond, List.append_cancel_left (Except.ok.inj hsame)]
        have hlength := (length_rewriteParts (fun source sections changed? hblock =>
          length_evaluateChosen fromUnclosed_subset
            (fun _ _ _ hrun => length_evaluateConditionals hrun) hblock) hsecond).2
        intro part hmem
        cases hblock : part.isBlock with
        | false => rfl
        | true => exact absurd (hlength ⟨part, hmem, hblock⟩) (Nat.lt_irrefl _)
      · rintro (⟨fault, hfault⟩ | hparts)
        · cases hfault
        · rw [rewriteParts_of_no_block hparts]
          rfl

/-- An opening directive that is never closed keeps the blocks after it from being evaluated. -/
theorem evaluateConditionals_unclosed :
    evaluateConditionals [] "{% if (a) %}{% if (1) %}x{% endif %}".toList =
        .ok "{% if (a) %}{% if (1) %}x{% endif %}".toList ∧
      evaluateOutermost [] "{% if (a) %}{% if (1) %}x{% endif %}".toList =
        .ok "{% if (a) %}x".toList := by
  constructor
  · rfl
  · rfl

end Conditionals

end PageLoom.Template
