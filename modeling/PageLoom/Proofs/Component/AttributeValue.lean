import PageLoom.Proofs.Component.History
import PageLoom.Proofs.Markup.Invocation

/-!
# What a component sees of an attribute

A document that consists of one tag is rendered by resolving its component with the protected value
of its attribute, in which placeholders stand for the comments, and putting the comments back
afterwards. Without comments this is the value as it is written. With a comment it is not: the
component numbers the comments of its own text, and takes the placeholders in the value for them.
-/

namespace PageLoom.Component

open Scan Markup Template

variable {component name value text : Text} {props : Props}

/-! ## Texts without directives -/

theorem directives_of_undirected (hundirected : ¬opening <:+: text) :
    directives text = text.map .plain := by
  refine pieces_eq_plain (fun _ _ _ => rfl) fun c rest hsuffix => ?_
  have hstart : Text.afterStart? opening (c :: rest) = none := by
    rw [Text.afterStart?_eq_none]
    exact fun hprefixed => hundirected (hprefixed.isInfix.trans hsuffix.isInfix)
  rw [directivePattern, hstart]

theorem replaceBlocks_plain {ε : Type} (role : Keyword → Role)
    (change : List Section → Except ε (Option Text)) (text : Text) :
    replaceBlocks role change 0 (text.map .plain) = .ok text := by
  induction text with
  | nil => rfl
  | cons c text ih =>
      rw [List.map_cons, replaceBlocks, ih]
      rfl

theorem instantiate_of_undirected {template : Text}
    (hundirected : ¬opening <:+: substituteProps props template) :
    instantiate template props = .ok (substituteProps props template) := by
  have hconditionals : evaluateConditionals props (substituteProps props template) =
      .ok (substituteProps props template) := by
    unfold evaluateConditionals
    generalize substituteProps props template = text at hundirected ⊢
    generalize text.length = depth
    cases depth with
    | zero => rfl
    | succ depth =>
        rw [evaluateConditionalsWithin, directives_of_undirected hundirected, replaceBlocks_plain]
  have hloops : expandLoops props (substituteProps props template) =
      substituteProps props template := by
    unfold expandLoops
    simp only [directives_of_undirected hundirected, replaceBlocks_plain]
  rw [instantiate, hconditionals]
  exact congrArg Except.ok hloops

/-! ## A document of one tag -/

/-- A component, an attribute and a value that can be written as a tag which is read back: outside
of comments the value has no `>`. -/
structure Writable (component name value : Text) : Prop where
  identifier : nameAt? .document component = some component
  notVoid : isVoidElement component = false
  attributeName : isAttributeName name = true
  plain : '\x00' ∉ value
  unquoted : '"' ∉ value
  undirected : ¬opening <:+: value
  closed : '>' ∉ (protectComments value).1

theorem undirected_of_not_mem (habsent : '\x7b' ∉ text) : ¬opening <:+: text :=
  fun hpart => habsent (hpart.subset (List.mem_cons_self ..))

theorem Writable.undirected_tagOf (hwritable : Writable component name value) :
    ¬opening <:+: tagOf component name value := by
  have htext : tagOf component name value = ('<' :: component) ++
      ' ' :: (name ++ '=' :: ([] ++ '"' :: (value ++ '"' :: ['/', '>']))) := by
    simp [tagOf]
  have hcomponent := not_mem_component hwritable.identifier (c := '\x7b') (by decide)
  have hname := not_mem_attributeName hwritable.attributeName (c := '\x7b') (by decide)
  rw [htext, Text.infix_append_stop (by decide) (by decide),
    Text.infix_append_stop (by decide) (by decide), Text.infix_append_stop (by decide) (by decide),
    Text.infix_append_stop (by decide) (by decide)]
  rintro (hpart | hpart | hpart | hpart | hpart)
  · exact undirected_of_not_mem (by simpa using hcomponent) hpart
  · exact undirected_of_not_mem hname hpart
  · exact undirected_of_not_mem List.not_mem_nil hpart
  · exact hwritable.undirected hpart
  · exact undirected_of_not_mem (by decide) hpart

/-- A document of one tag is rendered with the protected value, and its comments are put back at the
end. -/
theorem Writable.render_eq (hwritable : Writable component name value) (session : Session)
    (file : Text) :
    (session.render (tagOf component name value) file []).1 = (do
      let fragment? ←
        (session.resolve component [(name, .scalar (protectComments value).1)] file).1
      (restoreComments (protectComments value).2
        (fragment?.getD (tagOf component name (protectComments value).1))).mapError .fault) := by
  have hunquoted : '"' ∉ (protectComments value).1 := fun hmem =>
    hwritable.unquoted (mem_of_mem_protectComments (by decide) hmem)
  have htext : instantiate (tagOf component name value) [] = .ok (tagOf component name value) :=
    instantiate_of_undirected hwritable.undirected_tagOf
  rw [Session.render_eq, Session.resolve_eq]
  dsimp only
  rw [runFrom_render_instantiated htext,
    protectComments_tagOf hwritable.identifier hwritable.attributeName]
  dsimp only
  rw [pieces_tagOf hwritable.identifier hwritable.attributeName hwritable.closed,
    runFrom_replaceTags_tag hwritable.notVoid, resolveTag,
    parseAttributes_written hwritable.attributeName hunquoted]
  change (andThen _ (andThen _ (runFrom (Component.resolve (session.setting file) component _)
    session.beginning))).1 = _
  generalize runFrom (Component.resolve _ _ _) _ = run
  obtain ⟨result, after⟩ := run
  cases result with
  | error error => rfl
  | ok fragment? =>
      simp only [andThen_ok, replaceTags, runFrom_pure, List.append_nil]
      rfl

/-! ## Components with a comment before the value -/

theorem runFrom_replaceTags_text (replacement : Tag → Expansion (Option Text)) (text : Text)
    (progress : Progress) :
    runFrom (replaceTags replacement (text.map .plain)) progress = (.ok text, progress) := by
  have hnone : invoked (text.map .plain) = [] := by simp [invoked, values]
  have hsource : sourceOf (text.map (.plain : Char → Piece Tag)) = text := by
    simp [sourceOf, Piece.source, List.flatMap_map]
  rw [runFrom_replaceTags_of_invoked_nil hnone, hsource]

/-- A comment of some length. -/
def commentOf (size : Nat) : Text :=
  ['<', '!', '-', '-'] ++ List.replicate size 'x' ++ ['-', '-', '>']

/-- A template that writes a comment and then the value of an attribute. -/
def commentedTemplate (size : Nat) (name : Text) : Text := commentOf size ++ placeholderOf name

/-- A session with a single component, which writes a comment before the value. -/
def commentedSession (size : Nat) (component name : Text) : Session :=
  Session.ofStore ⟨[], [], ⟨[(component, commentedTemplate size name)], 1⟩⟩ false

variable {size : Nat} {new : Text}

theorem mem_commentOf {c : Char} (hmem : c ∈ commentOf size) : c ∈ "<!-->x".toList := by
  simp only [commentOf, List.mem_append, List.mem_replicate] at hmem
  rcases hmem with (hmem | ⟨-, rfl⟩) | hmem
  · exact (show ['<', '!', '-', '-'] ⊆ "<!-->x".toList by decide) hmem
  · decide
  · exact (show ['-', '-', '>'] ⊆ "<!-->x".toList by decide) hmem

theorem length_commentOf (size : Nat) : (commentOf size).length = size + 7 := by
  simp [commentOf]

theorem substituteProps_commentedTemplate :
    substituteProps [(name, .scalar new)] (commentedTemplate size name) =
      commentOf size ++ new := by
  have hbegin : ∀ c rest, c :: rest <:+ commentOf size →
      literal (placeholderOf name) none (c :: rest ++ placeholderOf name) = none := by
    intro c rest hsuffix
    have hother : '\x7b' ≠ c := by
      rintro rfl
      exact absurd (mem_commentOf (hsuffix.subset (List.mem_cons_self ..))) (by decide)
    simp [literal, placeholderOf, Text.startsWith, Text.afterStart?, hother]
  obtain ⟨inside, hinside⟩ : ∃ inside, placeholderOf name = '\x7b' :: inside := ⟨_, rfl⟩
  have hend : literal (placeholderOf name) none ('\x7b' :: inside) = some ((), inside.length) := by
    have hstarts : Text.startsWith (placeholderOf name) ('\x7b' :: inside) = true := by
      have hstart := Text.afterStart?_append (placeholderOf name) []
      rw [List.append_nil, hinside] at hstart
      rw [Text.startsWith, hinside, hstart]
      rfl
    rw [literal, if_neg (by simp [hinside]), if_pos hstarts, hinside]
    simp
  have hpieces : pieces (literal (placeholderOf name)) (commentedTemplate size name) =
      (commentOf size).map .plain ++ [.found (placeholderOf name) ()] := by
    rw [commentedTemplate, pieces_append_plain (fun _ _ _ => rfl) hbegin, hinside]
    rw [hinside] at hend
    rw [pieces_cons_found (fun _ _ _ => rfl) hend, List.take_length, List.drop_length]
    rfl
  change Text.replaceAll (placeholderOf name) new (commentedTemplate size name) = _
  rw [Text.replaceAll, replaceWith, hpieces]
  simp [List.flatMap_map]

theorem protectComments_commented (size : Nat) (text : Text) :
    protectComments (commentOf size ++ text) =
      (placeholder 0 ++ numberComments 1 (pieces commentPattern text),
        commentOf size :: commentsOf (pieces commentPattern text)) := by
  have hfound : commentPattern none (commentOf size ++ text) = some ((), size + 6) := by
    have hopening : Text.afterStart? "<!--".toList (commentOf size ++ text) =
        some (List.replicate size 'x' ++ ("-->".toList ++ text)) :=
      Text.afterStart?_eq_some.mpr (by simp [commentOf])
    have hclosing : Text.cutAt? "-->".toList (List.replicate size 'x' ++ ("-->".toList ++ text)) =
        some (List.replicate size 'x', text) :=
      Text.cutAt?_append (show '-' ∉ List.replicate size 'x' by simp)
    rw [commentPattern, hopening]
    simp only [hclosing, List.length_replicate]
  have hpieces : pieces commentPattern (commentOf size ++ text) =
      .found (commentOf size) () :: pieces commentPattern text := by
    obtain ⟨inside, hinside⟩ : ∃ inside, commentOf size = '<' :: inside := ⟨_, rfl⟩
    have hlength : inside.length = size + 6 := by
      have hlength := length_commentOf size
      rw [hinside, List.length_cons] at hlength
      omega
    rw [hinside, List.cons_append] at hfound ⊢
    rw [pieces_cons_found contextFree_commentPattern hfound, ← hlength, List.take_left,
      List.drop_left]
  rw [protectComments, hpieces]
  rfl

theorem resolve_commented (hundirected : ¬opening <:+: new)
    (hclosed : '>' ∉ (protectComments (commentOf size ++ new)).1) {restored : Text}
    (hrestored : restoreComments (protectComments (commentOf size ++ new)).2
      (protectComments (commentOf size ++ new)).1 = .ok restored) (file : Text) :
    ((commentedSession size component name).resolve component [(name, .scalar new)] file).1 =
      .ok (some restored) := by
  have hsplit : commentOf size ++ new =
      (['<', '!', '-', '-'] ++ List.replicate size 'x' ++ ['-', '-']) ++ '>' :: new := by
    simp [commentOf]
  have htext : instantiate (commentedTemplate size name) [(name, .scalar new)] =
      .ok (commentOf size ++ new) := by
    rw [instantiate_of_undirected, substituteProps_commentedTemplate]
    rw [substituteProps_commentedTemplate, hsplit, Text.infix_append_stop (by decide) (by decide)]
    rintro (hpart | hpart)
    · exact undirected_of_not_mem (by simp) hpart
    · exact hundirected hpart
  have htags : pieces (tagPattern .template) (protectComments (commentOf size ++ new)).1 =
      (protectComments (commentOf size ++ new)).1.map .plain :=
    pieces_tagPattern_of_not_mem hclosed
  have htemplate : ((commentedSession size component name).setting file).library.template?
      component = some (commentedTemplate size name) := by
    simp [commentedSession, Session.ofStore, Session.setting, Library.template?]
  have hrun := @runFrom_resolveWithin_present ((commentedSession size component name).setting file)
    0 [] component [(name, .scalar new)] (commentedSession size component name).beginning
    List.not_mem_nil rfl (commentedTemplate size name) htemplate (commentOf size ++ new) htext
  rw [htags, runFrom_replaceTags_text, andThen_ok, finish, hrestored] at hrun
  exact congrArg Prod.fst hrun

/-! ## Values with comments -/

/-- Pieces with a comment begin with plain text and the first of the comments. -/
theorem exists_first_comment {found : List (Piece Unit)} (hcomments : commentsOf found ≠ []) :
    ∃ (before : Text) (first : Text) (rest : List (Piece Unit)),
      found = before.map .plain ++ .found first () :: rest := by
  induction found with
  | nil => exact absurd rfl hcomments
  | cons piece rest ih =>
      cases piece with
      | plain c =>
          obtain ⟨before, first, others, rfl⟩ := ih hcomments
          exact ⟨c :: before, first, others, rfl⟩
      | found source value => exact ⟨[], source, rest, rfl⟩

/-- The document of one tag becomes what its component gives for the value as it is written. -/
def Session.SeesWritten (session : Session) (component name value file : Text) : Prop :=
  (session.render (tagOf component name value) file []).1 =
    (session.resolve component [(name, .scalar value)] file).1.map
      fun fragment? => fragment?.getD (tagOf component name value)

theorem Writable.seesWritten_of_nil (hwritable : Writable component name value)
    (hnone : (protectComments value).2 = []) (session : Session) (file : Text) :
    session.SeesWritten component name value file := by
  rw [Session.SeesWritten, hwritable.render_eq, hnone, protectComments_of_nil hnone]
  cases (session.resolve component [(name, .scalar value)] file).1 <;> rfl

theorem undirected_numberComments {found : List (Piece Unit)} {number : Nat}
    (hundirected : ¬opening <:+: sourceOf found) :
    ¬opening <:+: numberComments number found := by
  induction found generalizing number with
  | nil => exact hundirected
  | cons piece rest ih =>
      have hrest : ¬opening <:+: sourceOf rest := fun hpart =>
        hundirected (hpart.trans (List.suffix_append ..).isInfix)
      cases piece with
      | plain c =>
          rw [numberComments, List.infix_cons_iff, not_or]
          refine ⟨?_, ih hrest⟩
          rintro ⟨after, hsplit⟩
          obtain ⟨rfl, hnext⟩ := List.cons.inj hsplit
          cases rest with
          | nil => cases hnext
          | cons next others =>
              cases next with
              | plain other =>
                  obtain ⟨rfl, -⟩ := List.cons.inj hnext
                  exact hundirected ⟨[], sourceOf others, rfl⟩
              | found source value => cases (List.cons.inj hnext).1
      | found source value =>
          have hsplit : placeholder number ++ numberComments (number + 1) rest =
              ('\x00' :: Text.ofNat number) ++ '\x00' :: numberComments (number + 1) rest := by
            simp [placeholder]
          have hdigits : '\x7b' ∉ '\x00' :: Text.ofNat number := fun hmem =>
            @not_mem_placeholder number '\x7b' (by decide)
              (List.mem_append_left _ hmem)
          rw [numberComments, hsplit, Text.infix_append_stop (by decide) (by decide)]
          rintro (hpart | hpart)
          · exact undirected_of_not_mem hdigits hpart
          · exact ih hrest hpart

theorem not_mem_commentOf (size : Nat) : '\x00' ∉ commentOf size := fun hmem =>
  absurd (mem_commentOf hmem) (by decide)

/-- Resolved with the value itself, the component writes its comment and the value. -/
theorem Writable.resolve_written (hwritable : Writable component name value)
    (hfew : (protectComments value).2.length < Number.powerOfTen Number.digitLimit)
    (size : Nat) (file : Text) :
    ((commentedSession size component name).resolve component [(name, .scalar value)] file).1 =
      .ok (some (commentOf size ++ value)) := by
  refine resolve_commented hwritable.undirected ?_ (restoreComments_protectComments ?_ ?_) file
  · have hclosed := hwritable.closed
    rw [protectComments, mem_numberComments (by decide)] at hclosed
    rw [protectComments_commented, List.mem_append, mem_numberComments (by decide), not_or]
    exact ⟨not_mem_placeholder (by decide), hclosed⟩
  · rw [List.mem_append, not_or]
    exact ⟨not_mem_commentOf size, hwritable.plain⟩
  · rw [protectComments_commented]
    exact hfew

section FirstComment

variable {before first : Text} {rest : List (Piece Unit)}
variable (hfound : pieces commentPattern value = before.map .plain ++ .found first () :: rest)

include hfound

theorem comments_of_first : (protectComments value).2 = first :: commentsOf rest := by
  rw [protectComments, hfound, commentsOf_append, commentsOf_plain]
  rfl

theorem value_of_first : value = before ++ (first ++ sourceOf rest) := by
  rw [← sourceOf_pieces commentPattern value, hfound]
  simp [sourceOf, Piece.source, List.flatMap_map]

/-- Resolved with the protected value, it writes its comment in the place of the first one. -/
theorem Writable.resolve_protected (hwritable : Writable component name value)
    (hfew : (protectComments value).2.length < Number.powerOfTen Number.digitLimit)
    (size : Nat) (file : Text) :
    ((commentedSession size component name).resolve component
      [(name, .scalar (protectComments value).1)] file).1 =
        .ok (some (commentOf size ++ (before ++ (commentOf size ++ numberComments 1 rest)))) := by
  have hnumbered := protectComments_commented size (protectComments value).1
  rw [pieces_commentPattern_of_not_mem hwritable.closed, commentsOf_plain,
    numberComments_plain] at hnumbered
  have hundirected : ¬opening <:+: (protectComments value).1 := by
    apply undirected_numberComments
    rw [sourceOf_pieces]
    exact hwritable.undirected
  have hfoundPlain : .plain '\x00' ∉ pieces commentPattern value := fun hmem =>
    hwritable.plain (plain_mem_pieces hmem)
  have hcount : 0 + (commentsOf (pieces commentPattern value)).length ≤
      Number.powerOfTen Number.digitLimit := by
    rw [Nat.zero_add]
    exact Nat.le_of_lt hfew
  refine resolve_commented hundirected ?_ ?_ file
  · rw [hnumbered, List.mem_append, not_or]
    exact ⟨not_mem_placeholder (by decide), hwritable.closed⟩
  · have hfirst : [commentOf size][0]?.getD (placeholder 0) = commentOf size := rfl
    rw [hnumbered]
    dsimp only
    rw [restoreComments_placeholder (List.cons_ne_nil _ _) (Nat.zero_lt_of_lt hfew), hfirst,
      protectComments, restoreComments_numberComments (List.cons_ne_nil _ _) hfoundPlain hcount,
      hfound, renumbered_plain_append, renumbered, hfirst, renumbered_of_length_le (by simp)]
    rfl

/-- The comments of the document are put back behind the first one, whose placeholder is gone. -/
theorem Writable.restore_written (hwritable : Writable component name value)
    (hfew : (protectComments value).2.length < Number.powerOfTen Number.digitLimit) (size : Nat) :
    restoreComments (protectComments value).2
        (commentOf size ++ (before ++ (commentOf size ++ numberComments 1 rest))) =
      .ok (commentOf size ++ (before ++ (commentOf size ++ sourceOf rest))) := by
  have hcomments := comments_of_first hfound
  have hplain := hwritable.plain
  rw [value_of_first hfound, List.mem_append, not_or] at hplain
  have hrestPlain : .plain '\x00' ∉ rest := fun hmem => hwritable.plain (plain_mem_pieces (by
    rw [hfound]
    exact List.mem_append_right _ (List.mem_cons_of_mem _ hmem)))
  have hrestCount : 1 + (commentsOf rest).length ≤ Number.powerOfTen Number.digitLimit := by
    rw [hcomments, List.length_cons] at hfew
    omega
  rw [hcomments, restoreComments_append (not_mem_commentOf size), restoreComments_append hplain.1,
    restoreComments_append (not_mem_commentOf size),
    restoreComments_numberComments (List.cons_ne_nil _ _) hrestPlain hrestCount,
    renumbered_commentsOf rfl]
  rfl

end FirstComment

/-- The comment of the template takes the place of the first one in the value. -/
theorem Writable.not_seesWritten (hwritable : Writable component name value)
    (hfew : (protectComments value).2.length < Number.powerOfTen Number.digitLimit)
    (hsome : (protectComments value).2 ≠ []) :
    ∃ size, ∀ file,
      ¬(commentedSession size component name).SeesWritten component name value file := by
  obtain ⟨before, first, rest, hfound⟩ := exists_first_comment hsome
  -- The comment of the template is longer than the one whose place it takes.
  refine ⟨first.length, fun file hsame => ?_⟩
  rw [Session.SeesWritten, hwritable.render_eq, hwritable.resolve_protected hfound hfew,
    hwritable.resolve_written hfew] at hsame
  change (restoreComments (protectComments value).2 (commentOf first.length ++
    (before ++ (commentOf first.length ++ numberComments 1 rest)))).mapError _ =
      .ok (commentOf first.length ++ value) at hsame
  rw [hwritable.restore_written hfound hfew] at hsame
  have htexts : commentOf first.length ++ (before ++ (commentOf first.length ++ sourceOf rest)) =
      commentOf first.length ++ value := Except.ok.inj hsame
  rw [value_of_first hfound, List.append_cancel_left_eq, List.append_cancel_left_eq,
    List.append_cancel_right_eq] at htexts
  have hlength := length_commentOf first.length
  rw [htexts] at hlength
  omega

/-- The value that a component sees is the protected one, and its comments are put back where the
placeholders for them are left. This makes no difference in any session, on whatever templates,
exactly if there are no comments in the value. -/
theorem Writable.seesWritten_iff (hwritable : Writable component name value)
    (hfew : (protectComments value).2.length < Number.powerOfTen Number.digitLimit) :
    (∀ (session : Session) (file : Text),
      (session.render (tagOf component name value) file []).1 = (do
        let fragment? ←
          (session.resolve component [(name, .scalar (protectComments value).1)] file).1
        (restoreComments (protectComments value).2
          (fragment?.getD (tagOf component name (protectComments value).1))).mapError .fault)) ∧
    ((∀ session : Session, (∀ entry ∈ session.store.library.templates, '\x00' ∉ entry.2) →
        ∀ file, session.SeesWritten component name value file) ↔
      (protectComments value).2 = []) := by
  refine ⟨hwritable.render_eq, fun hsees => ?_, fun hnone session _ file =>
    hwritable.seesWritten_of_nil hnone session file⟩
  by_contra hsome
  obtain ⟨size, hother⟩ := hwritable.not_seesWritten hfew hsome
  refine hother [] (hsees _ ?_ [])
  intro entry hmem
  rw [List.mem_singleton.mp hmem]
  have hname := not_mem_attributeName hwritable.attributeName (c := '\x00') (by decide)
  simp [commentedTemplate, placeholderOf, hname, not_mem_commentOf]

/-- Of two values that differ in a comment only, one reaches its component and one does not. -/
theorem seesWritten_iff_comment :
    (∀ session : Session, (∀ entry ∈ session.store.library.templates, '\x00' ∉ entry.2) →
      ∀ file, session.SeesWritten ['c'] ['k'] "v".toList file) ∧
    ¬∀ session : Session, (∀ entry ∈ session.store.library.templates, '\x00' ∉ entry.2) →
      ∀ file, session.SeesWritten ['c'] ['k'] "v<!--w-->".toList file := by
  have hplain : Writable ['c'] ['k'] "v".toList :=
    ⟨by decide, by decide, by decide, by decide, by decide, by decide, by decide⟩
  have hcommented : Writable ['c'] ['k'] "v<!--w-->".toList :=
    ⟨by decide, by decide, by decide, by decide, by decide, by decide, by decide⟩
  refine ⟨(hplain.seesWritten_iff (by decide +kernel)).2.mpr (by decide), fun hsees => ?_⟩
  have hnone := (hcommented.seesWritten_iff (by decide +kernel)).2.mp hsees
  exact absurd hnone (by decide)

/-- The comment of a template is written a second time, in the place of the one in the value. -/
theorem render_comment_in_value :
    ((Session.ofStore ⟨[], [], ⟨[(['c'], "<!--t-->\x7b\x7bk\x7d\x7d".toList)], 1⟩⟩ false).render
        (tagOf ['c'] ['k'] "<!--v-->".toList) [] []).1 = .ok "<!--t--><!--t-->".toList ∧
      ((Session.ofStore ⟨[], [], ⟨[(['c'], "<!--t-->\x7b\x7bk\x7d\x7d".toList)], 1⟩⟩ false).resolve
        ['c'] [(['k'], .scalar "<!--v-->".toList)] []).1 =
          .ok (some "<!--t--><!--v-->".toList) := by
  decide +kernel

end PageLoom.Component
