import PageLoom.Component.Resolve
import PageLoom.Proofs.Action
import PageLoom.Proofs.Markup.Sealed
import PageLoom.Proofs.Table

/-!
# Templates with sealed props

Filling placeholders, choosing the bodies of conditionals and repeating those of loops cut a text at
its directives only. From a sealed template and sealed props they make a sealed text.
-/

namespace PageLoom.Template

open Scan Markup

variable {limit start finish : Option Nat} {props : Props} {text : Text}

/-! ## Placeholders -/

theorem leads_fill {name new : Text} (hnew : Sealed limit new)
    (htext : Leads limit start text finish) :
    Leads limit start (Text.replaceAll (placeholderOf name) new text) finish := by
  have hplaceholder : placeholderOf name = '\x7b' :: ('\x7b' :: name ++ ['\x7d']) ++ ['\x7d'] := by
    simp [placeholderOf]
  rw [hplaceholder]
  exact leads_replaceAll (by decide) (by decide) hnew htext

theorem sealed_substituteProps {template : Text} (hprops : SealedProps limit props)
    (htemplate : Sealed limit template) : Sealed limit (substituteProps props template) := by
  rw [substituteProps]
  induction props generalizing template with
  | nil => exact htemplate
  | cons prop rest ih =>
      rw [List.foldl_cons]
      apply ih fun other hmem => hprops other (List.mem_cons_of_mem _ hmem)
      exact leads_fill (hprops prop (List.mem_cons_self ..)).asText htemplate

/-! ## Blocks -/

theorem marked_directivePattern : Marked directivePattern := by
  intro before c text value more hfound
  unfold directivePattern at hfound
  split at hfound
  · cases hfound
  · rename_i inside hopening
    dsimp only at hfound
    split at hfound
    · cases hfound
    · rename_i keyword rest hkeyword
      obtain ⟨candidate, -, hafter⟩ := List.exists_of_findSome?_eq_some hkeyword
      have hspelled : inside.dropWhile Text.isBlank = keyword.spelling ++ rest := by
        unfold afterKeyword? at hafter
        split at hafter
        · rename_i following hstart
          split_ifs at hafter
          cases hafter
          exact Text.eq_append_of_afterStart? hstart
        · cases hafter
      split at hfound
      · cases hfound
      · rename_i argument following hclosing
        split_ifs at hfound
        cases hfound
        have hopened := Text.eq_append_of_afterStart? hopening
        have hclosed := Text.eq_append_of_cutAt? hclosing
        rw [opening, List.cons_append, List.cons.injEq] at hopened
        obtain ⟨rfl, rfl⟩ := hopened
        refine ⟨by decide, '%' :: (inside.takeWhile Text.isBlank ++ keyword.spelling ++ argument ++
          ['%']), '\x7d', following, ?_, by decide, ?_⟩
        · have hinside : inside = inside.takeWhile Text.isBlank ++ inside.dropWhile Text.isBlank :=
            (List.takeWhile_append_dropWhile).symm
          rw [hspelled, hclosed] at hinside
          nth_rewrite 1 [hinside]
          simp [closing]
        · simp
          omega

/-- A block takes pieces up to a directive, and its bodies are cut at directives. -/
theorem threads_tailOf? {role : Keyword → Role} {depth : Nat} {found : List (Piece Directive)}
    {tail : Tail} (htail : tailOf? role depth found = some tail)
    (hfound : Threads limit start found finish) :
    Leads limit start tail.body none ∧ (∀ part ∈ tail.sections, Sealed limit part.body) ∧
      Threads limit start (found.take tail.size) none ∧
      Threads limit none (found.drop tail.size) finish := by
  induction found generalizing depth start tail with
  | nil => cases htail
  | cons piece rest ih =>
      cases piece with
      | plain c =>
          obtain ⟨between, hadvance, hrest⟩ := hfound
          rw [tailOf?, Option.map_eq_some_iff] at htail
          obtain ⟨inner, hinner, rfl⟩ := htail
          obtain ⟨hbody, hsections, htake, hdrop⟩ := ih hinner hrest
          exact ⟨leads_cons.mpr ⟨between, hadvance, hbody⟩, hsections, ⟨between, hadvance, htake⟩,
            hdrop⟩
      | found source directive =>
          obtain ⟨rfl, hsource, hrest⟩ := hfound
          have hnested : ∀ depth, (tailOf? role depth rest).map (Tail.withText source) = some tail →
              Leads limit none tail.body none ∧ (∀ part ∈ tail.sections, Sealed limit part.body) ∧
                Threads limit none ((.found source directive :: rest).take tail.size) none ∧
                Threads limit none ((.found source directive :: rest).drop tail.size) finish := by
            intro depth htail
            obtain ⟨inner, hinner, rfl⟩ := Option.map_eq_some_iff.mp htail
            obtain ⟨hbody, hsections, htake, hdrop⟩ := ih hinner hrest
            exact ⟨hsource.append hbody, hsections, ⟨rfl, hsource, htake⟩, hdrop⟩
          cases hrole : role directive.keyword with
          | opens =>
              simp only [tailOf?, hrole] at htail
              exact hnested _ htail
          | isText =>
              simp only [tailOf?, hrole] at htail
              exact hnested _ htail
          | closes =>
              cases depth with
              | zero =>
                  simp only [tailOf?, hrole, Option.some.injEq] at htail
                  subst htail
                  exact ⟨sealed_nil, by simp, ⟨rfl, hsource, rfl⟩, hrest⟩
              | succ depth =>
                  simp only [tailOf?, hrole] at htail
                  exact hnested _ htail
          | separates =>
              cases depth with
              | zero =>
                  simp only [tailOf?, hrole] at htail
                  obtain ⟨inner, hinner, rfl⟩ := Option.map_eq_some_iff.mp htail
                  obtain ⟨hbody, hsections, htake, hdrop⟩ := ih hinner hrest
                  refine ⟨sealed_nil, ?_, ⟨rfl, hsource, htake⟩, hdrop⟩
                  intro part hmem
                  rcases List.mem_cons.mp hmem with rfl | hmem
                  · exact hbody
                  · exact hsections part hmem
              | succ depth =>
                  simp only [tailOf?, hrole] at htail
                  exact hnested _ htail

/-- Replacing blocks by sealed texts, given that their bodies are sealed. -/
theorem leads_replaceBlocks {ε : Type} {role : Keyword → Role}
    {change : List Section → Except ε (Option Text)}
    (hchange : ∀ parts new, (∀ part ∈ parts, Sealed limit part.body) →
      change parts = .ok (some new) → Sealed limit new)
    {skip : Nat} {found : List (Piece Directive)}
    (hrun : replaceBlocks role change skip found = .ok text)
    (hfound : Threads limit start (found.drop skip) finish) : Leads limit start text finish := by
  induction found generalizing skip start text with
  | nil =>
      cases hrun
      rw [List.drop_nil] at hfound
      exact leads_nil.mpr hfound
  | cons piece rest ih =>
      cases skip with
      | succ skip => exact ih hrun hfound
      | zero =>
          rw [List.drop_zero] at hfound
          cases piece with
          | plain c =>
              obtain ⟨between, hadvance, hrest⟩ := hfound
              rw [replaceBlocks, except_bind_eq_ok] at hrun
              obtain ⟨following, hfollowing, hsame⟩ := hrun
              cases hsame
              exact leads_cons.mpr ⟨between, hadvance, ih hfollowing hrest⟩
          | found source directive =>
              obtain ⟨rfl, hsource, hrest⟩ := hfound
              rw [replaceBlocks] at hrun
              split at hrun
              · split at hrun
                · cases hrun
                  exact leads_append.mpr ⟨none, hsource, hrest.sourceOf⟩
                · rename_i tail htail
                  obtain ⟨hbody, hsections, htake, hdrop⟩ := threads_tailOf? htail hrest
                  rw [except_bind_eq_ok] at hrun
                  obtain ⟨changed?, hchanged, hrun⟩ := hrun
                  rw [except_bind_eq_ok] at hrun
                  obtain ⟨following, hfollowing, hsame⟩ := hrun
                  cases hsame
                  refine leads_append.mpr ⟨none, ?_, ih hfollowing hdrop⟩
                  cases changed? with
                  | none => exact hsource.append htake.sourceOf
                  | some new =>
                      apply hchange _ new ?_ hchanged
                      intro part hmem
                      rcases List.mem_cons.mp hmem with rfl | hmem
                      · exact hbody
                      · exact hsections part hmem
              · rw [except_bind_eq_ok] at hrun
                obtain ⟨following, hfollowing, hsame⟩ := hrun
                cases hsame
                exact leads_append.mpr ⟨none, hsource, ih hfollowing hrest⟩

/-! ## Conditionals and loops -/

theorem sealed_chosenBody {parts : List Section} (hparts : ∀ part ∈ parts, Sealed limit part.body)
    (hrun : chosenBody props parts = .ok text) : Sealed limit text := by
  induction parts with
  | nil =>
      cases hrun
      exact sealed_nil
  | cons part rest ih =>
      have hbody := (hparts part (List.mem_cons_self ..)).trim
      rw [chosenBody] at hrun
      split at hrun
      · cases hrun
        exact hbody
      · rw [except_bind_eq_ok] at hrun
        obtain ⟨holds, -, hrun⟩ := hrun
        cases holds with
        | true =>
            cases hrun
            exact hbody
        | false => exact ih (fun other hmem => hparts other (List.mem_cons_of_mem _ hmem)) hrun

theorem sealed_evaluateConditionals {template : Text} (htemplate : Sealed limit template)
    (hrun : evaluateConditionals props template = .ok text) : Sealed limit text := by
  have hwithin : ∀ depth template text, Sealed limit template →
      evaluateConditionalsWithin props depth template = .ok text → Sealed limit text := by
    intro depth
    induction depth with
    | zero =>
        intro template text htemplate hrun
        cases hrun
        exact htemplate
    | succ depth ih =>
        intro template text htemplate hrun
        refine leads_replaceBlocks ?_ hrun (threads_pieces marked_directivePattern htemplate)
        intro parts new hparts hchange
        rw [except_bind_eq_ok] at hchange
        obtain ⟨body, hbody, hchange⟩ := hchange
        rw [except_bind_eq_ok] at hchange
        obtain ⟨evaluated, hevaluated, hsame⟩ := hchange
        cases hsame
        exact ih body _ (sealed_chosenBody hparts hbody) hevaluated
  exact hwithin _ template text htemplate hrun

theorem sealed_loopItems (hprops : SealedProps limit props) (name : Text) :
    ∀ item ∈ loopItems props name, Sealed limit item := by
  unfold loopItems
  split
  · rename_i value hvalue
    exact SealedValue.items (hprops _ (Table.mem_of_lookup hvalue))
  · simp

theorem sealed_expandLoops {template : Text} (hprops : SealedProps limit props)
    (htemplate : Sealed limit template) : Sealed limit (expandLoops props template) := by
  unfold expandLoops
  dsimp only
  split
  rename_i expanded hexpanded
  refine leads_replaceBlocks ?_ hexpanded (threads_pieces marked_directivePattern htemplate)
  intro parts new hparts hchange
  rw [Except.ok.injEq] at hchange
  cases parts with
  | nil => cases hchange
  | cons part rest =>
      obtain ⟨header, -, rfl⟩ := Option.map_eq_some_iff.mp hchange
      rw [repeatBody, List.flatMap_def]
      apply sealed_flatten
      intro copy hcopy
      obtain ⟨item, hitem, rfl⟩ := List.mem_map.mp hcopy
      exact leads_fill (sealed_loopItems hprops _ item hitem) (hparts part (List.mem_cons_self ..))

/-- A sealed template with sealed props gives a sealed text. -/
theorem sealed_instantiate {template : Text} (htemplate : Sealed limit template)
    (hprops : SealedProps limit props) (hrun : Component.instantiate template props = .ok text) :
    Sealed limit text := by
  rw [Component.instantiate, except_bind_eq_ok] at hrun
  obtain ⟨evaluated, hevaluated, hsame⟩ := hrun
  cases hsame
  exact sealed_expandLoops hprops
    (sealed_evaluateConditionals (sealed_substituteProps hprops htemplate) hevaluated)

end PageLoom.Template
