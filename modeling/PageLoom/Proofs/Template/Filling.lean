import Mathlib.Data.List.Infix
import Mathlib.Data.List.Nodup
import Mathlib.Tactic.Common
import PageLoom.Template.Loop
import PageLoom.Proofs.Text.Replace

/-!
# Filling placeholders

Props are filled in one after the other, each of them in the text that the ones before it left. What
a prop brings along may hold the placeholder of a later prop, alone or together with what stands
around it in the template. If that is possible for no prop, the result does not depend on the order
of the props: every placeholder of the template itself gives way to its value, and nothing in the
values does. Otherwise there is a template and an order for which this fails.
-/

namespace PageLoom.Template

open Scan

/-- A proper beginning and a proper end of a mark. -/
structure Frames (left right mark : Text) : Prop where
  begins : left <+: mark
  properBeginning : left ≠ mark
  ends : right <:+ mark
  properEnd : right ≠ mark

/-! ## Placeholders -/

/-- A name that cannot be mistaken for a part of the marks around it. -/
def Unbraced (name : Text) : Prop := '\x7b' ∉ name ∧ '\x7d' ∉ name

instance (name : Text) : Decidable (Unbraced name) := inferInstanceAs (Decidable (_ ∧ _))

section Placeholders

variable {name other : Text} {left right inside rest : Text}

theorem placeholderOf_eq (name : Text) :
    placeholderOf name = '\x7b' :: '\x7b' :: (name ++ ['\x7d', '\x7d']) := rfl

theorem placeholderOf_ne_nil (name : Text) : placeholderOf name ≠ [] := List.cons_ne_nil _ _

/-- A name is told from where its placeholder begins. -/
theorem Unbraced.eq_of_starts (hname : Unbraced name) (hother : Unbraced other)
    (hstart : placeholderOf name <+: placeholderOf other ++ rest) : name = other := by
  rw [placeholderOf_eq, placeholderOf_eq, List.cons_append, List.cons_append,
    List.cons_prefix_cons, List.cons_prefix_cons] at hstart
  obtain ⟨after, hsame⟩ := hstart.2.2
  simp only [List.append_assoc, List.cons_append, List.nil_append] at hsame
  exact Text.append_cons_left_inj hname.2 hother.2 hsame

theorem Unbraced.not_mem (hname : Unbraced name) : '\x7b' ∉ name ++ ['\x7d', '\x7d'] := by
  rw [List.mem_append, not_or]
  exact ⟨hname.1, by decide⟩

/-- Only a whole placeholder begins with two braces. -/
theorem Unbraced.eq_of_opens (hother : Unbraced other) (hne : inside ≠ [])
    (hsuffix : inside <:+ placeholderOf other)
    (hopens : ['\x7b', '\x7b'] <+: inside ++ rest) : inside = placeholderOf other := by
  by_contra hinside
  have habsent := hother.not_mem
  have hmarks : other ++ ['\x7d', '\x7d'] ≠ [] := by simp
  rw [placeholderOf_eq, List.suffix_cons_iff] at hsuffix
  rcases List.suffix_cons_iff.mp (hsuffix.resolve_left hinside) with rfl | hlater
  · rw [List.cons_append, List.cons_prefix_cons] at hopens
    exact Text.not_prefix_append hmarks habsent hopens.2
  · exact Text.not_prefix_append hne (fun hmem => habsent (hlater.subset hmem)) hopens

theorem opens_placeholderOf (name : Text) : ['\x7b', '\x7b'] <+: placeholderOf name :=
  ⟨name ++ ['\x7d', '\x7d'], rfl⟩

/-- No placeholder begins inside another one. -/
theorem Unbraced.eq_of_suffix (hname : Unbraced name) (hother : Unbraced other)
    (hne : inside ≠ []) (hsuffix : inside <:+ placeholderOf other)
    (hstart : placeholderOf name <+: inside ++ rest) :
    inside = placeholderOf other ∧ name = other := by
  have hinside := hother.eq_of_opens hne hsuffix ((opens_placeholderOf name).trans hstart)
  subst hinside
  exact ⟨rfl, hname.eq_of_starts hother hstart⟩

/-- No placeholder begins in the beginning of a placeholder, also with another one after it. -/
theorem Unbraced.not_prefix_of_left {third : Text} (hother : Unbraced other)
    (hthird : Unbraced third) (hleft : left <+: placeholderOf other)
    (hproper : left ≠ placeholderOf other) (hne : inside ≠ []) (hinside : inside <:+ left) :
    ¬placeholderOf third <+: inside ++ (placeholderOf name ++ rest) := by
  obtain ⟨right, hright⟩ := hleft
  have hmore : right ≠ [] := by
    rintro rfl
    rw [List.append_nil] at hright
    exact hproper hright
  obtain ⟨before, rfl⟩ := hinside
  rw [List.append_assoc] at hright
  have hsuffix : inside ++ right <:+ placeholderOf other := ⟨before, hright⟩
  intro hstart
  rw [placeholderOf_eq third] at hstart
  rcases inside with _ | ⟨first, _ | ⟨second, inside⟩⟩
  · exact hne rfl
  · -- One brace and the two after it begin with three braces.
    rw [List.cons_append, List.nil_append, placeholderOf_eq, List.cons_append, List.cons_append,
      List.cons_prefix_cons, List.cons_prefix_cons] at hstart
    have hshort := @Text.prefix_of_prefix_append _ [] _ _ hthird.not_mem hstart.2.2
    rw [List.prefix_nil, List.append_eq_nil_iff] at hshort
    cases hshort.2
  · rw [List.cons_append, List.cons_append, List.cons_prefix_cons, List.cons_prefix_cons] at hstart
    obtain ⟨rfl, rfl, hstart⟩ := hstart
    have hinside := Text.prefix_of_prefix_append hthird.not_mem hstart
    have hopens : ['\x7b', '\x7b'] <+: '\x7b' :: '\x7b' :: inside ++ right ++ [] :=
      ⟨inside ++ right ++ [], rfl⟩
    have hwhole := hother.eq_of_opens (by simp) hsuffix hopens
    have hmarks : placeholderOf third <+: placeholderOf other ++ [] := by
      rw [List.append_nil, ← hwhole]
      exact List.cons_prefix_cons.mpr ⟨rfl, List.cons_prefix_cons.mpr
        ⟨rfl, hinside.trans (List.prefix_append ..)⟩⟩
    obtain rfl := hthird.eq_of_starts hother hmarks
    have hlength := congrArg List.length hwhole
    have hpos := List.length_pos_of_ne_nil hmore
    have hle := hinside.length_le
    simp only [placeholderOf_eq, List.length_append, List.length_cons] at hlength hle
    omega

/-- The end of a placeholder has no placeholder in it. -/
theorem Unbraced.not_infix_of_suffix (hname : Unbraced name) (hother : Unbraced other)
    (hright : right <:+ placeholderOf other) (hproper : right ≠ placeholderOf other) :
    ¬placeholderOf name <:+: right := by
  rintro ⟨before, after, hsame⟩
  rw [List.append_assoc] at hsame
  have hsuffix : placeholderOf name ++ after <:+ right := ⟨before, hsame⟩
  have hne : placeholderOf name ++ after ≠ [] :=
    List.append_ne_nil_of_left_ne_nil (placeholderOf_ne_nil name) after
  have hwhole := (hname.eq_of_suffix hother hne (hsuffix.trans hright)
    ((List.prefix_append ..).trans (List.prefix_append _ []))).1
  rw [hwhole] at hsuffix
  exact hproper (hright.eq_of_length_le hsuffix.length_le)

/-- Parts of a placeholder around another placeholder make no third one with it. -/
theorem Unbraced.eq_of_between {third : Text} (hname : Unbraced name) (hother : Unbraced other)
    (hthird : Unbraced third) (hframes : Frames left right (placeholderOf other))
    (hcontained : placeholderOf third <:+: left ++ (placeholderOf name ++ right)) : third = name := by
  have hend := hthird.not_infix_of_suffix hother hframes.ends hframes.properEnd
  obtain ⟨before, after, hsame⟩ := hcontained
  rw [List.append_assoc] at hsame
  rcases List.append_eq_append_iff.mp hsame with ⟨inside, rfl, hrest⟩ | ⟨before, rfl, hrest⟩
  · by_cases hne : inside = []
    · subst hne
      exact hthird.eq_of_starts hname ⟨after, hrest⟩
    · exact absurd ⟨after, hrest⟩
        (hother.not_prefix_of_left hthird hframes.begins hframes.properBeginning hne ⟨before, rfl⟩)
  · rcases List.append_eq_append_iff.mp hrest with ⟨between, rfl, rfl⟩ | ⟨inside, hinside, hlater⟩
    · exact absurd ⟨between, after, List.append_assoc ..⟩ hend
    · by_cases hne : inside = []
      · subst hne
        exact absurd ⟨[], after, hlater⟩ hend
      · exact (hthird.eq_of_suffix hname hne ⟨before, hinside.symm⟩ ⟨after, hlater⟩).2

end Placeholders

/-! ## Filling all placeholders at once -/

/-- The value of the prop whose placeholder begins at a position. -/
def placeholderAt? (props : Props) : Pattern Text := fun _ text =>
  props.findSome? fun prop =>
    if placeholderOf prop.1 <+: text then
      some (prop.2.asText, (placeholderOf prop.1).length - 1)
    else none

/-- A template with the placeholders that it has itself filled. -/
def filled (props : Props) (template : Text) : Text :=
  replaceWith (placeholderAt? props) (fun _ value => value) template

/-- Props of which at most one has its placeholder at a position. -/
structure Fillable (props : Props) : Prop where
  distinct : (props.map Prod.fst).Nodup
  unbraced : ∀ prop ∈ props, Unbraced prop.1

instance (props : Props) : Decidable (Fillable props) :=
  decidable_of_iff ((props.map Prod.fst).Nodup ∧ ∀ prop ∈ props, Unbraced prop.1)
    ⟨fun hprops => ⟨hprops.1, hprops.2⟩, fun hprops => ⟨hprops.distinct, hprops.unbraced⟩⟩

section Filling

variable {props order done : Props} {prop other : Text × PropValue} {template text : Text}

theorem Fillable.perm (hprops : Fillable props) (horder : order.Perm props) : Fillable order :=
  ⟨(horder.map Prod.fst).nodup_iff.mpr hprops.distinct,
    fun prop hmem => hprops.unbraced prop (horder.mem_iff.mp hmem)⟩

theorem Fillable.eq_of_name (hprops : Fillable props) (hprop : prop ∈ props)
    (hother : other ∈ props) (hname : prop.1 = other.1) : prop = other :=
  List.inj_on_of_nodup_map hprops.distinct hprop hother hname

theorem Fillable.eq_of_starts (hprops : Fillable props) (hprop : prop ∈ props)
    (hother : other ∈ props) (hstart : placeholderOf prop.1 <+: text)
    (hotherStart : placeholderOf other.1 <+: text) : prop = other := by
  obtain ⟨rest, rfl⟩ := hotherStart
  exact hprops.eq_of_name hprop hother
    ((hprops.unbraced prop hprop).eq_of_starts (hprops.unbraced other hother) hstart)

theorem placeholderAt?_eq_some (hprops : Fillable props) {before : Option Char}
    {answer : Text × Nat} :
    placeholderAt? props before text = some answer ↔ ∃ prop ∈ props,
      placeholderOf prop.1 <+: text ∧
        answer = (prop.2.asText, (placeholderOf prop.1).length - 1) := by
  constructor
  · intro hsome
    obtain ⟨prop, hmem, hfound⟩ := List.exists_of_findSome?_eq_some hsome
    split at hfound
    · next hstart => exact ⟨prop, hmem, hstart, (Option.some.inj hfound).symm⟩
    · cases hfound
  · rintro ⟨prop, hmem, hstart, rfl⟩
    cases hanswer : placeholderAt? props before text with
    | none =>
        have hnone := List.findSome?_eq_none_iff.mp hanswer prop hmem
        rw [if_pos hstart] at hnone
        cases hnone
    | some answer =>
        obtain ⟨other, hother, hfound⟩ := List.exists_of_findSome?_eq_some hanswer
        split at hfound
        · next hotherStart =>
          rw [hprops.eq_of_starts hmem hother hstart hotherStart, ← Option.some.inj hfound]
        · cases hfound

theorem contextFree_placeholderAt? (props : Props) : ContextFree (placeholderAt? props) :=
  fun _ _ _ => rfl

theorem placeholderAt?_eq_none (hnone : ∀ prop ∈ props, ¬placeholderOf prop.1 <+: text)
    (before : Option Char) : placeholderAt? props before text = none := by
  rw [placeholderAt?, List.findSome?_eq_none_iff]
  exact fun prop hmem => if_neg (hnone prop hmem)

theorem filled_cons {c : Char} (hnone : ∀ prop ∈ props, ¬placeholderOf prop.1 <+: c :: text) :
    filled props (c :: text) = c :: filled props text :=
  replaceWith_cons (contextFree_placeholderAt? props) (placeholderAt?_eq_none hnone none)

theorem filled_append_passed {before : Text}
    (hnone : ∀ c rest, c :: rest <:+ before → ∀ prop ∈ props,
      ¬placeholderOf prop.1 <+: c :: rest ++ text) :
    filled props (before ++ text) = before ++ filled props text :=
  replaceWith_append (contextFree_placeholderAt? props) fun c rest hsuffix =>
    placeholderAt?_eq_none (hnone c rest hsuffix) none

theorem filled_append (hprops : Fillable props) (hmem : prop ∈ props) :
    filled props (placeholderOf prop.1 ++ text) = prop.2.asText ++ filled props text := by
  have hsome : placeholderAt? props none (placeholderOf prop.1 ++ text) =
      some (prop.2.asText, (placeholderOf prop.1).length - 1) :=
    (placeholderAt?_eq_some hprops).mpr ⟨prop, hmem, List.prefix_append _ text, rfl⟩
  obtain ⟨c, others, hmark⟩ := List.exists_cons_of_ne_nil (placeholderOf_ne_nil prop.1)
  rw [hmark, List.cons_append, List.length_cons, Nat.add_sub_cancel] at hsome
  rw [hmark, List.cons_append, filled, filled,
    replaceWith_found (contextFree_placeholderAt? props) hsome, List.drop_left]

theorem filled_nil (template : Text) : filled [] template = template := by
  induction template with
  | nil => rfl
  | cons c template ih =>
      rw [filled_cons (fun _ hmem => by cases hmem), ih]

/-- All placeholders are told apart, so their order does not matter where they are filled at once. -/
theorem filled_perm (hprops : Fillable props) (horder : order.Perm props) (template : Text) :
    filled order template = filled props template := by
  have hpattern : placeholderAt? order = placeholderAt? props := by
    funext before text
    apply Option.ext
    intro answer
    rw [placeholderAt?_eq_some hprops, placeholderAt?_eq_some (hprops.perm horder)]
    simp only [horder.mem_iff]
  rw [filled, hpattern, filled]

/-! ## Filling one prop more -/

theorem Fillable.left {rest : Props} (hprops : Fillable (done ++ rest)) : Fillable done := by
  have hdistinct := hprops.distinct
  rw [List.map_append] at hdistinct
  exact ⟨hdistinct.of_append_left,
    fun other hmem => hprops.unbraced other (List.mem_append_left _ hmem)⟩

theorem Fillable.ne_name (hprops : Fillable (done ++ [prop])) (hmem : other ∈ done) :
    other.1 ≠ prop.1 := by
  have hdistinct := hprops.distinct
  rw [List.map_append, List.nodup_append] at hdistinct
  exact hdistinct.2.2 _ (List.mem_map_of_mem hmem) _ (by simp)

theorem Fillable.last (hprops : Fillable (done ++ [prop])) : Unbraced prop.1 :=
  hprops.unbraced prop (by simp)

/-- No placeholder of props begins inside the placeholder of another name. -/
theorem filled_append_placeholder {name : Text} (hprops : Fillable done) (hname : Unbraced name)
    (hnew : ∀ other ∈ done, other.1 ≠ name) :
    filled done (placeholderOf name ++ text) = placeholderOf name ++ filled done text := by
  refine filled_append_passed fun c rest hsuffix other hmem hstart => ?_
  have hother := hprops.unbraced other hmem
  exact hnew other hmem (hother.eq_of_suffix hname (List.cons_ne_nil c rest) hsuffix hstart).2

theorem placeholders_ne_nil (props : Props) :
    ∀ mark ∈ props.map (placeholderOf ·.1), mark ≠ [] := by
  intro mark hmem
  obtain ⟨prop, -, rfl⟩ := List.mem_map.mp hmem
  exact placeholderOf_ne_nil prop.1

/-- One prop more is filled in after others, if its placeholder begins in none of their values, and
elsewhere only where it begins in the template. -/
theorem replaceAll_filled (hprops : Fillable (done ++ [prop]))
    (hvalues : ∀ other ∈ done, ∀ c later, c :: later <:+ other.2.asText → ∀ text,
      ¬placeholderOf prop.1 <+: c :: later ++ text)
    (htemplate : ∀ c rest, c :: rest <:+ template →
      (∀ other ∈ done ++ [prop], ¬placeholderOf other.1 <+: c :: rest) →
        ¬placeholderOf prop.1 <+: c :: filled done rest) :
    Text.replaceAll (placeholderOf prop.1) prop.2.asText (filled done template) =
      filled (done ++ [prop]) template := by
  have hlast : prop ∈ done ++ [prop] := by simp
  have hrest : ∀ text, text <:+ template →
      Text.replaceAll (placeholderOf prop.1) prop.2.asText (filled done text) =
        filled (done ++ [prop]) text := by
    intro text hsuffix
    induction text using Text.induction_marks _ (placeholders_ne_nil (done ++ [prop])) with
    | nil => rfl
    | mark mark hmem rest ih =>
        have hfilled := ih ((List.suffix_append mark rest).trans hsuffix)
        obtain ⟨other, hother, rfl⟩ := List.mem_map.mp hmem
        rcases List.mem_append.mp hother with hdone | hsame
        · have hpassed := fun c later hlater => hvalues other hdone c later hlater (filled done rest)
          rw [filled_append hprops.left hdone, filled_append hprops hother,
            Text.replaceAll_append_passed hpassed, hfilled]
        · obtain rfl := List.mem_singleton.mp hsame
          rw [filled_append_placeholder hprops.left hprops.last fun _ => hprops.ne_name,
            Text.replaceAll_append (placeholderOf_ne_nil other.1), filled_append hprops hlast,
            hfilled]
    | plain c rest habsent ih =>
        have hfilled := ih ((List.suffix_cons c rest).trans hsuffix)
        have hnone : ∀ other ∈ done ++ [prop], ¬placeholderOf other.1 <+: c :: rest :=
          fun other hmem => habsent _ (List.mem_map_of_mem hmem)
        rw [filled_cons fun other hmem => hnone other (List.mem_append_left _ hmem),
          filled_cons hnone, Text.replaceAll_cons (htemplate c rest hsuffix hnone), hfilled]
  exact hrest template (List.suffix_refl _)

/-- A prop that stands for its own placeholder changes nothing. -/
theorem filled_concat_self (hprops : Fillable (done ++ [prop]))
    (hself : prop.2.asText = placeholderOf prop.1) (template : Text) :
    filled (done ++ [prop]) template = filled done template := by
  induction template using Text.induction_marks _ (placeholders_ne_nil (done ++ [prop])) with
  | nil => rfl
  | mark mark hmem rest ih =>
      obtain ⟨other, hother, rfl⟩ := List.mem_map.mp hmem
      rw [filled_append hprops hother, ih]
      rcases List.mem_append.mp hother with hdone | hsame
      · rw [filled_append hprops.left hdone]
      · obtain rfl := List.mem_singleton.mp hsame
        rw [filled_append_placeholder hprops.left hprops.last fun _ => hprops.ne_name, hself]
  | plain c rest habsent ih =>
      have hnone : ∀ other ∈ done ++ [prop], ¬placeholderOf other.1 <+: c :: rest :=
        fun other hmem => habsent _ (List.mem_map_of_mem hmem)
      rw [filled_cons hnone, filled_cons fun other hmem => hnone other (List.mem_append_left _ hmem),
        ih]

/-- If every prop can be filled in after those before it, filling in one after the other fills what
the template has itself. -/
theorem substituteProps_filled {rest : Props}
    (hstep : ∀ before prop after, before ++ [prop] ++ after = done ++ rest →
      Text.replaceAll (placeholderOf prop.1) prop.2.asText (filled before template) =
        filled (before ++ [prop]) template) :
    substituteProps rest (filled done template) = filled (done ++ rest) template := by
  induction rest generalizing done with
  | nil =>
      rw [List.append_nil]
      rfl
  | cons prop rest ih =>
      rw [List.append_cons] at hstep ⊢
      rw [substituteProps, List.foldl_cons, hstep done prop rest rfl]
      exact ih hstep

/-- In any order, each step may use that the props are the given ones. -/
theorem substituteProps_of_steps (hprops : Fillable props) (horder : order.Perm props)
    (hstep : ∀ done prop, Fillable (done ++ [prop]) → (∀ other ∈ done ++ [prop], other ∈ props) →
      Text.replaceAll (placeholderOf prop.1) prop.2.asText (filled done template) =
        filled (done ++ [prop]) template) :
    substituteProps order template = filled props template := by
  have hordered := hprops.perm horder
  have hrun : substituteProps order (filled [] template) = filled ([] ++ order) template := by
    apply substituteProps_filled
    rintro done prop after rfl
    exact hstep done prop hordered.left fun other hmem =>
      horder.mem_iff.mp (List.mem_append_left _ hmem)
  rwa [filled_nil, List.nil_append, filled_perm hprops horder] at hrun

end Filling

/-! ## Independent props -/

/-- A value holds a mark, alone or between a beginning and an end of the mark. -/
def Touches (value mark : Text) : Prop :=
  ∃ left right, Frames left right mark ∧ mark <:+: left ++ value ++ right

instance (value mark : Text) : Decidable (Touches value mark) :=
  decidable_of_iff (∃ left ∈ mark.inits, ∃ right ∈ mark.tails,
    left ≠ mark ∧ right ≠ mark ∧ mark <:+: left ++ value ++ right) (by
    constructor
    · rintro ⟨left, hleft, right, hright, hleftProper, hrightProper, hcontained⟩
      exact ⟨left, right, ⟨(List.mem_inits ..).mp hleft, hleftProper, (List.mem_tails ..).mp hright,
        hrightProper⟩, hcontained⟩
    · rintro ⟨left, right, hframes, hcontained⟩
      exact ⟨left, (List.mem_inits ..).mpr hframes.begins, right,
        (List.mem_tails ..).mpr hframes.ends, hframes.properBeginning, hframes.properEnd, hcontained⟩)

/-- No prop brings along the placeholder of another one, alone or with what can stand around it,
unless that other one stands for its own placeholder. -/
def Independent (props : Props) : Prop :=
  ∀ prop ∈ props, ∀ other ∈ props, prop.1 ≠ other.1 →
    other.2.asText = placeholderOf other.1 ∨ ¬Touches prop.2.asText (placeholderOf other.1)

instance (props : Props) : Decidable (Independent props) :=
  inferInstanceAs (Decidable (∀ prop ∈ props, ∀ other ∈ props, prop.1 ≠ other.1 → _ ∨ _))

section Independence

variable {props order done : Props} {prop : Text × PropValue} {template text mark value : Text}

/-- A mark does not begin in a value that does not touch it, whatever follows the value. -/
theorem not_prefix_of_not_touches (hmark : mark ≠ []) (hapart : ¬Touches value mark) {c : Char}
    {later : Text} (hsuffix : c :: later <:+ value) (text : Text) :
    ¬mark <+: c :: later ++ text := by
  refine fun hstart => hapart ?_
  rcases List.prefix_or_prefix_of_prefix hstart (List.prefix_append ..) with
    hinside | ⟨right, hright⟩
  · refine ⟨[], [], ⟨List.nil_prefix, hmark.symm, List.nil_suffix, hmark.symm⟩, ?_⟩
    rw [List.nil_append, List.append_nil]
    exact hinside.isInfix.trans hsuffix.isInfix
  · refine ⟨[], right, ⟨List.nil_prefix, hmark.symm, ⟨_, hright⟩, ?_⟩, ?_⟩
    · rintro rfl
      exact List.cons_ne_nil c later (List.append_left_eq_self.mp hright)
    · obtain ⟨before, rfl⟩ := hsuffix
      exact ⟨before, [], by simp [← hright]⟩

/-- What is left of a mark does not begin with or in a value that does not touch the mark. -/
theorem not_prefix_append_of_not_touches {before rest : Text} (hapart : ¬Touches value mark)
    (hbefore : before ≠ []) (hrest : rest ≠ []) (hmark : before ++ rest = mark) :
    ¬rest <+: value ++ text := by
  intro hstart
  have hbeforeProper : before ≠ mark := by
    rintro rfl
    exact hrest (List.append_right_eq_self.mp hmark)
  apply hapart
  rcases List.prefix_or_prefix_of_prefix hstart (List.prefix_append ..) with
    ⟨after, hinside⟩ | ⟨right, hright⟩
  · refine ⟨before, [], ⟨⟨rest, hmark⟩, hbeforeProper, List.nil_suffix, ?_⟩, ?_⟩
    · rintro rfl
      exact hrest (List.append_eq_nil_iff.mp hmark).2
    · exact ⟨[], after, by simp [← hmark, ← hinside]⟩
  · rw [← hright, ← List.append_assoc] at hmark
    refine ⟨before, right, ⟨⟨rest, by rw [← hmark, List.append_assoc, hright]⟩, hbeforeProper,
      ⟨_, hmark⟩, ?_⟩, hmark ▸ List.infix_refl _⟩
    rintro rfl
    exact hbefore (List.append_eq_nil_iff.mp (List.append_left_eq_self.mp hmark)).1

/-- A filled template goes on like a mark only if the template does, as long as the values do not
touch the mark. -/
theorem prefix_of_filled (hprops : Fillable done) {before rest : Text}
    (hapart : ∀ other ∈ done, ¬Touches other.2.asText mark) (hbefore : before ≠ [])
    (hmark : before ++ rest = mark) (hstart : rest <+: filled done text) : rest <+: text := by
  induction rest generalizing before text with
  | nil => exact List.nil_prefix
  | cons c rest ih =>
      by_cases hfound : ∃ other ∈ done, placeholderOf other.1 <+: text
      · obtain ⟨other, hmem, text, rfl⟩ := hfound
        rw [filled_append hprops hmem] at hstart
        exact absurd hstart (not_prefix_append_of_not_touches (hapart other hmem) hbefore
          (List.cons_ne_nil c rest) hmark)
      · cases text with
        | nil => exact absurd (List.prefix_nil.mp hstart) (List.cons_ne_nil c rest)
        | cons first text =>
            have hnone : ∀ other ∈ done, ¬placeholderOf other.1 <+: first :: text :=
              fun other hmem hstart => hfound ⟨other, hmem, hstart⟩
            rw [filled_cons hnone, List.cons_prefix_cons] at hstart
            obtain ⟨rfl, hstart⟩ := hstart
            have hlonger : before ++ [c] ++ rest = mark := by simpa using hmark
            exact List.cons_prefix_cons.mpr ⟨rfl, ih (by simp) hlonger hstart⟩

theorem replaceAll_filled_of_not_touches (hprops : Fillable (done ++ [prop]))
    (hapart : ∀ other ∈ done, ¬Touches other.2.asText (placeholderOf prop.1)) :
    Text.replaceAll (placeholderOf prop.1) prop.2.asText (filled done template) =
      filled (done ++ [prop]) template := by
  apply replaceAll_filled hprops
  · intro other hmem c later
    exact not_prefix_of_not_touches (placeholderOf_ne_nil prop.1) (hapart other hmem)
  · intro c rest _ hnone
    rw [placeholderOf_eq, List.cons_prefix_cons]
    rintro ⟨rfl, hlater⟩
    have hmark : ['\x7b'] ++ '\x7b' :: (prop.1 ++ ['\x7d', '\x7d']) = placeholderOf prop.1 := rfl
    exact hnone prop (by simp) (List.cons_prefix_cons.mpr ⟨rfl,
      prefix_of_filled hprops.left hapart (List.cons_ne_nil _ _) hmark hlater⟩)

theorem substituteProps_of_independent (hprops : Fillable props) (hindependent : Independent props)
    (horder : order.Perm props) (template : Text) :
    substituteProps order template = filled props template := by
  apply substituteProps_of_steps hprops horder
  intro done prop hdone hmem
  by_cases hself : prop.2.asText = placeholderOf prop.1
  · rw [hself, Text.replaceAll_self (placeholderOf_ne_nil prop.1), filled_concat_self hdone hself]
  · refine replaceAll_filled_of_not_touches hdone fun other hother => ?_
    exact (hindependent other (hmem other (by simp [hother])) prop (hmem prop (by simp))
      (hdone.ne_name hother)).resolve_left hself

theorem substituteProps_of_not_infix {text : Text}
    (habsent : ∀ prop ∈ props, ¬placeholderOf prop.1 <:+: text) :
    substituteProps props text = text := by
  unfold substituteProps
  induction props with
  | nil => rfl
  | cons prop rest ih =>
      rw [List.foldl_cons, Text.replaceAll_of_not_infix (habsent prop List.mem_cons_self)]
      exact ih fun other hmem => habsent other (List.mem_cons_of_mem _ hmem)

theorem substituteProps_concat (prop : Text × PropValue) (text : Text) :
    substituteProps (props ++ [prop]) text =
      Text.replaceAll (placeholderOf prop.1) prop.2.asText (substituteProps props text) :=
  List.foldl_concat ..

/-- A placeholder between parts of another one is the only one there. -/
theorem replaceAll_between {name other left right : Text} (hname : Unbraced name)
    (hother : Unbraced other) (hframes : Frames left right (placeholderOf other)) (new : Text) :
    Text.replaceAll (placeholderOf name) new (left ++ (placeholderOf name ++ right)) =
      left ++ (new ++ right) := by
  have hbegin : ∀ c rest, c :: rest <:+ left →
      ¬placeholderOf name <+: c :: rest ++ (placeholderOf name ++ right) :=
    fun c rest => hother.not_prefix_of_left hname hframes.begins hframes.properBeginning
      (List.cons_ne_nil c rest)
  have hend := hname.not_infix_of_suffix hother hframes.ends hframes.properEnd
  rw [Text.replaceAll_append_passed hbegin, Text.replaceAll_append (placeholderOf_ne_nil name),
    Text.replaceAll_of_not_infix hend]

/-- Where a value touches the placeholder of another prop, it is put between what makes that
placeholder of it. Then the last two props may not be interchanged. -/
theorem independent_of_substituteProps (hprops : Fillable props)
    (hsame : ∀ order, order.Perm props → ∀ template,
      substituteProps order template = filled props template) : Independent props := by
  intro prop hprop other hother hname
  rw [or_iff_not_imp_right, not_not]
  rintro ⟨left, right, hframes, hcontained⟩
  obtain ⟨rest, horder⟩ : ∃ rest, (rest ++ [other] ++ [prop]).Perm props := by
    have hlater : other ∈ props.erase prop :=
      (List.mem_erase_of_ne fun hsame => hname (congrArg Prod.fst hsame.symm)).mpr hother
    refine ⟨(props.erase prop).erase other, (List.perm_append_singleton ..).trans ?_⟩
    exact (((List.perm_append_singleton ..).trans (List.perm_cons_erase hlater).symm).cons prop).trans
      (List.perm_cons_erase hprop).symm
  have hswapped : (rest ++ [prop] ++ [other]).Perm props := by
    refine List.Perm.trans ?_ horder
    rw [List.append_assoc, List.append_assoc]
    exact (List.Perm.swap ..).append_left rest
  have hunfilled : ∀ third ∈ rest ++ [other],
      ¬placeholderOf third.1 <:+: left ++ (placeholderOf prop.1 ++ right) := by
    intro third hthird hpart
    have hordered := hprops.perm horder
    exact hordered.ne_name hthird (hordered.last.eq_of_between (hprops.unbraced other hother)
      (hordered.left.unbraced third hthird) hframes hpart)
  have hrest := substituteProps_of_not_infix fun third hthird =>
    hunfilled third (List.mem_append_left _ hthird)
  have hbetween := replaceAll_between (hprops.unbraced prop hprop) (hprops.unbraced other hother)
    hframes prop.2.asText
  have hlast := hsame _ horder (left ++ (placeholderOf prop.1 ++ right))
  have hfirst := hsame _ hswapped (left ++ (placeholderOf prop.1 ++ right))
  rw [substituteProps_concat, substituteProps_of_not_infix hunfilled, hbetween] at hlast
  rw [substituteProps_concat, substituteProps_concat, hrest, hbetween, ← hlast,
    Text.replaceAll_eq_self_iff (placeholderOf_ne_nil other.1)] at hfirst
  rw [List.append_assoc] at hcontained
  exact hfirst.resolve_right (not_not_intro hcontained)

/-- The order of props does not matter exactly if they are independent. Every placeholder of the
template then gives way to its value, and nothing in the values does. -/
theorem substituteProps_order_iff (hprops : Fillable props) :
    (∀ order, order.Perm props → ∀ template,
      substituteProps order template = filled props template) ↔ Independent props :=
  ⟨independent_of_substituteProps hprops,
    fun hindependent _ horder => substituteProps_of_independent hprops hindependent horder⟩

end Independence

/-! ## Well-braced templates -/

/-- Wherever two braces open in a template, a placeholder begins. -/
def WellBraced (template : Text) : Prop :=
  ∀ rest, rest <:+ template → ['\x7b', '\x7b'] <+: rest →
    ∃ name, Unbraced name ∧ placeholderOf name <+: rest

section WellBraced

variable {props order done : Props} {prop : Text × PropValue} {template : Text}

/-- Filling opens no two braces in a template that has them only in its placeholders. -/
theorem not_prefix_of_wellBraced (hprops : Fillable (done ++ [prop]))
    (htemplate : WellBraced template) {c : Char} {rest : Text} (hsuffix : c :: rest <:+ template)
    (hnone : ∀ other ∈ done ++ [prop], ¬placeholderOf other.1 <+: c :: rest) :
    ¬placeholderOf prop.1 <+: c :: filled done rest := by
  intro hstart
  have hopens := (opens_placeholderOf prop.1).trans hstart
  rw [List.cons_prefix_cons] at hopens
  obtain ⟨rfl, hopens⟩ := hopens
  by_cases hfound : ∃ other ∈ done, placeholderOf other.1 <+: rest
  · -- Before a placeholder there would be three braces in the template.
    obtain ⟨other, hmem, rest, rfl⟩ := hfound
    obtain ⟨name, hname, hplaceholder⟩ := htemplate _ hsuffix
      (List.cons_prefix_cons.mpr ⟨rfl, '\x7b' :: (other.1 ++ ['\x7d', '\x7d']) ++ rest, rfl⟩)
    have hother := hprops.left.unbraced other hmem
    have hbrace : ['\x7b'] <+: placeholderOf other.1 := ⟨_, rfl⟩
    exact hother.not_prefix_of_left hname hbrace (by simp [placeholderOf_eq])
      (List.cons_ne_nil _ []) (List.suffix_refl _) hplaceholder
  · cases rest with
    | nil => cases List.prefix_nil.mp hopens
    | cons second rest =>
        rw [filled_cons fun other hmem hlater => hfound ⟨other, hmem, hlater⟩,
          List.cons_prefix_cons] at hopens
        obtain ⟨name, hname, after, hplaceholder⟩ := htemplate _ hsuffix
          (List.cons_prefix_cons.mpr ⟨rfl, List.cons_prefix_cons.mpr ⟨hopens.1, List.nil_prefix⟩⟩)
        have hdone : ∀ other ∈ done, ¬placeholderOf other.1 <+: '\x7b' :: second :: rest :=
          fun other hmem => hnone other (List.mem_append_left _ hmem)
        have hnew : ∀ other ∈ done, other.1 ≠ name := by
          rintro other hmem rfl
          exact hdone other hmem ⟨after, hplaceholder⟩
        -- What opens here is a placeholder of no prop, and stays as it is.
        rw [← filled_cons hdone, ← hplaceholder,
          filled_append_placeholder hprops.left hname hnew] at hstart
        have hsame := hprops.last.eq_of_starts hname hstart
        exact hnone prop (by simp) ⟨after, hsame ▸ hplaceholder⟩

theorem substituteProps_of_wellBraced (hprops : Fillable props)
    (hvalues : ∀ prop ∈ props, '\x7b' ∉ prop.2.asText) (htemplate : WellBraced template)
    (horder : order.Perm props) : substituteProps order template = filled props template := by
  apply substituteProps_of_steps hprops horder
  intro done prop hdone hmem
  apply replaceAll_filled hdone
  · intro other hother c later hsuffix text hstart
    rw [placeholderOf_eq, List.cons_append, List.cons_prefix_cons] at hstart
    apply hvalues other (hmem other (by simp [hother]))
    rw [hstart.1]
    exact hsuffix.subset List.mem_cons_self
  · exact fun c rest => not_prefix_of_wellBraced hdone htemplate

end WellBraced

end PageLoom.Template
