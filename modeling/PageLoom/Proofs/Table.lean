import Mathlib.Data.List.Nodup
import Mathlib.Data.List.Induction
import Mathlib.Tactic.Common
import PageLoom.Table

/-!
# Tables

Props, templates, configurations and the entries of a disk are tables. A table that is filled one
entry after the other has every key once, where it first came up, and at every key the value that
came last.
-/

namespace PageLoom

section Distinct

variable {α : Type} [BEq α] [LawfulBEq α]

theorem eraseDups_concat [DecidableEq α] (values : List α) (value : α) :
    (values ++ [value]).eraseDups =
      if value ∈ values then values.eraseDups else values.eraseDups ++ [value] := by
  have hsingle : [value].eraseDups = [value] := List.eraseDups_cons
  rw [List.eraseDups_append, List.removeAll]
  by_cases hmem : value ∈ values
  · simp [hmem]
  · simp [hmem, hsingle]

theorem nodup_eraseDups [DecidableEq α] (values : List α) : values.eraseDups.Nodup := by
  induction values using List.reverseRecOn with
  | nil => exact List.nodup_nil
  | append_singleton values value ih =>
      rw [eraseDups_concat]
      split
      · exact ih
      · next hmem =>
        rw [← List.concat_eq_append]
        exact ih.concat fun hfound => hmem (List.mem_eraseDups.mp hfound)

end Distinct

namespace Table

variable {κ υ : Type} [DecidableEq κ] [BEq κ] [LawfulBEq κ]

omit [DecidableEq κ] in
theorem mem_of_lookup {entries : List (κ × υ)} {key : κ} {value : υ}
    (hfound : entries.lookup key = some value) : (key, value) ∈ entries := by
  obtain ⟨before, after, rfl, -⟩ := List.lookup_eq_some_iff.mp hfound
  exact List.mem_append_right before (List.mem_cons_self ..)

omit [BEq κ] [LawfulBEq κ] in
/-- An entry of the new table is the new one or was there before. -/
theorem mem_put {entries : List (κ × υ)} {key : κ} {value : υ} {entry : κ × υ}
    (hmem : entry ∈ put entries key value) : entry = (key, value) ∨ entry ∈ entries := by
  induction entries with
  | nil => exact .inl (List.mem_singleton.mp hmem)
  | cons first rest ih =>
      rw [put] at hmem
      split at hmem
      · exact (List.mem_cons.mp hmem).imp_right (List.mem_cons_of_mem _)
      · rcases List.mem_cons.mp hmem with rfl | hmem
        · exact .inr (List.mem_cons_self ..)
        · exact (ih hmem).imp_right (List.mem_cons_of_mem _)

theorem keys_put (entries : List (κ × υ)) (key : κ) (value : υ) :
    (put entries key value).map Prod.fst =
      if key ∈ entries.map Prod.fst then entries.map Prod.fst
      else entries.map Prod.fst ++ [key] := by
  induction entries with
  | nil => rfl
  | cons entry rest ih =>
      obtain ⟨first, old⟩ := entry
      rw [put]
      by_cases hsame : first = key
      · simp [hsame]
      · rw [if_neg hsame, List.map_cons, ih]
        simp only [List.map_cons, List.mem_cons, Ne.symm hsame, false_or]
        split <;> rfl

theorem lookup_cons (entry : κ × υ) (entries : List (κ × υ)) (key : κ) :
    (entry :: entries).lookup key = if key = entry.1 then some entry.2 else entries.lookup key := by
  rw [List.lookup_cons]
  by_cases hsame : key = entry.1
  · simp [hsame]
  · simp [hsame, beq_eq_false_iff_ne.mpr hsame]

omit [DecidableEq κ] in
theorem lookup_isSome_iff {entries : List (κ × υ)} {key : κ} :
    (entries.lookup key).isSome ↔ key ∈ entries.map Prod.fst := by
  simp [List.lookup_isSome_iff]

/-- With every key once, looking up a key finds the entry that is there. -/
theorem lookup_eq_some_iff {entries : List (κ × υ)} {key : κ} {value : υ}
    (hnodup : (entries.map Prod.fst).Nodup) :
    entries.lookup key = some value ↔ (key, value) ∈ entries := by
  induction entries with
  | nil => simp
  | cons entry rest ih =>
      obtain ⟨first, old⟩ := entry
      rw [List.map_cons, List.nodup_cons] at hnodup
      rw [lookup_cons, List.mem_cons, ← ih hnodup.2]
      by_cases hsame : key = first
      · subst hsame
        have habsent : rest.lookup key ≠ some value := by
          intro hfound
          exact hnodup.1 (List.mem_map.mpr ⟨_, (ih hnodup.2).mp hfound, rfl⟩)
        simp [habsent, eq_comm]
      · simp [hsame]

theorem lookup_put (entries : List (κ × υ)) (key other : κ) (value : υ) :
    (put entries key value).lookup other =
      if other = key then some value else entries.lookup other := by
  induction entries with
  | nil => exact lookup_cons (key, value) [] other
  | cons entry rest ih =>
      obtain ⟨first, old⟩ := entry
      rw [put]
      by_cases hsame : first = key
      · subst hsame
        rw [if_pos rfl, lookup_cons, lookup_cons]
        split <;> rfl
      · rw [if_neg hsame, lookup_cons, lookup_cons, ih]
        by_cases hfirst : other = first
        · rw [if_pos hfirst, if_pos hfirst, if_neg (hfirst ▸ hsame)]
        · rw [if_neg hfirst, if_neg hfirst]

omit [BEq κ] [LawfulBEq κ] in
theorem ofEntries_concat (entries : List (κ × υ)) (key : κ) (value : υ) :
    ofEntries (entries ++ [(key, value)]) = put (ofEntries entries) key value := by
  rw [ofEntries, List.foldl_concat]
  rfl

omit [BEq κ] [LawfulBEq κ] in
theorem mem_ofEntries {entries : List (κ × υ)} {entry : κ × υ} (hmem : entry ∈ ofEntries entries) :
    entry ∈ entries := by
  induction entries using List.reverseRecOn with
  | nil => exact hmem
  | append_singleton entries last ih =>
      rw [ofEntries_concat entries last.1 last.2] at hmem
      rcases mem_put hmem with rfl | hmem
      · exact List.mem_append_right _ (List.mem_singleton_self _)
      · exact List.mem_append_left _ (ih hmem)

omit [BEq κ] [LawfulBEq κ] in
theorem put_of_not_mem {entries : List (κ × υ)} {key : κ} (habsent : key ∉ entries.map Prod.fst)
    (value : υ) : put entries key value = entries ++ [(key, value)] := by
  induction entries with
  | nil => rfl
  | cons entry rest ih =>
      obtain ⟨first, old⟩ := entry
      rw [List.map_cons, List.mem_cons, not_or] at habsent
      rw [put, if_neg (Ne.symm habsent.1), ih habsent.2]
      rfl

omit [BEq κ] [LawfulBEq κ] in
/-- Entries that have every key once are a table already. -/
theorem ofEntries_of_nodup {entries : List (κ × υ)} (hnodup : (entries.map Prod.fst).Nodup) :
    ofEntries entries = entries := by
  induction entries using List.reverseRecOn with
  | nil => rfl
  | append_singleton entries entry ih =>
      rw [List.map_append, List.nodup_append] at hnodup
      obtain ⟨hentries, -, hapart⟩ := hnodup
      have habsent : entry.1 ∉ entries.map Prod.fst := fun hmem =>
        hapart entry.1 hmem entry.1 (List.mem_singleton_self _) rfl
      rw [ofEntries_concat entries entry.1 entry.2, ih hentries, put_of_not_mem habsent]

/-- Every key is where it first came up. -/
theorem keys_ofEntries (entries : List (κ × υ)) :
    (ofEntries entries).map Prod.fst = (entries.map Prod.fst).eraseDups := by
  induction entries using List.reverseRecOn with
  | nil => rfl
  | append_singleton entries entry ih =>
      rw [ofEntries_concat entries entry.1 entry.2, keys_put, ih, List.map_append, List.map_singleton,
        eraseDups_concat]
      simp only [List.mem_eraseDups]

/-- Every key has the value that came last. -/
theorem lookup_ofEntries (entries : List (κ × υ)) (key : κ) :
    (ofEntries entries).lookup key = entries.reverse.lookup key := by
  induction entries using List.reverseRecOn with
  | nil => rfl
  | append_singleton entries entry ih =>
      rw [ofEntries_concat entries entry.1 entry.2, lookup_put, ih, List.reverse_append,
        List.reverse_singleton, List.singleton_append, lookup_cons]

section Ascending

variable {α : Type} {pair? : α → Option (κ × υ)} {values : List α} {key : κ} {value : υ}

/-- The value of an element, if it has one for a key. -/
def valueFor? (pair? : α → Option (κ × υ)) (key : κ) (element : α) : Option υ :=
  (pair? element).bind fun entry => if key = entry.1 then some entry.2 else none

omit [BEq κ] [LawfulBEq κ] in
theorem valueFor?_eq_some_iff {element : α} :
    valueFor? pair? key element = some value ↔ pair? element = some (key, value) := by
  unfold valueFor?
  cases pair? element with
  | none => simp
  | some entry =>
      obtain ⟨other, old⟩ := entry
      by_cases hsame : key = other
      · simp [hsame]
      · simp [hsame, Ne.symm hsame]

theorem lookup_filterMap (values : List α) (pair? : α → Option (κ × υ)) (key : κ) :
    (values.filterMap pair?).lookup key = values.findSome? (valueFor? pair? key) := by
  induction values with
  | nil => rfl
  | cons element rest ih =>
      rw [List.findSome?_cons, valueFor?, ← ih]
      cases hentry : pair? element with
      | none => rw [List.filterMap_cons_none hentry]; rfl
      | some entry =>
          rw [List.filterMap_cons_some hentry, lookup_cons, Option.bind_some]
          split <;> rfl

/-- Made from an ascending list, a table holds of each key the value of the greatest element that
has one for it. -/
theorem lookup_ofEntries_filterMap {below : α → α → Prop}
    (hasymm : ∀ left right, below left right → ¬below right left)
    (hsorted : values.Pairwise below) :
    (ofEntries (values.filterMap pair?)).lookup key = some value ↔
      ∃ greatest ∈ values, pair? greatest = some (key, value) ∧
        ∀ other ∈ values, ∀ old, pair? other = some (key, old) → ¬below greatest other := by
  rw [lookup_ofEntries, ← List.filterMap_reverse, lookup_filterMap, List.findSome?_eq_some_iff]
  constructor
  · rintro ⟨later, greatest, earlier, hsplit, hvalue, hlater⟩
    have hdescending := List.pairwise_reverse.mpr hsorted
    rw [hsplit, List.pairwise_append, List.pairwise_cons] at hdescending
    have hmem : ∀ element, element ∈ values ↔
        element ∈ later ∨ element = greatest ∨ element ∈ earlier := by
      intro element
      rw [← List.mem_reverse, hsplit, List.mem_append, List.mem_cons]
    refine ⟨greatest, (hmem greatest).mpr (.inr (.inl rfl)), valueFor?_eq_some_iff.mp hvalue, ?_⟩
    intro other hother old hold hbelow
    rcases (hmem other).mp hother with hafter | rfl | hbefore
    · have hnone := hlater other hafter
      rw [valueFor?_eq_some_iff.mpr hold] at hnone
      cases hnone
    · exact hasymm _ _ hbelow hbelow
    · exact hasymm _ _ hbelow (hdescending.2.1.1 other hbefore)
  · rintro ⟨greatest, hgreatest, hvalue, hothers⟩
    obtain ⟨earlier, later, rfl⟩ := List.append_of_mem hgreatest
    refine ⟨later.reverse, greatest, earlier.reverse, by simp, valueFor?_eq_some_iff.mpr hvalue, ?_⟩
    rw [List.pairwise_append, List.pairwise_cons] at hsorted
    intro other hother
    rw [List.mem_reverse] at hother
    refine Option.eq_none_iff_forall_ne_some.mpr fun old hold => ?_
    exact hothers other (by simp [hother]) old (valueFor?_eq_some_iff.mp hold)
      (hsorted.2.1.1 other hother)

end Ascending

end Table

end PageLoom
