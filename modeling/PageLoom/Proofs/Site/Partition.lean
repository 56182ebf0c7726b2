import Mathlib.Data.List.Range
import Mathlib.Tactic.Common
import PageLoom.Site.Partition

/-!
# Dealing work out

The parts of a list have the members of the list, each as often as the list has it. There is one for
each place that is dealt to, or for each member if these are fewer; none is empty, and they are as
even as they can be. Reading them in turn undoes the dealing: the member dealt out first is read
first, and the part that had it goes behind the others.
-/

namespace PageLoom.Site

variable {α : Type} {lower : Nat}

theorem everyNth_nil (step skip : Nat) : everyNth step skip ([] : List α) = [] := by
  cases skip <;> rfl

theorem isEmpty_everyNth (step skip : Nat) (items : List α) :
    (everyNth step skip items).isEmpty = decide (items.length ≤ skip) := by
  fun_induction everyNth step skip items with
  | case1 => simp
  | case2 => simp
  | case3 skip item rest ih => rw [ih, List.length_cons, decide_eq_decide, Nat.add_le_add_iff_right]

/-- The parts with the empty ones among them, one for each of the first `count` places. -/
def deal (count : Nat) (items : List α) : List (List α) :=
  (List.range count).map fun first => everyNth count first items

/-- At least one place is dealt to, so that there is a last part to go on from. -/
theorem exists_partition_eq (items : List α) (count : Int) :
    ∃ lower, max 1 count.toNat = lower + 1 ∧
      partition items count = (deal (lower + 1) items).filter (!·.isEmpty) := by
  obtain ⟨lower, hparts⟩ : ∃ lower, max 1 count.toNat = lower + 1 :=
    ⟨max 1 count.toNat - 1, by omega⟩
  exact ⟨lower, hparts, by rw [partition, hparts, deal]⟩

/-- The member dealt out first goes to the first part, and after it the last part comes first. -/
theorem exists_deal_cons (lower : Nat) (item : α) (rest : List α) :
    ∃ earlier last, deal (lower + 1) rest = earlier ++ [last] ∧
      deal (lower + 1) (item :: rest) = (item :: last) :: earlier := by
  refine ⟨(List.range lower).map fun first => everyNth (lower + 1) first rest,
    everyNth (lower + 1) lower rest, ?_, ?_⟩
  · rw [deal, List.range_succ, List.map_append, List.map_singleton]
  · rw [deal, List.range_succ_eq_map, List.map_cons, List.map_map]
    rfl

/-- What holds of parts that are all empty, and still holds when the last part is put first with one
more member in front, holds of what is dealt out. -/
theorem deal_induction {motive : List (List α) → List α → Prop}
    (hempty : motive (List.replicate (lower + 1) []) [])
    (hnext : ∀ item rest earlier last, motive (earlier ++ [last]) rest →
      motive ((item :: last) :: earlier) (item :: rest))
    (items : List α) : motive (deal (lower + 1) items) items := by
  induction items with
  | nil =>
      have hnil : deal (lower + 1) ([] : List α) = List.replicate (lower + 1) [] := by
        simp only [deal, everyNth_nil, List.map_const', List.length_range]
      rw [hnil]
      exact hempty
  | cons item rest ih =>
      obtain ⟨earlier, last, hrest, hmore⟩ := exists_deal_cons lower item rest
      rw [hmore]
      exact hnext item rest earlier last (hrest ▸ ih)

theorem flatten_deal_perm (items : List α) : (deal (lower + 1) items).flatten.Perm items := by
  refine deal_induction (motive := fun parts items => parts.flatten.Perm items) ?_ ?_ items
  · rw [List.flatten_replicate_nil]
  · intro item rest earlier last hperm
    rw [List.flatten_append, List.flatten_singleton] at hperm
    exact (List.perm_append_comm.trans hperm).cons item

theorem flatten_partition_perm (items : List α) (count : Int) :
    (partition items count).flatten.Perm items := by
  obtain ⟨lower, -, hdeal⟩ := exists_partition_eq items count
  rw [hdeal, List.flatten_filter_not_isEmpty]
  exact flatten_deal_perm items

theorem sublist_of_mem_deal (items : List α) :
    ∀ part ∈ deal (lower + 1) items, part.Sublist items := by
  refine deal_induction (motive := fun parts items => ∀ part ∈ parts, part.Sublist items)
    ?_ ?_ items
  · intro part hpart
    rw [List.eq_of_mem_replicate hpart]
  · intro item rest earlier last hsublist part hpart
    rcases List.mem_cons.mp hpart with rfl | hpart
    · have hlast := hsublist last (List.mem_append_right earlier (List.mem_singleton_self last))
      exact hlast.cons_cons item
    · exact (hsublist part (List.mem_append_left [last] hpart)).cons item

/-- No list is shorter than a later one, or longer than it by more than one member. -/
def Balanced (parts : List (List α)) : Prop :=
  parts.Pairwise fun earlier later =>
    later.length ≤ earlier.length ∧ earlier.length ≤ later.length + 1

theorem balanced_deal (items : List α) : Balanced (deal (lower + 1) items) := by
  refine deal_induction (motive := fun parts _ => Balanced parts) ?_ ?_ items
  · exact List.pairwise_replicate.mpr (.inr ⟨le_rfl, Nat.le_succ _⟩)
  · intro item rest earlier last hbalanced
    obtain ⟨hearlier, -, hlast⟩ := List.pairwise_append.mp hbalanced
    refine List.pairwise_cons.mpr ⟨fun part hpart => ?_, hearlier⟩
    obtain ⟨hle, hlt⟩ := hlast part hpart last (List.mem_singleton_self last)
    exact ⟨hlt, Nat.succ_le_succ hle⟩

/-- Several lists read in turn: the first one gives its first member and goes behind the others, and
one that has no member left drops out. -/
def inTurn : List (List α) → List α
  | [] => []
  | [] :: waiting => inTurn waiting
  | (item :: left) :: waiting => item :: inTurn (waiting ++ [left])
termination_by parts => parts.flatten.length + parts.length
decreasing_by
  · simp only [List.flatten_cons, List.nil_append, List.length_cons]
    omega
  · simp only [List.flatten_append, List.flatten_cons, List.flatten_nil, List.length_append,
      List.length_cons, List.length_nil]
    omega

/-- An empty list among those that are read changes nothing, wherever it stands. -/
theorem inTurn_empty_part (before after : List (List α)) :
    inTurn (before ++ [] :: after) = inTurn (before ++ after) := by
  -- The lists that are read turn over, so the induction is on the reading and not on `before`.
  induction hparts : before ++ after using inTurn.induct generalizing before after with
  | case1 =>
      obtain ⟨rfl, rfl⟩ := List.append_eq_nil_iff.mp hparts
      simp only [List.nil_append, inTurn]
  | case2 waiting ih =>
      rcases List.append_eq_cons_iff.mp hparts with ⟨rfl, rfl⟩ | ⟨others, rfl, rfl⟩
      · rw [List.nil_append, inTurn]
      · rw [List.cons_append, inTurn, inTurn]
        exact ih others after rfl
  | case3 item left waiting ih =>
      rcases List.append_eq_cons_iff.mp hparts with ⟨rfl, rfl⟩ | ⟨others, rfl, rfl⟩
      · rw [List.nil_append, inTurn]
      · have hlater := ih others (after ++ [left]) (List.append_assoc ..).symm
        rw [List.cons_append, inTurn, inTurn, ← hlater, List.append_assoc, List.cons_append]

theorem inTurn_filter_not_isEmpty (parts : List (List α)) :
    inTurn (parts.filter (!·.isEmpty)) = inTurn parts := by
  fun_induction inTurn parts with
  | case1 => rw [List.filter_nil, inTurn]
  | case2 waiting ih => exact ih
  | case3 item left waiting ih =>
      rw [List.filter_cons_of_pos rfl, inTurn, ← ih, List.filter_append]
      cases left with
      | nil => exact congrArg (item :: ·) (inTurn_empty_part (waiting.filter (!·.isEmpty)) [])
      | cons => rfl

theorem inTurn_deal (items : List α) : inTurn (deal (lower + 1) items) = items := by
  refine deal_induction (motive := fun parts items => inTurn parts = items) ?_ ?_ items
  · induction lower + 1 with
    | zero => rw [List.replicate_zero, inTurn]
    | succ count ih => rw [List.replicate_succ, inTurn, ih]
  · intro item rest earlier last hread
    rw [inTurn, hread]

theorem countP_lt_range (bound places : Nat) :
    (List.range places).countP (· < bound) = min bound places := by
  induction places with
  | zero => rw [List.range_zero, List.countP_nil, Nat.min_zero]
  | succ places ih =>
      rw [List.range_succ, List.countP_append, ih, List.countP_singleton]
      by_cases hplace : places < bound
      · rw [if_pos (by simpa using hplace)]
        omega
      · rw [if_neg (by simpa using hplace)]
        omega

theorem length_partition (items : List α) (count : Int) :
    (partition items count).length = min items.length (max 1 count.toNat) := by
  obtain ⟨lower, hparts, hdeal⟩ := exists_partition_eq items count
  have hfilled : ((!·.isEmpty) ∘ fun first => everyNth (lower + 1) first items) =
      fun first => decide (first < items.length) := by
    funext first
    rw [Function.comp_apply, isEmpty_everyNth, ← decide_not, decide_eq_decide, Nat.not_le]
  rw [hparts, hdeal, ← List.countP_eq_length_filter, deal, List.countP_map, hfilled,
    countP_lt_range]

/-- The parts of a list are as many as its members, but no more than `count`, or than one if `count`
is less. None of them is empty, none is longer than an earlier one, no two lengths differ by more
than one, and each part keeps the order of the list. All parts together have the members of the
list, each as often as the list has it, and read in turn they give it back. -/
theorem partition_exact (items : List α) (count : Int) :
    ((partition items count).length : Int) = min (items.length : Int) (max 1 count) ∧
    [] ∉ partition items count ∧
    Balanced (partition items count) ∧
    (∀ part ∈ partition items count, part.Sublist items) ∧
    (partition items count).flatten.Perm items ∧
    inTurn (partition items count) = items := by
  obtain ⟨lower, -, hdeal⟩ := exists_partition_eq items count
  refine ⟨?_, ?_, ?_, ?_, flatten_partition_perm items count, ?_⟩
  · rw [length_partition]
    omega
  · simp [hdeal]
  · rw [hdeal]
    exact (balanced_deal items).filter _
  · intro part hpart
    rw [hdeal] at hpart
    exact sublist_of_mem_deal items part (List.mem_of_mem_filter hpart)
  · rw [hdeal, inTurn_filter_not_isEmpty, inTurn_deal]

/-- Places beyond the members get nothing, and a number below one counts as one. -/
example : partition [1, 2, 3, 4, 5] 2 = [[1, 3, 5], [2, 4]] ∧
    partition [1, 2] 4 = [[1], [2]] ∧ partition [1, 2] (-4) = [[1, 2]] := by decide

end PageLoom.Site
