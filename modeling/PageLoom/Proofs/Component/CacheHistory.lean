import Mathlib.Data.List.Induction
import PageLoom.Proofs.Component.Soundness
import PageLoom.Proofs.Table

/-!
# Histories of a fragment cache

A cache answers as if it had a log of all that was put into it since it was cleared: the fragment of
a key and the names that are missing in it are those of the first put in the log, whatever later
puts bring. The counters tell the look-ups since then apart by whether such a put came before them.
-/

namespace PageLoom.Component.Cache

/-- What is asked of a cache. -/
inductive Operation where
  | get (key : Text)
  | put (key fragment : Text) (missing : List Text)
  | missing (key : Text)
  | clear

def afterOperation (cache : Cache) : Operation → Cache
  | .get key => (cache.get key).2
  | .put key fragment missing => (cache.put key fragment missing).2
  | .missing _ => cache
  | .clear => empty

/-- What some operations make of an empty cache. -/
def afterOperations (operations : List Operation) : Cache := operations.foldl afterOperation empty

def sinceClear (operations : List Operation) : List Operation :=
  operations.foldl (fun since operation =>
    match operation with
    | .clear => []
    | operation => since ++ [operation]) []

def Operation.entry? : Operation → Option (Text × Text × List Text)
  | .put key fragment names => some (key, fragment, names)
  | _ => none

/-- The log of all puts, those of a key that is taken included. -/
def puts (operations : List Operation) : List (Text × Text × List Text) :=
  operations.filterMap Operation.entry?

/-- The look-ups among some operations, each with all that was done before it. -/
def lookUpsAfter (before : List Operation) : List Operation → List (List Operation × Text)
  | [] => []
  | .get key :: rest => (before, key) :: lookUpsAfter (before ++ [.get key]) rest
  | operation :: rest => lookUpsAfter (before ++ [operation]) rest

/-- Whether the key of a look-up was put before. -/
def finds (lookUp : List Operation × Text) : Bool := ((puts lookUp.1).lookup lookUp.2).isSome

/-- Adds an entry to a table unless its key is taken. -/
def addNew {υ : Type} (table : List (Text × υ)) (key : Text) (value : υ) : List (Text × υ) :=
  if (table.lookup key).isSome then table else table ++ [(key, value)]

/-- One part of every entry under its key, such as the fragment. -/
def column {υ : Type} (part : Text × List Text → υ) (entries : List (Text × Text × List Text)) :
    List (Text × υ) :=
  entries.map fun entry => (entry.1, part entry.2)

section Single

variable {υ : Type} (cache : Cache) (key fragment : Text) (missing : List Text)

theorem entries_get : (cache.get key).2.entries = cache.entries := by
  unfold get
  cases cache.find? key <;> rfl

theorem get_fst : (cache.get key).1 = (cache.find? key).map Prod.fst := by
  unfold get
  cases cache.find? key <;> rfl

theorem counters_get :
    (cache.get key).2.hits = cache.hits + (if (cache.find? key).isSome then 1 else 0) ∧
    (cache.get key).2.misses = cache.misses + (if (cache.find? key).isSome then 0 else 1) := by
  unfold get
  cases cache.find? key <;> exact ⟨rfl, rfl⟩

theorem counters_put :
    (cache.put key fragment missing).2.hits = cache.hits ∧
    (cache.put key fragment missing).2.misses = cache.misses := by
  unfold put
  cases cache.find? key <;> exact ⟨rfl, rfl⟩

theorem missing_eq : cache.missing key = ((cache.find? key).map Prod.snd).getD [] := by
  unfold Cache.missing
  cases cache.find? key <;> rfl

/-- A put answers with what is stored from then on. -/
theorem put_fst :
    some (cache.put key fragment missing).1 =
      ((cache.put key fragment missing).2.find? key).map Prod.fst := by
  cases hfound : cache.find? key with
  | none => rw [put_fst_of_absent hfound, find?_put, if_pos ⟨rfl, hfound⟩]; rfl
  | some entry =>
      rw [put_fst_of_found hfound, find?_put, if_neg (by simp [hfound]), hfound]
      rfl

theorem lookup_column (part : Text × List Text → υ) (entries : List (Text × Text × List Text)) :
    (column part entries).lookup key = (entries.lookup key).map part := by
  induction entries with
  | nil => rfl
  | cons entry rest ih =>
      rw [column, List.map_cons, List.lookup_cons, List.lookup_cons]
      split
      · rfl
      · exact ih

/-- A put adds to every column on its own. -/
theorem column_put (part : Text × List Text → υ) :
    column part (cache.put key fragment missing).2.entries =
      addNew (column part cache.entries) key (part (fragment, missing)) := by
  have hlookup : (column part cache.entries).lookup key = (cache.find? key).map part :=
    lookup_column key part cache.entries
  rw [addNew, hlookup, put]
  cases cache.find? key with
  | none => simp [column]
  | some entry => rfl

end Single

/-! ## Any history -/

section History

variable (operations : List Operation) (operation : Operation)

theorem afterOperations_concat :
    afterOperations (operations ++ [operation]) =
      afterOperation (afterOperations operations) operation :=
  List.foldl_concat ..

theorem sinceClear_concat (hstays : operation ≠ .clear) :
    sinceClear (operations ++ [operation]) = sinceClear operations ++ [operation] := by
  cases operation with
  | clear => exact absurd rfl hstays
  | get | put | missing => exact List.foldl_concat ..

theorem sinceClear_clear : sinceClear (operations ++ [.clear]) = [] := List.foldl_concat ..

theorem puts_concat :
    puts (operations ++ [operation]) = puts operations ++ operation.entry?.toList := by
  rw [puts, List.filterMap_append]
  cases operation <;> rfl

theorem lookUpsAfter_concat (before : List Operation) :
    lookUpsAfter before (operations ++ [operation]) =
      lookUpsAfter before operations ++
        match operation with
        | .get key => [(before ++ operations, key)]
        | _ => [] := by
  induction operations generalizing before with
  | nil => cases operation <;> simp [lookUpsAfter]
  | cons first rest ih => cases first <;> simp [lookUpsAfter, ih]

/-- The log grows by the put that comes last, and begins anew after a clear. -/
theorem log_concat :
    puts (sinceClear (operations ++ [operation])) =
      match operation with
      | .clear => []
      | operation => puts (sinceClear operations) ++ operation.entry?.toList := by
  by_cases hclear : operation = .clear
  · rw [hclear, sinceClear_clear]
    rfl
  · rw [sinceClear_concat operations operation hclear, puts_concat]
    cases operation with
    | clear => exact absurd rfl hclear
    | get | put | missing => rfl

/-- What a cache holds of a key is what was put first. -/
theorem find?_afterOperations (key : Text) :
    (afterOperations operations).find? key = (puts (sinceClear operations)).lookup key := by
  induction operations using List.reverseRecOn with
  | nil => rfl
  | append_singleton operations operation ih =>
      rw [afterOperations_concat, log_concat]
      cases operation with
      | get other =>
          rw [afterOperation, find?, entries_get, ← find?, ih]
          simp [Operation.entry?]
      | put other fragment missing =>
          rw [afterOperation, find?_put]
          simp only [Operation.entry?, Option.toList_some, List.lookup_append, ← ih,
            Table.lookup_cons, List.lookup_nil]
          by_cases hkey : key = other
          · subst hkey
            cases (afterOperations operations).find? key <;> simp
          · simp [hkey]
      | missing other =>
          rw [afterOperation, ih]
          simp [Operation.entry?]
      | clear => rfl

/-- The counters tell the look-ups apart by whether their key was put before. -/
theorem counters_afterOperations :
    (afterOperations operations).hits =
      (lookUpsAfter [] (sinceClear operations)).countP finds ∧
    (afterOperations operations).misses =
      (lookUpsAfter [] (sinceClear operations)).countP fun lookUp => !finds lookUp := by
  induction operations using List.reverseRecOn with
  | nil => exact ⟨rfl, rfl⟩
  | append_singleton operations operation ih =>
      rw [afterOperations_concat]
      cases operation with
      | get key =>
          have hcounters := counters_get (afterOperations operations) key
          rw [find?_afterOperations] at hcounters
          rw [afterOperation, hcounters.1, hcounters.2, ih.1, ih.2,
            sinceClear_concat operations (.get key) nofun, lookUpsAfter_concat]
          simp only [List.countP_append, List.countP_singleton, List.nil_append, finds]
          refine ⟨rfl, ?_⟩
          split
          · next hfound => simp [hfound]
          · next hfound => simp [hfound]
      | put key fragment missing =>
          have hcounters := counters_put (afterOperations operations) key fragment missing
          rw [afterOperation, hcounters.1, hcounters.2,
            sinceClear_concat operations (.put key fragment missing) nofun,
            lookUpsAfter_concat, List.append_nil]
          exact ih
      | missing key =>
          rw [afterOperation, sinceClear_concat operations (.missing key) nofun,
            lookUpsAfter_concat, List.append_nil]
          exact ih
      | clear => rw [sinceClear_clear]; exact ⟨rfl, rfl⟩

theorem column_afterOperations {υ : Type} (part : Text × List Text → υ) :
    column part (afterOperations operations).entries =
      (puts (sinceClear operations)).foldl
        (fun table entry => addNew table entry.1 (part entry.2)) [] := by
  induction operations using List.reverseRecOn with
  | nil => rfl
  | append_singleton operations operation ih =>
      rw [afterOperations_concat, log_concat]
      cases operation with
      | get key => rw [afterOperation, entries_get, ih]; simp [Operation.entry?]
      | put key fragment missing =>
          rw [afterOperation, column_put, ih]
          simp [Operation.entry?]
      | missing key => rw [afterOperation, ih]; simp [Operation.entry?]
      | clear => rfl

theorem mem_keys_puts {key : Text} :
    key ∈ (puts operations).map Prod.fst ↔
      ∃ fragment missing, Operation.put key fragment missing ∈ operations := by
  simp only [puts, List.mem_map, List.mem_filterMap]
  constructor
  · rintro ⟨entry, ⟨operation, hmem, hentry⟩, rfl⟩
    cases operation with
    | put key fragment missing => cases hentry; exact ⟨fragment, missing, hmem⟩
    | get | missing | clear => cases hentry
  · rintro ⟨fragment, missing, hmem⟩
    exact ⟨_, ⟨_, hmem, rfl⟩, rfl⟩

/-- After any history a cache holds the keys put since the last clear, each with the fragment and
the missing names of the first of its puts, and answers look-ups and puts with these. The hits and
misses are the look-ups since then with and without such a put before them. Fragments and missing
names are the same as in two tables that each take an entry only if its key is free there. -/
theorem keeps_firstPut (key : Text) :
    ((afterOperations operations).holds key = true ↔
      ∃ fragment missing, Operation.put key fragment missing ∈ sinceClear operations) ∧
    ((afterOperations operations).get key).1 =
      ((puts (sinceClear operations)).lookup key).map Prod.fst ∧
    (afterOperations operations).missing key =
      (((puts (sinceClear operations)).lookup key).map Prod.snd).getD [] ∧
    (∀ fragment missing, some ((afterOperations operations).put key fragment missing).1 =
      ((puts (sinceClear operations ++ [.put key fragment missing])).lookup key).map Prod.fst) ∧
    (afterOperations operations).hits =
      (lookUpsAfter [] (sinceClear operations)).countP finds ∧
    (afterOperations operations).misses =
      (lookUpsAfter [] (sinceClear operations)).countP (!finds ·) ∧
    ∀ {υ : Type} (part : Text × List Text → υ),
      column part (afterOperations operations).entries =
        (puts (sinceClear operations)).foldl
          (fun table entry => addNew table entry.1 (part entry.2)) [] := by
  refine ⟨?_, ?_, ?_, fun fragment missing => ?_, (counters_afterOperations operations).1,
    (counters_afterOperations operations).2, column_afterOperations operations⟩
  · rw [holds, find?_afterOperations, Table.lookup_isSome_iff, mem_keys_puts]
  · rw [get_fst, find?_afterOperations]
  · rw [missing_eq, find?_afterOperations]
  · have hafter := find?_afterOperations (operations ++ [.put key fragment missing]) key
    rw [sinceClear_concat operations (.put key fragment missing) nofun, afterOperations_concat]
      at hafter
    rw [← hafter]
    exact put_fst (afterOperations operations) key fragment missing

/-- An empty fragment is kept like any other, and counts as found. -/
example :
    let cache := afterOperations [.put ['k'] ['x'] [], .clear, .get ['k'], .put ['k'] [] [['m']],
      .put ['k'] ['y'] [], .get ['k']]
    cache.find? ['k'] = some ([], [['m']]) ∧ cache.hits = 1 ∧ cache.misses = 1 := by decide

end History

end PageLoom.Component.Cache
