import Mathlib.Tactic.Common

/-!
# Runs of actions

An action changes a state and ends with a result or an error; what it has done before an error stays
done. The rules of this module say what the run of a composed action is, given the runs of its
parts.
-/

namespace PageLoom

variable {ε σ α β : Type}

/-- Runs an action from some state. -/
def runFrom (action : ExceptT ε (StateM σ) α) (state : σ) : Except ε α × σ := action.run.run state

/-- Goes on after a run if it ended with a result. -/
def andThen (next : α → σ → Except ε β × σ) : Except ε α × σ → Except ε β × σ
  | (.ok value, state) => next value state
  | (.error error, state) => (.error error, state)

@[simp]
theorem andThen_ok (next : α → σ → Except ε β × σ) (value : α) (state : σ) :
    andThen next (.ok value, state) = next value state := rfl

@[simp]
theorem andThen_error (next : α → σ → Except ε β × σ) (error : ε) (state : σ) :
    andThen next (.error error, state) = (.error error, state) := rfl

/-- Two runs in a row end with a result if both do. -/
theorem andThen_eq_ok {next : α → σ → Except ε β × σ} {run : Except ε α × σ} {value : β}
    {after : σ} :
    andThen next run = (.ok value, after) ↔
      ∃ first between, run = (.ok first, between) ∧ next first between = (.ok value, after) := by
  obtain ⟨result, between⟩ := run
  cases result with
  | error error =>
      rw [andThen_error]
      constructor
      · intro hrun
        cases hrun
      · rintro ⟨first, between, hfirst, -⟩
        cases hfirst
  | ok first =>
      rw [andThen_ok]
      constructor
      · intro hnext
        exact ⟨first, between, rfl, hnext⟩
      · rintro ⟨other, later, hfirst, hnext⟩
        cases hfirst
        exact hnext

/-- What holds after one run, and is kept by going on, holds after both. -/
theorem andThen_invariant {I : σ → Prop} {next : α → σ → Except ε β × σ} {run : Except ε α × σ}
    (hrun : I run.2) (hnext : ∀ value state, run = (.ok value, state) → I (next value state).2) :
    I (andThen next run).2 := by
  obtain ⟨result, between⟩ := run
  cases result with
  | error error => exact hrun
  | ok value => exact hnext value between rfl

theorem runFrom_pure (value : α) (state : σ) :
    runFrom (pure value : ExceptT ε (StateM σ) α) state = (.ok value, state) := rfl

theorem runFrom_throw (error : ε) (state : σ) :
    runFrom (throw error : ExceptT ε (StateM σ) α) state = (.error error, state) := rfl

theorem runFrom_bind (action : ExceptT ε (StateM σ) α) (next : α → ExceptT ε (StateM σ) β)
    (state : σ) :
    runFrom (action >>= next) state =
      andThen (fun value => runFrom (next value)) (runFrom action state) := by
  simp only [runFrom, bind, ExceptT.bind, ExceptT.run, ExceptT.mk, StateT.bind, StateT.run]
  cases action state with
  | mk result after => cases result <;> rfl

theorem runFrom_lift (value : Except ε α) (state : σ) :
    runFrom (liftM value : ExceptT ε (StateM σ) α) state = (value, state) := by
  cases value <;> rfl

theorem runFrom_get (state : σ) :
    runFrom (get : ExceptT ε (StateM σ) σ) state = (.ok state, state) := rfl

theorem runFrom_set (state other : σ) :
    runFrom (set other : ExceptT ε (StateM σ) PUnit) state = (.ok ⟨⟩, other) := rfl

theorem runFrom_modifyGet (change : σ → α × σ) (state : σ) :
    runFrom (modifyGet change : ExceptT ε (StateM σ) α) state =
      (.ok (change state).1, (change state).2) := rfl

/-! ## What an action preserves -/

section Preserving

variable {I : σ → Prop} {action : ExceptT ε (StateM σ) α}

/-- What holds when an action is begun holds after it, however it ends. -/
def Preserves (I : σ → Prop) (action : ExceptT ε (StateM σ) α) : Prop :=
  ∀ state, I state → I (runFrom action state).2

theorem preserves_pure (value : α) : Preserves I (pure value : ExceptT ε (StateM σ) α) :=
  fun _ hstate => hstate

theorem preserves_throw (error : ε) : Preserves I (throw error : ExceptT ε (StateM σ) α) :=
  fun _ hstate => hstate

theorem preserves_get : Preserves I (get : ExceptT ε (StateM σ) σ) := fun _ hstate => hstate

theorem preserves_lift (value : Except ε α) :
    Preserves I (liftM value : ExceptT ε (StateM σ) α) := by
  intro state hstate
  rw [runFrom_lift]
  exact hstate

theorem preserves_modifyGet {change : σ → α × σ} (hchange : ∀ state, I state → I (change state).2) :
    Preserves I (modifyGet change : ExceptT ε (StateM σ) α) := hchange

theorem Preserves.bind {next : α → ExceptT ε (StateM σ) β} (haction : Preserves I action)
    (hnext : ∀ value, Preserves I (next value)) : Preserves I (action >>= next) := by
  intro state hstate
  rw [runFrom_bind]
  apply andThen_invariant (haction state hstate)
  intro value between hrun
  apply hnext value between
  simpa only [hrun] using haction state hstate

/-- An action that depends on the state it is begun in preserves what it preserves from there. -/
theorem preserves_get_bind {next : σ → ExceptT ε (StateM σ) β}
    (hnext : ∀ state, I state → I (runFrom (next state) state).2) :
    Preserves I (get >>= next) := by
  intro state hstate
  rw [runFrom_bind, runFrom_get, andThen_ok]
  exact hnext state hstate

theorem preserves_forM {items : List β} {step : β → ExceptT ε (StateM σ) PUnit}
    (hstep : ∀ item, Preserves I (step item)) : Preserves I (items.forM step) := by
  induction items with
  | nil => exact preserves_pure _
  | cons item rest ih =>
      rw [List.forM_eq_forM, List.forM_cons]
      exact (hstep item).bind fun _ => ih

theorem preserves_mapM {items : List β} {step : β → ExceptT ε (StateM σ) α}
    (hstep : ∀ item, Preserves I (step item)) : Preserves I (items.mapM step) := by
  induction items with
  | nil => exact preserves_pure _
  | cons item rest ih =>
      rw [List.mapM_cons]
      exact (hstep item).bind fun _ => ih.bind fun _ => preserves_pure _

end Preserving

/-- Whatever state an action is run from, and however it ends, what is seen of the state stays. -/
def Keeps {γ : Type} (seen : σ → γ) (action : ExceptT ε (StateM σ) α) : Prop :=
  ∀ state, seen (runFrom action state).2 = seen state

/-- What is seen of the state stays if each of the things that can be seen is preserved. -/
theorem keeps_of_preserves {γ : Type} {seen : σ → γ} {action : ExceptT ε (StateM σ) α}
    (haction : ∀ value, Preserves (fun state => seen state = value) action) : Keeps seen action :=
  fun state => haction _ state rfl

/-! ## What an action ends with -/

section Ends

variable {answers : α → Prop} {fails : ε → Prop}

/-- A result that is a value or an error of some kind. -/
def Meets (answers : α → Prop) (fails : ε → Prop) : Except ε α → Prop
  | .ok value => answers value
  | .error error => fails error

theorem Meets.bind {last : β → Prop} {first : Except ε α} {next : α → Except ε β}
    (hfirst : Meets answers fails first)
    (hnext : ∀ value, answers value → Meets last fails (next value)) :
    Meets last fails (first >>= next) := by
  cases first with
  | error error => exact hfirst
  | ok value => exact hnext value hfirst

theorem Meets.imp {other : α → Prop} {weaker : ε → Prop} {result : Except ε α}
    (hresult : Meets answers fails result) (hanswers : ∀ value, answers value → other value)
    (hfails : ∀ error, fails error → weaker error) : Meets other weaker result := by
  cases result with
  | error error => exact hfails error hresult
  | ok value => exact hanswers value hresult

/-- An action that ends with a value or an error of some kind, whatever state it is run from. -/
def Ends (answers : α → Prop) (fails : ε → Prop) (action : ExceptT ε (StateM σ) α) : Prop :=
  ∀ state, Meets answers fails (runFrom action state).1

theorem ends_pure {value : α} (hvalue : answers value) :
    Ends answers fails (pure value : ExceptT ε (StateM σ) α) := fun _ => hvalue

theorem ends_throw {error : ε} (herror : fails error) :
    Ends answers fails (throw error : ExceptT ε (StateM σ) α) := fun _ => herror

theorem ends_get : Ends (fun _ => True) fails (get : ExceptT ε (StateM σ) σ) := fun _ => trivial

theorem ends_modifyGet (change : σ → α × σ) :
    Ends (fun _ => True) fails (modifyGet change : ExceptT ε (StateM σ) α) := fun _ => trivial

theorem ends_trivial (action : ExceptT ε (StateM σ) α) :
    Ends (fun _ => True) (fun _ => True) action := by
  intro state
  cases (runFrom action state).1 <;> exact trivial

theorem Ends.bind {last : β → Prop} {action : ExceptT ε (StateM σ) α}
    {next : α → ExceptT ε (StateM σ) β} (haction : Ends answers fails action)
    (hnext : ∀ value, answers value → Ends last fails (next value)) :
    Ends last fails (action >>= next) := by
  intro state
  have hfirst := haction state
  rw [runFrom_bind]
  cases hrun : runFrom action state with
  | mk result between =>
      rw [hrun] at hfirst
      cases result with
      | ok value => exact hnext value hfirst between
      | error error => exact hfirst

theorem Ends.weaken {weaker : ε → Prop} {action : ExceptT ε (StateM σ) α}
    (haction : Ends answers fails action) (hfails : ∀ error, fails error → weaker error) :
    Ends answers weaker action := by
  intro state
  have hresult := haction state
  cases hrun : (runFrom action state).1 with
  | ok value => rwa [hrun] at hresult
  | error error =>
      rw [hrun] at hresult
      exact hfails error hresult

theorem ends_mapM {items : List β} {step : β → ExceptT ε (StateM σ) α}
    (hstep : ∀ item, Ends (fun _ => True) fails (step item)) :
    Ends (fun _ => True) fails (items.mapM step) := by
  induction items with
  | nil => exact ends_pure trivial
  | cons item rest ih =>
      rw [List.mapM_cons]
      exact (hstep item).bind fun _ _ => ih.bind fun _ _ => ends_pure trivial

theorem Ends.of_ok {action : ExceptT ε (StateM σ) α} {state after : σ} {value : α}
    (haction : Ends answers fails action) (hrun : runFrom action state = (.ok value, after)) :
    answers value := by
  have hresult := haction state
  rwa [hrun] at hresult

theorem Ends.of_error {action : ExceptT ε (StateM σ) α} {state after : σ} {error : ε}
    (haction : Ends answers fails action) (hrun : runFrom action state = (.error error, after)) :
    fails error := by
  have hresult := haction state
  rwa [hrun] at hresult

end Ends

/-! ## What a failed action leaves -/

section Atomic

/-- An action that leaves the state as it was if it fails. -/
def Atomic (action : ExceptT ε (StateM σ) α) : Prop :=
  ∀ state error after, runFrom action state = (.error error, after) → after = state

theorem atomic_throw (error : ε) : Atomic (throw error : ExceptT ε (StateM σ) α) := by
  intro state failure after hrun
  exact (Prod.mk.inj hrun).2.symm

/-- What begins with an action that changes nothing is atomic if the rest is. -/
theorem Atomic.bind_of_keeps {action : ExceptT ε (StateM σ) α}
    {next : α → ExceptT ε (StateM σ) β} (hkeeps : Keeps id action)
    (hnext : ∀ value, Atomic (next value)) : Atomic (action >>= next) := by
  intro state error after hrun
  have hsame : (runFrom action state).2 = state := hkeeps state
  rw [runFrom_bind] at hrun
  cases hfirst : runFrom action state with
  | mk result between =>
      rw [hfirst] at hrun hsame
      cases result with
      | ok value => exact (hnext value between error after hrun).trans hsame
      | error failure => exact (Prod.mk.inj hrun).2.symm.trans hsame

/-- If an action fails that ends with an atomic one, its state is the one that it came to before. -/
theorem eq_of_bind_error {action : ExceptT ε (StateM σ) α} {next : α → ExceptT ε (StateM σ) β}
    {state after : σ} {error : ε} (hnext : ∀ value, Atomic (next value))
    (hrun : runFrom (action >>= next) state = (.error error, after)) :
    after = (runFrom action state).2 := by
  rw [runFrom_bind] at hrun
  cases hfirst : runFrom action state with
  | mk result between =>
      rw [hfirst] at hrun
      cases result with
      | ok value => exact hnext value between error after hrun
      | error failure => exact (Prod.mk.inj hrun).2.symm

end Atomic

/-! ## Two runs side by side -/

section Alike

variable {γ δ τ : Type} {R : α → γ → Prop} {S : β → δ → Prop} {Q : σ → τ → Prop}

/-- Two results are alike if both are values that belong together, or both are the same error. -/
inductive Alike (R : α → γ → Prop) : Except ε α → Except ε γ → Prop
  | ok {value other} (hvalues : R value other) : Alike R (.ok value) (.ok other)
  | error {error} : Alike R (.error error) (.error error)

theorem Alike.error_iff {result : Except ε α} {other : Except ε γ} (halike : Alike R result other)
    (error : ε) : result = .error error ↔ other = .error error := by
  cases halike with
  | ok hvalues => exact ⟨fun hresult => (by cases hresult), fun hother => by cases hother⟩
  | error => rw [Except.error.injEq, Except.error.injEq]

theorem Alike.exists_of_ok {result : Except ε α} {other : Except ε γ}
    (halike : Alike R result other) {value : α} (hvalue : result = .ok value) :
    ∃ partner, other = .ok partner ∧ R value partner := by
  cases halike with
  | ok hvalues =>
      cases hvalue
      exact ⟨_, rfl, hvalues⟩
  | error => cases hvalue

theorem Alike.map {result : Except ε α} {other : Except ε γ} (halike : Alike R result other)
    {f : α → β} {g : γ → δ} (hmap : ∀ value partner, R value partner → S (f value) (g partner)) :
    Alike S (result.map f) (other.map g) := by
  cases halike with
  | ok hvalues => exact .ok (hmap _ _ hvalues)
  | error => exact .error

theorem Alike.mapError {result : Except ε α} {other : Except ε γ} {ζ : Type}
    (halike : Alike R result other) {f : ε → ζ} :
    Alike R (result.mapError f) (other.mapError f) := by
  cases halike with
  | ok hvalues => exact .ok hvalues
  | error => exact .error

theorem Alike.map_right {result : Except ε α} {other : Except ε γ} {T : α → δ → Prop}
    (halike : Alike R result other) {g : γ → δ}
    (hmap : ∀ value partner, R value partner → T value (g partner)) :
    Alike T result (other.map g) := by
  cases halike with
  | ok hvalues => exact .ok (hmap _ _ hvalues)
  | error => exact .error

/-- Runs with results that are alike and with states that belong together. -/
structure SideBySide (R : α → γ → Prop) (Q : σ → τ → Prop) (run : Except ε α × σ)
    (other : Except ε γ × τ) : Prop where
  result : Alike R run.1 other.1
  state : Q run.2 other.2

theorem sideBySide_ok {value : α} {partner : γ} {state : σ} {other : τ} (hvalues : R value partner)
    (hstates : Q state other) :
    SideBySide R Q ((.ok value : Except ε α), state) (.ok partner, other) :=
  ⟨.ok hvalues, hstates⟩

theorem sideBySide_error {error : ε} {state : σ} {other : τ} (hstates : Q state other) :
    SideBySide R Q ((.error error : Except ε α), state) (.error error, other) :=
  ⟨.error, hstates⟩

theorem SideBySide.imp {T : α → γ → Prop} {run : Except ε α × σ} {other : Except ε γ × τ}
    (hrun : SideBySide R Q run other) (himp : ∀ value partner, R value partner → T value partner) :
    SideBySide T Q run other := by
  obtain ⟨result, state⟩ := run
  obtain ⟨otherResult, otherState⟩ := other
  obtain ⟨hresult, hstates⟩ := hrun
  cases hresult with
  | ok hvalues => exact sideBySide_ok (himp _ _ hvalues) hstates
  | error => exact sideBySide_error hstates

theorem SideBySide.weaken {P : σ → τ → Prop} {run : Except ε α × σ} {other : Except ε γ × τ}
    (hrun : SideBySide R Q run other) (hstates : ∀ state partner, Q state partner → P state partner) :
    SideBySide R P run other := ⟨hrun.result, hstates _ _ hrun.state⟩

/-- Going on side by side. -/
theorem SideBySide.andThen {run : Except ε α × σ} {other : Except ε γ × τ}
    {next : α → σ → Except ε β × σ} {otherNext : γ → τ → Except ε δ × τ}
    (hrun : SideBySide R Q run other)
    (hnext : ∀ value partner state otherState, R value partner → Q state otherState →
      SideBySide S Q (next value state) (otherNext partner otherState)) :
    SideBySide S Q (andThen next run) (andThen otherNext other) := by
  obtain ⟨result, state⟩ := run
  obtain ⟨otherResult, otherState⟩ := other
  obtain ⟨hresult, hstates⟩ := hrun
  cases hresult with
  | ok hvalues => exact hnext _ _ _ _ hvalues hstates
  | error => exact sideBySide_error hstates

end Alike

/-! ## Parallel actions -/

section Parallel

variable {τ : Type} {Q : σ → τ → Prop}

theorem alike_eq_iff {result other : Except ε α} : Alike Eq result other ↔ result = other := by
  constructor
  · intro halike
    cases halike with
    | ok hvalues => exact congrArg Except.ok hvalues
    | error => rfl
  · rintro rfl
    cases result with
    | error error => exact .error
    | ok value => exact .ok rfl

/-- From states that belong together, two actions end with the same result, and with states that
belong together. -/
def Parallel (Q : σ → τ → Prop) (action : ExceptT ε (StateM σ) α)
    (other : ExceptT ε (StateM τ) α) : Prop :=
  ∀ state partner, Q state partner → SideBySide Eq Q (runFrom action state) (runFrom other partner)

theorem parallel_pure (value : α) :
    Parallel Q (pure value : ExceptT ε (StateM σ) α) (pure value) :=
  fun _ _ hstates => sideBySide_ok rfl hstates

theorem parallel_throw (error : ε) :
    Parallel Q (throw error : ExceptT ε (StateM σ) α) (throw error) :=
  fun _ _ hstates => sideBySide_error hstates

theorem parallel_modifyGet {change : σ → α × σ} {otherChange : τ → α × τ}
    (hchange : ∀ state partner, Q state partner →
      (change state).1 = (otherChange partner).1 ∧ Q (change state).2 (otherChange partner).2) :
    Parallel Q (modifyGet change : ExceptT ε (StateM σ) α) (modifyGet otherChange) := by
  intro state partner hstates
  obtain ⟨hvalues, hafter⟩ := hchange state partner hstates
  exact sideBySide_ok hvalues hafter

theorem Parallel.bind {action : ExceptT ε (StateM σ) α} {other : ExceptT ε (StateM τ) α}
    {next : α → ExceptT ε (StateM σ) β} {otherNext : α → ExceptT ε (StateM τ) β}
    (haction : Parallel Q action other) (hnext : ∀ value, Parallel Q (next value) (otherNext value)) :
    Parallel Q (action >>= next) (other >>= otherNext) := by
  intro state partner hstates
  rw [runFrom_bind, runFrom_bind]
  apply (haction state partner hstates).andThen
  rintro value _ between otherBetween rfl hbetween
  exact hnext value between otherBetween hbetween

/-- Actions that depend on the states they are begun in are parallel if they are so from there. -/
theorem parallel_get_bind {next : σ → ExceptT ε (StateM σ) β}
    {otherNext : τ → ExceptT ε (StateM τ) β}
    (hnext : ∀ state partner, Q state partner →
      SideBySide Eq Q (runFrom (next state) state) (runFrom (otherNext partner) partner)) :
    Parallel Q (get >>= next) (get >>= otherNext) := by
  intro state partner hstates
  rw [runFrom_bind, runFrom_bind, runFrom_get, runFrom_get, andThen_ok, andThen_ok]
  exact hnext state partner hstates

theorem parallel_mapM {items : List β} {step : β → ExceptT ε (StateM σ) α}
    {otherStep : β → ExceptT ε (StateM τ) α} (hstep : ∀ item, Parallel Q (step item) (otherStep item)) :
    Parallel Q (items.mapM step) (items.mapM otherStep) := by
  induction items with
  | nil => exact parallel_pure _
  | cons item rest ih =>
      rw [List.mapM_cons, List.mapM_cons]
      apply (hstep item).bind
      intro value
      apply ih.bind
      exact fun values => parallel_pure _

end Parallel

/-- Two computations in a row give a result if both do. -/
theorem except_bind_eq_ok {first : Except ε α} {next : α → Except ε β} {value : β} :
    (first >>= next) = .ok value ↔ ∃ between, first = .ok between ∧ next between = .ok value := by
  cases first with
  | error error =>
      constructor
      · intro hvalue
        cases hvalue
      · rintro ⟨between, hfirst, -⟩
        cases hfirst
  | ok between =>
      constructor
      · exact fun hvalue => ⟨between, rfl, hvalue⟩
      · rintro ⟨other, hfirst, hvalue⟩
        cases hfirst
        exact hvalue

/-- Two computations in a row fail if the first does, or the second after it. -/
theorem except_bind_eq_error {first : Except ε α} {next : α → Except ε β} {failure : ε} :
    (first >>= next) = .error failure ↔
      first = .error failure ∨ ∃ between, first = .ok between ∧ next between = .error failure := by
  cases first with
  | error error =>
      constructor
      · intro hfailure
        cases hfailure
        exact Or.inl rfl
      · rintro (hfirst | ⟨between, hfirst, -⟩)
        · cases hfirst
          rfl
        · cases hfirst
  | ok between =>
      constructor
      · exact fun hfailure => Or.inr ⟨between, rfl, hfailure⟩
      · rintro (hfirst | ⟨other, hfirst, hfailure⟩)
        · cases hfirst
        · cases hfirst
          exact hfailure

section Wrapped

variable {ζ : Type} {first : Except ε α} {wrap : ε → ζ}

theorem except_mapError_eq_ok {value : α} :
    first.mapError wrap = .ok value ↔ first = .ok value := by
  cases first <;> simp [Except.mapError]

theorem except_mapError_eq_error {failure : ζ} :
    first.mapError wrap = .error failure ↔ ∃ error, first = .error error ∧ wrap error = failure := by
  cases first <;> simp [Except.mapError]

end Wrapped

end PageLoom
