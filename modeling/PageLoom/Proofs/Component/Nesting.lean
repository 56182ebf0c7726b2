import Mathlib.Data.List.Chain
import Mathlib.Data.List.Nodup
import Mathlib.Data.List.Perm.Subperm
import PageLoom.Proofs.Component.History

/-!
# Nesting of components

The resolver as it works without any bound on the nesting: a relation with one rule for each thing
that can happen, which also lists the invocations that are met, each with the components in progress
around it. The components in progress are always distinct and have templates. So there is an end to
every call, at a depth of no more than there are components, and the bound that the resolver is run
with is never reached. It ends with a cycle exactly if an invocation of a component is met inside
that component, and the cycle leads from there back to it.
-/

namespace PageLoom.Component

open Scan Markup

/-- A component with the props that its template is filled with. -/
abbrev Frame := Text × Props

/-- What is to be done: an invocation, the replacement of the tags of a text, or a document. -/
inductive Task where
  | resolve (name : Text) (props : Props)
  | replace (found : List (Piece Tag))
  | render (globals : Props) (document : Text)

def namesOf (frames : List Frame) : List Text := frames.map Prod.fst

/-- `Ends setting frames task progress visits result after`: inside the components of `frames`, a
task that is begun with some progress ends with a result. `visits` has the invocations that are met,
in order: each stands at the end of the components in progress around it. -/
inductive Ends (setting : Setting) :
    List Frame → Task → Progress → List (List Frame) → Except RenderError (Option Text) →
      Progress → Prop
  | guarded {frames name props progress} (hstack : name ∈ namesOf frames) :
      Ends setting frames (.resolve name props) progress [frames ++ [(name, props)]]
        (.error (.cyclic (cycleThrough (namesOf frames) name))) progress
  | hit {frames name props progress fragment missing} (hstack : name ∉ namesOf frames)
      (hfound : progress.cache.find? (cacheKey setting.library.generation name props) =
        some (fragment, missing)) :
      Ends setting frames (.resolve name props) progress [frames ++ [(name, props)]]
        (.ok (some fragment)) (progress.hit.noting setting.file missing)
  | absent {frames name props progress} (hstack : name ∉ namesOf frames)
      (hfound : progress.cache.find? (cacheKey setting.library.generation name props) = none)
      (htemplate : setting.library.template? name = none) :
      Ends setting frames (.resolve name props) progress [frames ++ [(name, props)]]
        (.ok none) (progress.missed.noting setting.file [name])
  | faulty {frames name props progress template fault} (hstack : name ∉ namesOf frames)
      (hfound : progress.cache.find? (cacheKey setting.library.generation name props) = none)
      (htemplate : setting.library.template? name = some template)
      (htext : instantiate template props = .error fault) :
      Ends setting frames (.resolve name props) progress [frames ++ [(name, props)]]
        (.error (.fault fault)) progress.missed
  | expanded {frames name props progress template text visits replaced after}
      (hstack : name ∉ namesOf frames)
      (hfound : progress.cache.find? (cacheKey setting.library.generation name props) = none)
      (htemplate : setting.library.template? name = some template)
      (htext : instantiate template props = .ok text)
      (hreplaced : Ends setting (frames ++ [(name, props)])
        (.replace (pieces (tagPattern .template) (protectComments text).1)) progress.entered
        visits (.ok (some replaced)) after) :
      Ends setting frames (.resolve name props) progress ((frames ++ [(name, props)]) :: visits)
        (finish setting name props (protectComments text).2 progress.unresolved replaced after).1
        (finish setting name props (protectComments text).2 progress.unresolved replaced after).2
  | failed {frames name props progress template text visits error after}
      (hstack : name ∉ namesOf frames)
      (hfound : progress.cache.find? (cacheKey setting.library.generation name props) = none)
      (htemplate : setting.library.template? name = some template)
      (htext : instantiate template props = .ok text)
      (hreplaced : Ends setting (frames ++ [(name, props)])
        (.replace (pieces (tagPattern .template) (protectComments text).1)) progress.entered
        visits (.error error) after) :
      Ends setting frames (.resolve name props) progress ((frames ++ [(name, props)]) :: visits)
        (.error error) after
  | nil {frames progress} :
      Ends setting frames (.replace []) progress [] (.ok (some [])) progress
  | plain {frames c rest progress visits result after}
      (hrest : Ends setting frames (.replace rest) progress visits result after) :
      Ends setting frames (.replace (.plain c :: rest)) progress visits
        (result.map (Option.map (c :: ·))) after
  | void {frames source tag rest progress visits result after}
      (hvoid : isVoidElement tag.name = true)
      (hrest : Ends setting frames (.replace rest) progress visits result after) :
      Ends setting frames (.replace (.found source tag :: rest)) progress visits
        (result.map (Option.map (source ++ ·))) after
  | tag {frames source tag rest progress visits fragment? between others result after}
      (hvoid : isVoidElement tag.name = false)
      (hfragment : Ends setting frames (.resolve tag.name (parseAttributes tag.attributes))
        progress visits (.ok fragment?) between)
      (hrest : Ends setting frames (.replace rest) between others result after) :
      Ends setting frames (.replace (.found source tag :: rest)) progress (visits ++ others)
        (result.map (Option.map (fragment?.getD source ++ ·))) after
  | tagFailed {frames source tag rest progress visits error after}
      (hvoid : isVoidElement tag.name = false)
      (hfragment : Ends setting frames (.resolve tag.name (parseAttributes tag.attributes))
        progress visits (.error error) after) :
      Ends setting frames (.replace (.found source tag :: rest)) progress visits (.error error)
        after
  | documentFaulty {frames globals document progress fault}
      (htext : instantiate document globals = .error fault) :
      Ends setting frames (.render globals document) progress [] (.error (.fault fault)) progress
  | document {frames globals document text progress visits replaced after}
      (htext : instantiate document globals = .ok text)
      (hreplaced : Ends setting frames
        (.replace (pieces (tagPattern .document) (protectComments text).1)) progress visits
        (.ok (some replaced)) after) :
      Ends setting frames (.render globals document) progress visits
        (((restoreComments (protectComments text).2 replaced).mapError .fault).map some) after
  | documentFailed {frames globals document text progress visits error after}
      (htext : instantiate document globals = .ok text)
      (hreplaced : Ends setting frames
        (.replace (pieces (tagPattern .document) (protectComments text).1)) progress visits
        (.error error) after) :
      Ends setting frames (.render globals document) progress visits (.error error) after

/-! ## Every task ends -/

section Ending

variable {setting : Setting} {frames : List Frame} {progress : Progress}

/-- Components that can be in progress together: distinct, and with templates. -/
structure Nested (library : Library) (frames : List Frame) : Prop where
  distinct : (namesOf frames).Nodup
  present : ∀ name ∈ namesOf frames, library.template? name ≠ none

theorem namesOf_concat (frames : List Frame) (name : Text) (props : Props) :
    namesOf (frames ++ [(name, props)]) = namesOf frames ++ [name] := List.map_append

theorem nested_nil (library : Library) : Nested library [] :=
  ⟨List.nodup_nil, by simp [namesOf]⟩

theorem Nested.push {library : Library} {name template : Text} (hnested : Nested library frames)
    (hstack : name ∉ namesOf frames) (htemplate : library.template? name = some template)
    (props : Props) : Nested library (frames ++ [(name, props)]) := by
  constructor
  · rw [namesOf_concat]
    exact hnested.distinct.append (List.nodup_singleton _) (by simpa using hstack)
  · intro other hmem
    rw [namesOf_concat, List.mem_append, List.mem_singleton] at hmem
    rcases hmem with hmem | rfl
    · exact hnested.present other hmem
    · rw [htemplate]
      exact Option.some_ne_none _

/-- No more components are in progress than there are. -/
theorem Nested.length_le {library : Library} (hnested : Nested library frames) :
    frames.length ≤ library.templates.length := by
  have hsubset : namesOf frames ⊆ library.templates.map Prod.fst := by
    intro name hmem
    obtain ⟨template, htemplate⟩ := Option.ne_none_iff_exists'.mp (hnested.present name hmem)
    exact List.mem_map_of_mem (Library.mem_of_template? htemplate)
  have hlength := (List.subperm_of_subset hnested.distinct hsubset).length_le
  simpa [namesOf] using hlength

/-- Replacing tags ends if resolving each of them does. -/
theorem ends_replace {replacement : Tag → Expansion (Option Text)} {found : List (Piece Tag)}
    (htag : ∀ tag progress, ∃ visits,
      Ends setting frames (.resolve tag.name (parseAttributes tag.attributes)) progress visits
        (runFrom (replacement tag) progress).1 (runFrom (replacement tag) progress).2) :
    ∃ visits, Ends setting frames (.replace found) progress visits
      ((runFrom (replaceTags replacement found) progress).1.map some)
      (runFrom (replaceTags replacement found) progress).2 := by
  induction found generalizing progress with
  | nil => exact ⟨[], .nil⟩
  | cons piece rest ih =>
      cases piece with
      | plain c =>
          obtain ⟨visits, hrest⟩ := @ih progress
          rw [runFrom_replaceTags_plain]
          generalize runFrom (replaceTags replacement rest) progress = run at hrest ⊢
          obtain ⟨result, after⟩ := run
          cases result with
          | error error => exact ⟨visits, .plain hrest⟩
          | ok text => exact ⟨visits, .plain hrest⟩
      | found source tag =>
          cases hvoid : isVoidElement tag.name with
          | true =>
              obtain ⟨visits, hrest⟩ := @ih progress
              rw [runFrom_replaceTags_void hvoid]
              generalize runFrom (replaceTags replacement rest) progress = run at hrest ⊢
              obtain ⟨result, after⟩ := run
              cases result with
              | error error => exact ⟨visits, .void hvoid hrest⟩
              | ok text => exact ⟨visits, .void hvoid hrest⟩
          | false =>
              obtain ⟨visits, hfragment⟩ := htag tag progress
              rw [runFrom_replaceTags_tag hvoid]
              generalize runFrom (replacement tag) progress = run at hfragment ⊢
              obtain ⟨result, between⟩ := run
              cases result with
              | error error => exact ⟨visits, .tagFailed hvoid hfragment⟩
              | ok fragment? =>
                  obtain ⟨others, hrest⟩ := @ih between
                  rw [andThen_ok]
                  generalize runFrom (replaceTags replacement rest) between = run at hrest ⊢
                  obtain ⟨result, after⟩ := run
                  cases result with
                  | error error => exact ⟨visits ++ others, .tag hvoid hfragment hrest⟩
                  | ok text => exact ⟨visits ++ others, .tag hvoid hfragment hrest⟩

/-- The resolver does what it would do without a bound, if the bound leaves room for all components
that are not in progress yet. The induction is on the room: with none left all are in progress, and
so is the one that is invoked. -/
theorem ends_resolveWithin (setting : Setting) {room : Nat} {frames : List Frame} {name : Text}
    {props : Props} {progress : Progress} (hnested : Nested setting.library frames)
    (hroom : setting.library.templates.length ≤ frames.length + room) :
    ∃ visits, Ends setting frames (.resolve name props) progress visits
      (runFrom (resolveWithin setting room (namesOf frames) name props) progress).1
      (runFrom (resolveWithin setting room (namesOf frames) name props) progress).2 := by
  induction room using Nat.strongRecOn generalizing frames name props progress with
  | _ room ih =>
      by_cases hstack : name ∈ namesOf frames
      · rw [runFrom_resolveWithin_guarded hstack]
        exact ⟨_, .guarded hstack⟩
      · cases hfound : progress.cache.find? (cacheKey setting.library.generation name props) with
        | some entry =>
            rw [runFrom_resolveWithin_hit hstack hfound]
            exact ⟨_, .hit hstack hfound⟩
        | none =>
            cases htemplate : setting.library.template? name with
            | none =>
                rw [runFrom_resolveWithin_absent hstack hfound htemplate]
                exact ⟨_, .absent hstack hfound htemplate⟩
            | some template =>
                have hinner := hnested.push hstack htemplate props
                have hlength := hinner.length_le
                rw [List.length_append, List.length_singleton] at hlength
                obtain ⟨lower, rfl⟩ : ∃ lower, room = lower + 1 :=
                  Nat.exists_eq_succ_of_ne_zero (by omega)
                cases htext : instantiate template props with
                | error fault =>
                    rw [runFrom_resolveWithin_faulty hstack hfound htemplate htext]
                    exact ⟨_, .faulty hstack hfound htemplate htext⟩
                | ok text =>
                    obtain ⟨visits, hreplaced⟩ := @ends_replace setting
                      (frames ++ [(name, props)]) progress.entered
                      (resolveTag setting lower (namesOf frames ++ [name]))
                      (pieces (tagPattern .template) (protectComments text).1)
                      (fun tag between => by
                        rw [← namesOf_concat frames name props]
                        apply ih lower (Nat.lt_succ_self lower) hinner
                        rw [List.length_append, List.length_singleton]
                        omega)
                    rw [runFrom_resolveWithin_present hstack hfound htemplate htext]
                    generalize runFrom (replaceTags _ _) _ = run at hreplaced ⊢
                    obtain ⟨result, after⟩ := run
                    cases result with
                    | error error => exact ⟨_, .failed hstack hfound htemplate htext hreplaced⟩
                    | ok replaced =>
                        exact ⟨_, .expanded hstack hfound htemplate htext hreplaced⟩

theorem ends_render (setting : Setting) (globals : Props) (document : Text)
    (progress : Progress) :
    ∃ visits, Ends setting [] (.render globals document) progress visits
      ((runFrom (render setting globals document) progress).1.map some)
      (runFrom (render setting globals document) progress).2 := by
  cases htext : instantiate document globals with
  | error fault =>
      rw [runFrom_render_faulty htext]
      exact ⟨_, .documentFaulty htext⟩
  | ok text =>
      obtain ⟨visits, hreplaced⟩ := @ends_replace setting [] progress
        (resolveTag setting setting.library.templates.length [])
        (pieces (tagPattern .document) (protectComments text).1)
        (fun tag between => ends_resolveWithin setting (nested_nil _) (by simp))
      rw [runFrom_render_instantiated htext]
      generalize runFrom (replaceTags _ _) _ = run at hreplaced ⊢
      obtain ⟨result, after⟩ := run
      cases result with
      | error error => exact ⟨_, .documentFailed htext hreplaced⟩
      | ok replaced => exact ⟨_, .document htext hreplaced⟩

end Ending

/-! ## The invocations that are met -/

section Visits

variable {setting : Setting} {frames visited : List Frame} {task : Task}
variable {progress after : Progress} {visits : List (List Frame)}
variable {result : Except RenderError (Option Text)}

/-- The text of a component has a tag that invokes another with some props. -/
def Invokes (templates : List (Text × Text)) (outer inner : Frame) : Prop :=
  ∃ template text, templates.lookup outer.1 = some template ∧
    instantiate template outer.2 = .ok text ∧
    ∃ tag ∈ findTags .template text, inner = (tag.name, parseAttributes tag.attributes)

/-- What a task itself invokes. -/
def Task.Begins : Task → Frame → Prop
  | .resolve name props, first => first = (name, props)
  | .replace found, first =>
    ∃ tag ∈ invoked found, first = (tag.name, parseAttributes tag.attributes)
  | .render globals document, first => ∃ text, instantiate document globals = .ok text ∧
    ∃ tag ∈ findTags .document text, first = (tag.name, parseAttributes tag.attributes)

/-- A way down from the components in progress when a task is begun: first to what the task itself
invokes, and on through the texts of components that are all in progress and all distinct. -/
structure Descends (library : Library) (frames : List Frame) (task : Task)
    (visited : List Frame) : Prop where
  begins : ∃ first rest, visited = frames ++ first :: rest ∧ task.Begins first
  invokes : visited.IsChain (Invokes library.templates)
  nested : Nested library visited.dropLast

/-- The components in progress when a task is begun, which may go one step further down. -/
structure Poised (library : Library) (frames : List Frame) (task : Task) : Prop where
  nested : Nested library frames
  invokes : ∀ first, task.Begins first →
    (frames ++ [first]).IsChain (Invokes library.templates)

section Ways

variable {library : Library} {other : Task} {name : Text} {props : Props}

theorem Poised.of_begins (hpoised : Poised library frames task)
    (hbegins : ∀ first, other.Begins first → task.Begins first) : Poised library frames other :=
  ⟨hpoised.nested, fun first hfirst => hpoised.invokes first (hbegins first hfirst)⟩

theorem Poised.enter (hpoised : Poised library frames (.resolve name props))
    (hstack : name ∉ namesOf frames) {template text : Text}
    (htemplate : library.template? name = some template)
    (htext : instantiate template props = .ok text) :
    Poised library (frames ++ [(name, props)])
      (.replace (pieces (tagPattern .template) (protectComments text).1)) := by
  refine ⟨hpoised.nested.push hstack htemplate props, ?_⟩
  rintro first ⟨tag, htag, rfl⟩
  rw [List.append_assoc, List.singleton_append, List.isChain_append_cons_cons]
  exact ⟨hpoised.invokes _ rfl, ⟨template, text, htemplate, htext, tag, htag, rfl⟩, .singleton _⟩

theorem Descends.of_begins (hdescends : Descends library frames task visited)
    (hbegins : ∀ first, task.Begins first → other.Begins first) :
    Descends library frames other visited := by
  obtain ⟨first, rest, hvisited, hfirst⟩ := hdescends.begins
  exact ⟨⟨first, rest, hvisited, hbegins first hfirst⟩, hdescends.invokes, hdescends.nested⟩

/-- An invocation is met when it is to be resolved. -/
theorem Poised.descends (hpoised : Poised library frames (.resolve name props)) :
    Descends library frames (.resolve name props) (frames ++ [(name, props)]) := by
  refine ⟨⟨(name, props), [], rfl, rfl⟩, hpoised.invokes _ rfl, ?_⟩
  rw [List.dropLast_concat]
  exact hpoised.nested

theorem Descends.leave (hdescends : Descends library (frames ++ [(name, props)]) task visited) :
    Descends library frames (.resolve name props) visited := by
  obtain ⟨first, rest, rfl, -⟩ := hdescends.begins
  refine ⟨⟨(name, props), first :: rest, ?_, rfl⟩, hdescends.invokes, hdescends.nested⟩
  rw [List.append_assoc, List.singleton_append]

/-- What is met while a component is in progress is met while it is resolved. -/
theorem descends_entered (hpoised : Poised library frames (.resolve name props))
    {visits : List (List Frame)}
    (hvisits : ∀ visited ∈ visits, Descends library (frames ++ [(name, props)]) task visited) :
    ∀ visited ∈ (frames ++ [(name, props)]) :: visits,
      Descends library frames (.resolve name props) visited := by
  intro visited hmem
  rcases List.mem_cons.mp hmem with rfl | hmem
  · exact hpoised.descends
  · exact (hvisits visited hmem).leave

end Ways

theorem begins_tag {source : Text} {tag : Tag} {rest : List (Piece Tag)}
    (hvoid : isVoidElement tag.name = false) {first : Frame} :
    (Task.replace (.found source tag :: rest)).Begins first ↔
      (Task.resolve tag.name (parseAttributes tag.attributes)).Begins first ∨
        (Task.replace rest).Begins first := by
  simp only [Task.Begins, invoked_tag hvoid, List.mem_cons, exists_eq_or_imp]

theorem begins_void {source : Text} {tag : Tag} {rest : List (Piece Tag)}
    (hvoid : isVoidElement tag.name = true) {first : Frame} :
    (Task.replace (.found source tag :: rest)).Begins first ↔
      (Task.replace rest).Begins first := by
  simp only [Task.Begins, invoked_void hvoid]

/-- Every invocation that is met stands at the end of a way down. -/
theorem Ends.descends (hends : Ends setting frames task progress visits result after)
    (hpoised : Poised setting.library frames task) :
    ∀ visited ∈ visits, Descends setting.library frames task visited := by
  induction hends with
  | guarded | hit | absent | faulty =>
      intro visited hmem
      rw [List.mem_singleton.mp hmem]
      exact hpoised.descends
  | expanded hstack _ htemplate htext _ ih =>
      exact descends_entered hpoised (ih (hpoised.enter hstack htemplate htext))
  | failed hstack _ htemplate htext _ ih =>
      exact descends_entered hpoised (ih (hpoised.enter hstack htemplate htext))
  | nil | documentFaulty => exact fun visited hmem => by cases hmem
  | plain _ ih =>
      intro visited hmem
      exact (ih (hpoised.of_begins fun _ hfirst => hfirst) visited hmem).of_begins
        fun _ hfirst => hfirst
  | void hvoid _ ih =>
      intro visited hmem
      exact (ih (hpoised.of_begins fun _ => (begins_void hvoid).mpr) visited hmem).of_begins
        fun _ => (begins_void hvoid).mpr
  | tag hvoid _ _ ihFragment ihRest =>
      intro visited hmem
      rcases List.mem_append.mp hmem with hmem | hmem
      · exact (ihFragment (hpoised.of_begins fun _ hfirst => (begins_tag hvoid).mpr (.inl hfirst))
          visited hmem).of_begins fun _ hfirst => (begins_tag hvoid).mpr (.inl hfirst)
      · exact (ihRest (hpoised.of_begins fun _ hfirst => (begins_tag hvoid).mpr (.inr hfirst))
          visited hmem).of_begins fun _ hfirst => (begins_tag hvoid).mpr (.inr hfirst)
  | tagFailed hvoid _ ih =>
      intro visited hmem
      exact (ih (hpoised.of_begins fun _ hfirst => (begins_tag hvoid).mpr (.inl hfirst))
        visited hmem).of_begins fun _ hfirst => (begins_tag hvoid).mpr (.inl hfirst)
  | document htext _ ih =>
      intro visited hmem
      exact (ih (hpoised.of_begins fun _ hfirst => ⟨_, htext, hfirst⟩) visited hmem).of_begins
        fun _ hfirst => ⟨_, htext, hfirst⟩
  | documentFailed htext _ ih =>
      intro visited hmem
      exact (ih (hpoised.of_begins fun _ hfirst => ⟨_, htext, hfirst⟩) visited hmem).of_begins
        fun _ hfirst => ⟨_, htext, hfirst⟩

/-! ## Cycles -/

section Cycles

variable {path : List Frame} {cycle : List Text} {name : Text} {props : Props}

/-- The last invocation of a path is one of a component in progress, and the cycle leads from that
component back to it. -/
def Closes (path : List Frame) (cycle : List Text) : Prop :=
  ∃ frames name props, path = frames ++ [(name, props)] ∧ name ∈ namesOf frames ∧
    cycle = cycleThrough (namesOf frames) name

theorem closes_concat :
    Closes (frames ++ [(name, props)]) cycle ↔
      name ∈ namesOf frames ∧ cycle = cycleThrough (namesOf frames) name := by
  constructor
  · rintro ⟨others, other, otherProps, hpath, hmem, hcycle⟩
    obtain ⟨rfl, hlast⟩ := List.append_inj' hpath rfl
    cases hlast
    exact ⟨hmem, hcycle⟩
  · rintro ⟨hmem, hcycle⟩
    exact ⟨frames, name, props, rfl, hmem, hcycle⟩

theorem not_closes_concat (hstack : name ∉ namesOf frames) :
    ¬Closes (frames ++ [(name, props)]) cycle :=
  fun hcloses => hstack (closes_concat.mp hcloses).1

theorem finish_ne_cyclic {comments outer : List Text} {replaced : Text} :
    (finish setting name props comments outer replaced progress).1 ≠ .error (.cyclic cycle) := by
  rw [finish]
  cases restoreComments comments replaced with
  | error fault => exact fun hresult => by cases hresult
  | ok restored => exact fun hresult => by cases hresult

theorem map_eq_cyclic {ε : Type} {change : ε → ε} {result : Except RenderError ε} :
    result.map change = .error (.cyclic cycle) ↔ result = .error (.cyclic cycle) := by
  cases result <;> simp [Except.map]

/-- A task ends with a cycle exactly if an invocation that is met closes it. -/
theorem Ends.cyclic_iff (hends : Ends setting frames task progress visits result after) :
    result = .error (.cyclic cycle) ↔ ∃ path ∈ visits, Closes path cycle := by
  induction hends with
  | guarded hstack =>
      simp only [List.mem_singleton, exists_eq_left, closes_concat, hstack, true_and,
        Except.error.injEq, RenderError.cyclic.injEq, eq_comm]
  | hit hstack | absent hstack | faulty hstack =>
      simp [not_closes_concat hstack]
  | expanded hstack _ _ _ _ ih =>
      simpa [not_closes_concat hstack, finish_ne_cyclic] using ih
  | failed hstack _ _ _ _ ih => simpa [not_closes_concat hstack] using ih
  | nil | documentFaulty => simp
  | plain _ ih | void _ _ ih => rw [map_eq_cyclic, ih]
  | tag _ _ _ ihFragment ihRest =>
      have hnone : ¬∃ path ∈ _, Closes path cycle := fun hcloses => by
        cases ihFragment.mpr hcloses
      rw [map_eq_cyclic, ihRest]
      simp only [List.mem_append, or_and_right, exists_or, hnone, false_or]
  | tagFailed _ _ ih | documentFailed _ _ ih => exact ih
  | @document frames globals document text progress visits replaced after htext _ ih =>
      rw [← ih]
      cases restoreComments (protectComments text).2 replaced <;> simp [Except.mapError, Except.map]

/-- What is reported as a cycle: components of which each is invoked in the text of the one before
it, on the path that has been met. The last is the first, and no other occurs twice. -/
structure IsCycle (templates : List (Text × Text)) (path : List Frame) (cycle : List Text) :
    Prop where
  leads : ∃ loop, loop <:+ path ∧ namesOf loop = cycle ∧ loop.IsChain (Invokes templates)
  length : 2 ≤ cycle.length
  closed : cycle.head? = cycle.getLast?
  distinct : cycle.dropLast.Nodup

variable {library : Library}

/-- The cycle through a component in progress begins where that component was invoked. -/
theorem cycleThrough_namesOf (hmem : name ∈ namesOf frames) :
    ∃ outer around inner, frames = outer ++ (name, around) :: inner ∧
      cycleThrough (namesOf frames) name = (name :: namesOf inner) ++ [name] := by
  induction frames with
  | nil => cases hmem
  | cons frame rest ih =>
      obtain ⟨other, around⟩ := frame
      by_cases hsame : other = name
      · subst hsame
        exact ⟨[], around, rest, rfl, by simp [cycleThrough, namesOf]⟩
      · obtain ⟨outer, inner, props, rfl, hcycle⟩ :=
          ih ((List.mem_cons.mp hmem).resolve_left fun heq => hsame heq.symm)
        refine ⟨(other, around) :: outer, inner, props, rfl, ?_⟩
        rw [← hcycle, cycleThrough, cycleThrough, namesOf, List.map_cons,
          List.dropWhile_cons_of_pos (by simpa using hsame)]
        rfl

theorem Descends.isCycle (hdescends : Descends library frames task path)
    (hcloses : Closes path cycle) : IsCycle library.templates path cycle := by
  obtain ⟨frames, name, props, rfl, hmem, rfl⟩ := hcloses
  have hdistinct := hdescends.nested.distinct
  rw [List.dropLast_concat] at hdistinct
  obtain ⟨outer, around, inner, rfl, hcycle⟩ := cycleThrough_namesOf hmem
  rw [hcycle]
  refine ⟨⟨(name, around) :: inner ++ [(name, props)], ⟨outer, by simp⟩, by simp [namesOf], ?_⟩,
    by simp, ?_, ?_⟩
  · exact hdescends.invokes.suffix ⟨outer, by simp⟩
  · rw [List.getLast?_concat]
    rfl
  · rw [List.dropLast_concat]
    have hsublist := (List.sublist_append_right outer ((name, around) :: inner)).map Prod.fst
    exact hdistinct.sublist hsublist

/-- A component in progress is never expanded again: no path goes on where it closes. -/
theorem Descends.eq_of_closes {deeper : List Frame}
    (hdescends : Descends library frames task deeper) (hcloses : Closes path cycle)
    (hprefixed : path <+: deeper) : deeper = path := by
  obtain ⟨rest, rfl⟩ := hprefixed
  rcases List.eq_nil_or_concat rest with rfl | ⟨rest, last, rfl⟩
  · rw [List.append_nil]
  · exfalso
    obtain ⟨frames, name, props, rfl, hmem, -⟩ := hcloses
    have hdistinct := hdescends.nested.distinct
    rw [List.concat_eq_append, ← List.append_assoc, List.dropLast_concat] at hdistinct
    rw [namesOf, List.map_append, ← namesOf, namesOf_concat] at hdistinct
    exact (List.nodup_append.mp (List.nodup_append.mp hdistinct).1).2.2 name hmem name
      (List.mem_singleton_self _) rfl

end Cycles

end Visits

/-! ## Calls of a session -/

def Call.task : Call → Task
  | .resolve name props _ => .resolve name props
  | .render document _ globals => .render globals document

def Call.file : Call → Text
  | .resolve _ _ file | .render _ file _ => file

/-- What a call ends with: a fragment or a document, nothing, or an error. -/
def Session.outcome (session : Session) : Call → Except RenderError (Option Text)
  | .resolve name props file => (session.resolve name props file).1
  | .render document file globals => (session.render document file globals).1.map some

/-- A call ends as it would without a bound on the nesting. -/
theorem ends_call (session : Session) (call : Call) :
    ∃ visits after, Ends (session.setting call.file) [] call.task session.beginning visits
        (session.outcome call) after ∧
      session.afterCall call =
        { session with cache := after.cache, failures := after.failures } := by
  cases call with
  | resolve name props file =>
      obtain ⟨visits, hends⟩ := @ends_resolveWithin (session.setting file)
        session.store.library.templates.length [] name props session.beginning (nested_nil _)
        (by simp [Session.setting])
      exact ⟨visits, _, hends, rfl⟩
  | render document file globals =>
      obtain ⟨visits, hends⟩ :=
        ends_render (session.setting file) globals document session.beginning
      exact ⟨visits, _, hends, rfl⟩

theorem poised_nil (library : Library) (task : Task) : Poised library [] task :=
  ⟨nested_nil library, fun _ _ => .singleton _⟩

/-- Every call ends, whatever the templates and the cache are. The components in progress when an
invocation is met are distinct and have templates, so there are at most as many as templates, and
the text of each invokes the next. The call ends with a cycle exactly if an invocation of a
component in progress is met; none is met inside that invocation. -/
theorem call_ends (session : Session) (call : Call) :
    ∃ visits after, Ends (session.setting call.file) [] call.task session.beginning visits
        (session.outcome call) after ∧
      session.afterCall call =
        { session with cache := after.cache, failures := after.failures } ∧
      (∀ path ∈ visits, Descends session.store.library [] call.task path ∧
        path.dropLast.length ≤ session.store.library.templates.length) ∧
      ∀ cycle, (session.outcome call = .error (.cyclic cycle) ↔
          ∃ path ∈ visits, Closes path cycle) ∧
        ∀ path ∈ visits, Closes path cycle →
          IsCycle session.store.library.templates path cycle ∧
            ∀ deeper ∈ visits, path <+: deeper → deeper = path := by
  obtain ⟨visits, after, hends, hafter⟩ := ends_call session call
  have hdescends := hends.descends (poised_nil session.store.library call.task)
  refine ⟨visits, after, hends, hafter, fun path hpath => ?_, fun cycle => ⟨hends.cyclic_iff, ?_⟩⟩
  · exact ⟨hdescends path hpath, (hdescends path hpath).nested.length_le⟩
  · intro path hpath hcloses
    exact ⟨(hdescends path hpath).isCycle hcloses,
      fun deeper hdeeper => (hdescends deeper hdeeper).eq_of_closes hcloses⟩

end PageLoom.Component
