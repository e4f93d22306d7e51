import Mathlib.Data.List.Basic
import Mathlib.Logic.Function.Basic

/-!
# Runs of labelled partial transitions

A system is a partial step function: `none` means that the label is not enabled
in the state.  Nondeterminism of an environment lives in the choice of labels, so
one list of labels determines at most one run.

`Along` states that every step of a run meets a condition on the state before the
step.  The invariant rules below take such a condition as an assumption on the
steps, which is the form in which a property holds on well-behaved schedules only.
-/

namespace Mini2440.Transition

variable {State Label : Type*}

/-- A labelled partial step. -/
abbrev Step (State Label : Type*) := State → Label → Option State

namespace Step

/-- Execute a list of labels; every one of them has to be enabled. -/
def run (step : Step State Label) : State → List Label → Option State
  | state, [] => some state
  | state, label :: rest => (step state label).bind fun next => run step next rest

@[simp] theorem run_nil (step : Step State Label) (state : State) :
    step.run state [] = some state := rfl

theorem run_cons (step : Step State Label) (state : State) (label : Label)
    (rest : List Label) :
    step.run state (label :: rest) =
      (step state label).bind fun next => step.run next rest := rfl

theorem run_cons_of_eq {step : Step State Label} {state next : State} {label : Label}
    (taken : step state label = some next) (rest : List Label) :
    step.run state (label :: rest) = step.run next rest := by
  rw [run_cons, taken, Option.bind_some]

@[simp] theorem run_singleton (step : Step State Label) (state : State)
    (label : Label) : step.run state [label] = step state label := by
  simp [run_cons]

/-- Split a run after its first labels. -/
theorem run_append (step : Step State Label) (state : State)
    (first second : List Label) :
    step.run state (first ++ second) =
      (step.run state first).bind fun middle => step.run middle second := by
  induction first generalizing state with
  | nil => simp
  | cons label rest ih =>
      simp only [List.cons_append, run_cons, Option.bind_assoc]
      congr 1
      funext next
      exact ih next

theorem run_append_of_eq {step : Step State Label} {state middle : State}
    {first : List Label} (reached : step.run state first = some middle)
    (second : List Label) :
    step.run state (first ++ second) = step.run middle second := by
  rw [run_append, reached, Option.bind_some]

/-- A state is reachable when some list of labels leads to it. -/
def Reachable (step : Step State Label) (start state : State) : Prop :=
  ∃ labels, step.run start labels = some state

theorem Reachable.next {step : Step State Label} {start state next : State}
    {label : Label} (reachable : step.Reachable start state)
    (taken : step state label = some next) : step.Reachable start next := by
  obtain ⟨labels, reached⟩ := reachable
  exact ⟨labels ++ [label], by rw [run_append_of_eq reached, run_singleton, taken]⟩

/-- Every step that the run takes meets `guard` in the state before the step. -/
def Along (step : Step State Label) (guard : State → Label → Prop) :
    State → List Label → Prop
  | _, [] => True
  | state, label :: rest =>
      guard state label ∧
        match step state label with
        | some next => Along step guard next rest
        | none => True

@[simp] theorem along_nil (step : Step State Label) (guard : State → Label → Prop)
    (state : State) : step.Along guard state [] := trivial

theorem along_cons {step : Step State Label} {guard : State → Label → Prop}
    {state next : State} {label : Label} {rest : List Label}
    (taken : step state label = some next) :
    step.Along guard state (label :: rest) ↔
      guard state label ∧ step.Along guard next rest := by
  simp only [Along, taken]

instance decidableAlong (step : Step State Label) (guard : State → Label → Prop)
    [∀ state label, Decidable (guard state label)] :
    (state : State) → (labels : List Label) → Decidable (step.Along guard state labels)
  | _, [] => inferInstanceAs (Decidable True)
  | state, label :: rest =>
      match taken : step state label with
      | some next =>
          have := decidableAlong step guard next rest
          decidable_of_iff (guard state label ∧ step.Along guard next rest)
            (along_cons taken).symm
      | none =>
          decidable_of_iff (guard state label) (by simp [Along, taken])

theorem along_append {step : Step State Label} {guard : State → Label → Prop}
    {state middle : State} {first second : List Label}
    (reached : step.run state first = some middle) :
    step.Along guard state (first ++ second) ↔
      step.Along guard state first ∧ step.Along guard middle second := by
  induction first generalizing state with
  | nil =>
      cases reached
      simp
  | cons label rest ih =>
      obtain ⟨next, taken, reached⟩ := Option.bind_eq_some_iff.mp reached
      rw [List.cons_append, along_cons taken, along_cons taken, ih reached, and_assoc]

/-- The condition of a run holds at the step after any of its prefixes. -/
theorem Along.at_split {step : Step State Label} {guard : State → Label → Prop}
    {state middle : State} {first rest : List Label} {label : Label}
    (along : step.Along guard state (first ++ label :: rest))
    (reached : step.run state first = some middle) : guard middle label :=
  ((along_append reached).mp along).2.1

/-- Conversely, a condition that holds after every prefix holds along the run. -/
theorem along_of_splits {step : Step State Label} {guard : State → Label → Prop}
    {state : State} {labels : List Label}
    (every : ∀ first label rest middle, labels = first ++ label :: rest →
      step.run state first = some middle → guard middle label) :
    step.Along guard state labels := by
  induction labels generalizing state with
  | nil => trivial
  | cons label rest ih =>
      refine ⟨every [] label rest state rfl rfl, ?_⟩
      split
      next next taken =>
        apply ih
        intro first label' rest' middle rest_eq reached
        refine every (label :: first) label' rest' middle (by rw [rest_eq]; rfl) ?_
        rw [run_cons, taken]
        exact reached
      next => trivial

/-- Where a condition fails along a run, some step of the run breaks it. -/
theorem exists_of_not_along {step : Step State Label} {guard : State → Label → Prop}
    {state : State} {labels : List Label} (broken : ¬ step.Along guard state labels) :
    ∃ first label rest middle, labels = first ++ label :: rest ∧
      step.run state first = some middle ∧ ¬ guard middle label := by
  by_contra none_breaks
  apply broken
  apply along_of_splits
  intro first label rest middle labels_eq reached
  by_contra breaks
  exact none_breaks ⟨first, label, rest, middle, labels_eq, reached, breaks⟩

/-- Where every step that breaks the condition leads on to a state of some kind, each run that
does not meet the condition has such a step, and goes on from there. -/
theorem exists_run_of_not_along {step : Step State Label} {guard : State → Label → Prop}
    {goal : State → Prop}
    (continues : ∀ state label, ¬ guard state label →
      ∃ more final, step.run state (label :: more) = some final ∧ goal final)
    {start : State} {labels : List Label} (broken : ¬ step.Along guard start labels) :
    ∃ first label rest state more final, labels = first ++ label :: rest ∧
      step.run start first = some state ∧ ¬ guard state label ∧
      step.run state (label :: more) = some final ∧ goal final := by
  obtain ⟨first, label, rest, state, labels_eq, reached, breaks⟩ :=
    exists_of_not_along broken
  obtain ⟨more, final, continued, met⟩ := continues state label breaks
  exact ⟨first, label, rest, state, more, final, labels_eq, reached, breaks, continued, met⟩

/-- A condition of a run may be weakened. -/
theorem Along.imp {step : Step State Label} {guard goal : State → Label → Prop}
    (implies : ∀ state label, guard state label → goal state label) {state : State}
    {labels : List Label} (along : step.Along guard state labels) :
    step.Along goal state labels := by
  induction labels generalizing state with
  | nil => trivial
  | cons label rest ih =>
      refine ⟨implies state label along.1, ?_⟩
      split
      next next taken => exact ih ((along_cons taken).mp along).2
      next => trivial

/-- One step that meets `guard` keeps `property`. -/
def Preserves (step : Step State Label) (guard : State → Label → Prop)
    (property : State → Prop) : Prop :=
  ∀ state label next, property state → guard state label →
    step state label = some next → property next

/-- The induction rule for runs all of whose steps meet a condition. -/
theorem Preserves.run {step : Step State Label} {guard : State → Label → Prop}
    {property : State → Prop} (preserves : step.Preserves guard property)
    {state final : State} {labels : List Label} (initial : property state)
    (along : step.Along guard state labels)
    (reached : step.run state labels = some final) : property final := by
  induction labels generalizing state with
  | nil =>
      cases reached
      exact initial
  | cons label rest ih =>
      obtain ⟨next, taken, reached⟩ := Option.bind_eq_some_iff.mp reached
      obtain ⟨met, along⟩ := (along_cons taken).mp along
      exact ih (preserves state label next initial met taken) along reached

/-- The induction rule for reachable states. -/
theorem Preserves.reachable {step : Step State Label} {property : State → Prop}
    (preserves : step.Preserves (fun _ _ => True) property)
    {start state : State} (initial : property start)
    (reachable : step.Reachable start state) : property state := by
  obtain ⟨labels, reached⟩ := reachable
  refine preserves.run initial (along_of_splits ?_) reached
  intros
  trivial

/-- An invariant turns a condition on the steps into a stronger one. -/
theorem Preserves.strengthen {step : Step State Label}
    {guard goal : State → Label → Prop} {property : State → Prop}
    (preserves : step.Preserves guard property)
    (implies : ∀ state label, property state → guard state label → goal state label)
    {state : State} {labels : List Label} (initial : property state)
    (along : step.Along guard state labels) : step.Along goal state labels := by
  induction labels generalizing state with
  | nil => trivial
  | cons label rest ih =>
      refine ⟨implies state label initial along.1, ?_⟩
      split
      next next taken =>
        have along := (along_cons taken).mp along
        exact ih (preserves state label next initial along.1 taken) along.2
      next => trivial

/-- Two conditions that say the same wherever an invariant holds, which the second one keeps,
hold along the same runs. -/
theorem Preserves.along_iff {step : Step State Label} {guard goal : State → Label → Prop}
    {property : State → Prop} (preserves : step.Preserves guard property)
    (exact : ∀ state label, property state → (goal state label ↔ guard state label))
    {state : State} (initial : property state) (labels : List Label) :
    step.Along goal state labels ↔ step.Along guard state labels := by
  have preserves' : step.Preserves goal property := fun state label next holds met taken =>
    preserves state label next holds ((exact state label holds).mp met) taken
  constructor
  · exact preserves'.strengthen (fun state label holds => (exact state label holds).mp) initial
  · exact preserves.strengthen (fun state label holds => (exact state label holds).mpr) initial

end Step

/-- After one process has moved, whoever is found at another place than its new one is
another process, and was there before. -/
theorem of_update_eq {Pid Pc : Type*} [DecidableEq Pid] {pc : Pid → Pc} {self other : Pid}
    {new found : Pc} (updated : Function.update pc self new other = found)
    (elsewhere : new ≠ found) : other ≠ self ∧ pc other = found := by
  by_cases same : other = self
  · rw [same, Function.update_self] at updated
    exact absurd updated elsewhere
  · rw [Function.update_of_ne same] at updated
    exact ⟨same, updated⟩

end Mini2440.Transition
