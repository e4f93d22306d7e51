import Mathlib.Data.List.Basic

/-!
# Loops whose steps may have no value

A loop over a list that runs in `Option`.  Where every step has a value the loop is the plain
one, and where each step is guarded by a condition on its item the guards come to one before
the loop.
-/

namespace Mini2440.Loops

variable {State Item Value : Type}

/-- A step for each item, if all have a value. -/
theorem length_of_mapM {step : Item → Option Value} {items : List Item} {values : List Value}
    (mapped : items.mapM step = some values) : values.length = items.length := by
  induction items generalizing values with
  | nil =>
      obtain rfl := Option.some.inj mapped
      rfl
  | cons item items ih =>
      rw [List.mapM_cons] at mapped
      obtain ⟨value, -, later⟩ := Option.bind_eq_some_iff.mp mapped
      obtain ⟨rest, mappedRest, result⟩ := Option.bind_eq_some_iff.mp later
      obtain rfl := Option.some.inj result
      rw [List.length_cons, ih mappedRest, List.length_cons]

/-- Steps that all succeed. -/
theorem foldlM_eq_some {step : State → Item → Option State}
    {next : State → Item → State} (items : List Item)
    (taken : ∀ state, ∀ item ∈ items, step state item = some (next state item))
    (state : State) : items.foldlM step state = some (items.foldl next state) := by
  induction items generalizing state with
  | nil => rfl
  | cons item items ih =>
      have later : ∀ state, ∀ item ∈ items, step state item = some (next state item) :=
        fun state other member => taken state other (List.mem_cons_of_mem item member)
      rw [List.foldlM_cons, taken state item List.mem_cons_self]
      exact ih later (next state item)

section

variable (ok : Item → Prop) [DecidablePred ok]

/-- A loop of which every step has to be allowed. -/
theorem foldlM_guard (next : State → Item → State) (items : List Item) (state : State) :
    items.foldlM (fun state item => if ok item then some (next state item) else none) state =
      if ∀ item ∈ items, ok item then some (items.foldl next state) else none := by
  induction items generalizing state with
  | nil => rfl
  | cons item items ih =>
      simp only [List.foldlM_cons, List.forall_mem_cons]
      by_cases allowed : ok item
      · simp only [allowed, true_and]
        exact ih (next state item)
      · simp [allowed]

theorem mapM_guard (value : Item → Value) (items : List Item) :
    items.mapM (fun item => if ok item then some (value item) else none) =
      if ∀ item ∈ items, ok item then some (items.map value) else none := by
  induction items with
  | nil => rfl
  | cons item items ih =>
      simp only [List.mapM_cons, List.forall_mem_cons, ih]
      by_cases allowed : ok item
      · simp only [allowed, true_and, if_true, Option.bind_eq_bind, Option.bind_some]
        split <;> rfl
      · simp [allowed]

end

end Mini2440.Loops
