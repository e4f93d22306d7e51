import Mini2440.Lib.Splice

/-!
# Ranges of a memory

A memory is a function from addresses to values.  `load` reads a range of it and `store`
writes one, as `memcpy` does.  A range that a store does not reach is read as before, and
the range that it wrote is read back.
-/

namespace Mini2440.Memory

open Splice

variable {Value : Type*}

/-- The `count` values from `start` on. -/
def load (memory : Nat → Value) (start count : Nat) : List Value :=
  (List.range count).map fun index => memory (start + index)

/-- The memory after `values` were written from `start` on. -/
def store (memory : Nat → Value) (start : Nat) (values : List Value) : Nat → Value :=
  fun address =>
    if start ≤ address then values[address - start]?.getD (memory address)
    else memory address

/-! ## Loads -/

@[simp] theorem length_load (memory : Nat → Value) (start count : Nat) :
    (load memory start count).length = count := by
  rw [load, List.length_map, List.length_range]

theorem getElem?_load (memory : Nat → Value) (start : Nat) {index count : Nat}
    (inRange : index < count) :
    (load memory start count)[index]? = some (memory (start + index)) := by
  rw [load, List.getElem?_map, List.getElem?_range inRange]
  rfl

/-- Adjacent ranges are read as one. -/
theorem load_add (memory : Nat → Value) (start first second : Nat) :
    load memory start (first + second) =
      load memory start first ++ load memory (start + first) second := by
  simp only [load, List.range_add, List.map_append, List.map_map, Function.comp_def,
    Nat.add_assoc]

/-- A part of what was read. -/
theorem slice_load (memory : Nat → Value) (start : Nat) {offset part count : Nat}
    (inside : offset + part ≤ count) :
    slice (load memory start count) offset part = load memory (start + offset) part := by
  obtain ⟨behind, rfl⟩ := Nat.exists_eq_add_of_le inside
  have front : (load memory start offset).length = offset := length_load memory start offset
  have middle : (load memory (start + offset) part).length = part :=
    length_load memory (start + offset) part
  rw [slice, load_add, load_add, List.append_assoc, List.drop_left' front,
    List.take_left' middle]

theorem load_congr {first second : Nat → Value} {start count : Nat}
    (agree : ∀ address, start ≤ address → address < start + count →
      first address = second address) :
    load first start count = load second start count := by
  apply List.map_congr_left
  intro index member
  have inRange := List.mem_range.mp member
  exact agree (start + index) (by omega) (by omega)

/-! ## Stores -/

theorem store_of_outside (memory : Nat → Value) {start : Nat} {values : List Value}
    {address : Nat} (outside : address < start ∨ start + values.length ≤ address) :
    store memory start values address = memory address := by
  unfold store
  split
  next above =>
      have past : values.length ≤ address - start := by omega
      rw [List.getElem?_eq_none past]
      rfl
  next => rfl

theorem store_of_getElem? (memory : Nat → Value) {start : Nat} {values : List Value}
    {address : Nat} {value : Value} (above : start ≤ address)
    (held : values[address - start]? = some value) :
    store memory start values address = value := by
  rw [store, if_pos above, held]
  rfl

theorem store_head (memory : Nat → Value) (start : Nat) (value : Value)
    (rest : List Value) : store memory start (value :: rest) start = value := by
  apply store_of_getElem? memory (Nat.le_refl start)
  rw [Nat.sub_self]
  rfl

/-- What was stored is read back. -/
theorem load_store_self (memory : Nat → Value) (start : Nat) {values : List Value}
    {count : Nat} (whole : values.length = count) :
    load (store memory start values) start count = values := by
  subst whole
  apply List.ext_getElem
  · exact length_load _ _ _
  · intro index inLoad inValues
    apply Option.some.inj
    rw [← List.getElem?_eq_getElem inLoad, getElem?_load _ _ inValues]
    congr 1
    apply store_of_getElem? memory (Nat.le_add_right start index)
    rw [Nat.add_sub_cancel_left, List.getElem?_eq_getElem inValues]

/-- A store leaves the ranges beside it as they are. -/
theorem load_store_disjoint (memory : Nat → Value) {start : Nat} {values : List Value}
    {other count : Nat} (disjoint : other + count ≤ start ∨ start + values.length ≤ other) :
    load (store memory start values) other count = load memory other count := by
  apply load_congr
  intro address above below
  exact store_of_outside memory (by omega)

/-- A range around a store reads what was stored between what was there. -/
theorem load_store_within (memory : Nat → Value) (start front : Nat) (values : List Value)
    (behind : Nat) :
    load (store memory (start + front) values) start (front + (values.length + behind)) =
      load memory start front ++
        (values ++ load memory (start + front + values.length) behind) := by
  rw [load_add, load_add, load_store_disjoint memory (.inl (Nat.le_refl _)),
    load_store_self memory _ rfl, load_store_disjoint memory (.inr (Nat.le_refl _))]

/-- What a store writes to an address, if it reaches it. -/
def stored (start : Nat) (values : List Value) (address : Nat) : Option Value :=
  if start ≤ address then values[address - start]? else none

theorem store_apply (memory : Nat → Value) (start : Nat) (values : List Value)
    (address : Nat) :
    store memory start values address = (stored start values address).getD (memory address) := by
  unfold store stored
  split <;> rfl

end Mini2440.Memory
