import Mathlib.Data.List.Basic

/-!
# Ranges of a list

A list as an array: `slice` reads a range of it, `splice` replaces one by values of the
same number.  Reading or replacing two adjacent ranges one after the other is reading or
replacing them as one, which is what a transfer in segments needs.
-/

namespace Mini2440.Splice

variable {Value : Type*}

/-- The `len` values from `start` on. -/
def slice (values : List Value) (start len : Nat) : List Value := (values.drop start).take len

/-- The list with the values from `start` on replaced by `new`. -/
def splice (values : List Value) (start : Nat) (new : List Value) : List Value :=
  values.take start ++ new ++ values.drop (start + new.length)

theorem length_slice {values : List Value} {start len : Nat}
    (inside : start + len ≤ values.length) : (slice values start len).length = len := by
  rw [slice, List.length_take, List.length_drop]
  omega

theorem length_splice {values : List Value} {start : Nat} {new : List Value}
    (inside : start + new.length ≤ values.length) :
    (splice values start new).length = values.length := by
  simp only [splice, List.length_append, List.length_take, List.length_drop]
  omega

/-- Adjacent ranges are read as one. -/
theorem slice_add (values : List Value) (start first second : Nat) :
    slice values start (first + second) =
      slice values start first ++ slice values (start + first) second := by
  rw [slice, slice, slice, List.take_add, List.drop_drop]

/-- Adjacent ranges are replaced as one. -/
theorem splice_append {values : List Value} {start : Nat} {first second : List Value}
    (inside : start + first.length ≤ values.length) :
    splice (splice values start first) (start + first.length) second =
      splice values start (first ++ second) := by
  have front : (values.take start ++ first).length = start + first.length := by
    rw [List.length_append, List.length_take]
    omega
  have taken : (splice values start first).take (start + first.length) =
      values.take start ++ first := by
    rw [splice, ← front, List.take_left]
  have dropped : (splice values start first).drop (start + first.length + second.length) =
      values.drop (start + (first ++ second).length) := by
    rw [splice, ← front, ← List.drop_drop, List.drop_left, List.drop_drop, front,
      List.length_append, Nat.add_assoc]
  rw [splice, taken, dropped, splice, List.append_assoc (values.take start)]

/-- A replaced range holds what it was replaced by. -/
theorem slice_splice {values : List Value} {start : Nat} {new : List Value}
    (inside : start + new.length ≤ values.length) :
    slice (splice values start new) start new.length = new := by
  have before : (values.take start).length = start := by
    rw [List.length_take]
    omega
  rw [slice, splice, List.append_assoc, List.drop_left' before, List.take_left]

end Mini2440.Splice
