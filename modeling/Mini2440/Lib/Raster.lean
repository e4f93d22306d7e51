import Mini2440.Lib.Memory

/-!
# Cells of one width

A memory that is written cell by cell, in order and without gaps, holds the cells one after
the other: the writes come to one store of all of them.  Rows of cells are cells again, so a
picture that is written row by row is one store, too, and every cell is read back by its row
and column.
-/

namespace Mini2440.Raster

open Memory Splice

variable {Value : Type*}

/-- A store right behind another one. -/
theorem store_append (memory : Nat → Value) (start : Nat) (first second : List Value) :
    store (store memory start first) (start + first.length) second =
      store memory start (first ++ second) := by
  funext address
  rcases Nat.lt_or_ge address start with before | above
  · rw [store_of_outside _ (.inl (by omega)), store_of_outside _ (.inl before),
      store_of_outside _ (.inl before)]
  · rcases Nat.lt_or_ge (address - start) first.length with inFirst | past
    · rw [store_of_outside _ (.inl (by omega))]
      have held := List.getElem?_eq_getElem inFirst
      rw [store_of_getElem? _ above held]
      refine (store_of_getElem? _ above ?_).symm
      rw [List.getElem?_append_left inFirst, held]
    · have place : address - (start + first.length) = address - start - first.length := by
        omega
      have behind : start + first.length ≤ address := by omega
      rw [store, if_pos behind, store_of_outside _ (.inr behind), place, store, if_pos above,
        List.getElem?_append_right past]

/-- A store over one of the same length. -/
theorem store_over (memory : Nat → Value) (start : Nat) {first second : List Value}
    (same : first.length = second.length) :
    store (store memory start first) start second = store memory start second := by
  funext address
  by_cases outside : address < start ∨ start + second.length ≤ address
  · rw [store_of_outside _ outside, store_of_outside _ outside,
      store_of_outside _ (same ▸ outside)]
  · obtain ⟨above, inside⟩ := not_or.mp outside
    have inSecond : address - start < second.length := by omega
    have held := List.getElem?_eq_getElem inSecond
    rw [store_of_getElem? _ (Nat.not_lt.mp above) held,
      store_of_getElem? _ (Nat.not_lt.mp above) held]

section

variable {width : Nat} {cell : Nat → List Value} (whole : ∀ index, (cell index).length = width)
include whole

theorem length_cells (count : Nat) :
    ((List.range count).flatMap cell).length = width * count := by
  induction count with
  | zero => rfl
  | succ count ih =>
      rw [List.range_succ, List.flatMap_append, List.flatMap_singleton, List.length_append, ih,
        whole, Nat.mul_succ]

/-- Cells that are written in order are one store. -/
theorem foldl_store (memory : Nat → Value) (start count : Nat) :
    (List.range count).foldl
        (fun memory index => store memory (start + width * index) (cell index)) memory =
      store memory start ((List.range count).flatMap cell) := by
  induction count with
  | zero =>
      funext address
      exact (store_of_outside memory (Nat.lt_or_ge address start)).symm
  | succ count ih =>
      rw [List.range_succ, List.foldl_concat, ih, List.flatMap_append, List.flatMap_singleton,
        ← store_append, length_cells whole]

/-- A cell among the others. -/
theorem slice_cells {index count : Nat} (inside : index < count) :
    slice ((List.range count).flatMap cell) (width * index) width = cell index := by
  obtain ⟨behind, rfl⟩ := Nat.exists_eq_add_of_lt inside
  have split : List.range (index + behind + 1) =
      List.range index ++ index :: (List.range behind).map (index + 1 + ·) := by
    rw [Nat.add_right_comm, List.range_add, List.range_succ, List.append_assoc]
    rfl
  rw [slice, split, List.flatMap_append, List.flatMap_cons,
    List.drop_left' (length_cells whole index), List.take_left' (whole index)]

/-- What is at a place of the cells. -/
theorem getElem?_cells (count index : Nat) :
    ((List.range count).flatMap cell)[index]? =
      if index < width * count then (cell (index / width))[index % width]? else none := by
  split
  next inside =>
      have positive : 0 < width := by
        rcases Nat.eq_zero_or_pos width with rfl | positive
        · omega
        · exact positive
      have inCells : index / width < count := Nat.div_lt_of_lt_mul inside
      rw [← slice_cells whole inCells, slice, List.getElem?_take_of_lt (Nat.mod_lt _ positive),
        List.getElem?_drop, Nat.div_add_mod]
  next outside =>
      apply List.getElem?_eq_none
      rw [length_cells whole]
      exact Nat.le_of_not_lt outside

/-- A cell is read back. -/
theorem load_cells (memory : Nat → Value) (start : Nat) {index count : Nat}
    (inside : index < count) :
    load (store memory start ((List.range count).flatMap cell)) (start + width * index) width =
      cell index := by
  have fits : width * index + width ≤ width * count := by
    rw [← Nat.mul_succ]
    exact Nat.mul_le_mul_left width inside
  rw [← slice_load _ start fits, load_store_self memory start (length_cells whole count),
    slice_cells whole inside]

end

/-! ## Rows -/

/-- The rows of a picture in order. -/
def rows (cell : Nat → Nat → List Value) (height columns : Nat) : List Value :=
  (List.range height).flatMap fun row => (List.range columns).flatMap (cell row)

section

variable {width : Nat} {cell : Nat → Nat → List Value}
variable (whole : ∀ row column, (cell row column).length = width)
include whole

theorem length_rows (height columns : Nat) :
    (rows cell height columns).length = width * columns * height :=
  length_cells (fun row => length_cells (whole row) columns) height

/-- A picture that is written row by row is one store. -/
theorem foldl_rows (memory : Nat → Value) (start height columns : Nat) :
    (List.range height).foldl
        (fun memory row =>
          (List.range columns).foldl
            (fun memory column =>
              store memory (start + width * (row * columns + column)) (cell row column))
            memory)
        memory =
      store memory start (rows cell height columns) := by
  rw [rows, ← foldl_store fun row => length_cells (whole row) columns]
  congr 1
  funext memory row
  rw [← foldl_store (whole row)]
  congr 1
  funext memory column
  rw [Nat.mul_add, Nat.add_assoc, Nat.mul_assoc, Nat.mul_comm row]

/-- What is at a place of the rows. -/
theorem getElem?_rows (height columns index : Nat) :
    (rows cell height columns)[index]? =
      if index < width * columns * height then
        (cell (index / width / columns) (index / width % columns))[index % width]?
      else none := by
  have whole' := fun row => length_cells (whole row) columns
  rw [rows, getElem?_cells whole']
  split
  next inside =>
      have positive : 0 < width * columns := by
        rcases Nat.eq_zero_or_pos (width * columns) with zero | positive
        · rw [zero, Nat.zero_mul] at inside
          exact absurd inside (Nat.not_lt_zero index)
        · exact positive
      rw [getElem?_cells (whole _), if_pos (Nat.mod_lt index positive), Nat.div_div_eq_div_mul,
        Nat.mod_mul_right_div_self, Nat.mod_mul_right_mod]
  next => rfl

/-- A cell is read back by its row and column. -/
theorem load_rows (memory : Nat → Value) (start : Nat) {row column height columns : Nat}
    (rowInside : row < height) (columnInside : column < columns) :
    load (store memory start (rows cell height columns))
        (start + width * (row * columns + column)) width =
      cell row column := by
  have whole' := fun row => length_cells (whole row) columns
  have fits : width * column + width ≤ width * columns := by
    rw [← Nat.mul_succ]
    exact Nat.mul_le_mul_left width columnInside
  have place : start + width * (row * columns + column) =
      start + width * columns * row + width * column := by
    rw [Nat.mul_add, Nat.add_assoc, Nat.mul_assoc, Nat.mul_comm row]
  rw [place, ← slice_load _ _ fits, rows, load_cells whole' memory start rowInside,
    slice_cells (whole row) columnInside]

end

end Mini2440.Raster
