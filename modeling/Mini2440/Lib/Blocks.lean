import Mathlib.Data.List.OfFn

/-!
# Blocks of a stream

A stream cut into consecutive blocks of one size, of which an incomplete last one is
dropped, and the same where some elements end the block in progress.  What a collector
with `pending` elements makes of the rest of the stream is told by the blocks of
`pending ++ rest`, and the rules below say how these go on with the next element.
-/

namespace Mini2440.Blocks

variable {Value : Type*} {size : Nat}

theorem blockIndex_lt {values : List Value} (index : Fin (values.length / size))
    (slot : Fin size) : index * size + slot < values.length := by
  have inBlock : index * size + slot < (index + 1) * size := by
    rw [Nat.succ_mul]
    exact Nat.add_lt_add_left slot.isLt _
  have inBlocks : (index + 1) * size ≤ values.length / size * size :=
    Nat.mul_le_mul_right size index.isLt
  exact (inBlock.trans_le inBlocks).trans_le (Nat.div_mul_le_self values.length size)

/-- The complete blocks of `size` consecutive elements. -/
def blocks (size : Nat) (values : List Value) : List (Fin size → Value) :=
  List.ofFn fun (index : Fin (values.length / size)) (slot : Fin size) =>
    values.get ⟨index * size + slot, blockIndex_lt index slot⟩

/-- The blocks of each of the pieces between the elements at which the stream is cut. -/
def cutBlocks (size : Nat) (isCut : Value → Bool) (values : List Value) :
    List (Fin size → Value) :=
  (values.splitOnP isCut).flatMap (blocks size)

/-! ## The next block -/

theorem blocks_of_short {values : List Value} (short : values.length < size) :
    blocks size values = [] := by
  rw [blocks, List.ofFn_eq_nil_iff]
  exact Nat.div_eq_of_lt short

theorem length_blocks (values : List Value) :
    (blocks size values).length = values.length / size := List.length_ofFn

theorem getElem?_of_block (values : List Value) (index : Nat)
    (inBlocks : index < (blocks size values).length) (slot : Fin size) :
    values[index * size + slot]? = some ((blocks size values)[index] slot) := by
  have inLength : index < values.length / size := by rwa [length_blocks] at inBlocks
  have entry : (blocks size values)[index] slot =
      values.get ⟨index * size + slot, blockIndex_lt ⟨index, inLength⟩ slot⟩ :=
    congrFun (List.getElem_ofFn _) slot
  rw [entry, List.get_eq_getElem, List.getElem?_eq_getElem]

theorem blocks_append (positive : 0 < size) (block : Fin size → Value)
    (rest : List Value) :
    blocks size (List.ofFn block ++ rest) = block :: blocks size rest := by
  apply List.ext_getElem
  · rw [List.length_cons, length_blocks, length_blocks, List.length_append,
      List.length_ofFn, Nat.add_div_left _ positive]
  · intro index inBlocks inCons
    funext slot
    have here := getElem?_of_block _ index inBlocks slot
    apply Option.some.inj
    rw [← here]
    cases index with
    | zero =>
        have inFirst : slot < (List.ofFn block).length := by
          rw [List.length_ofFn]
          exact slot.isLt
        rw [Nat.zero_mul, Nat.zero_add, List.getElem?_append_left inFirst,
          List.getElem?_ofFn, dif_pos slot.isLt, List.getElem_cons_zero]
    | succ index =>
        have next : (index + 1) * size + slot = size + (index * size + slot) := by
          rw [Nat.succ_mul]
          omega
        have afterFirst : (List.ofFn block).length ≤ (index + 1) * size + slot := by
          rw [List.length_ofFn, next]
          exact Nat.le_add_right size _
        rw [List.getElem?_append_right afterFirst, List.length_ofFn, next,
          Nat.add_sub_cancel_left, List.getElem_cons_succ]
        exact getElem?_of_block rest index (Nat.lt_of_succ_lt_succ inCons) slot

theorem blocks_map {Other : Type*} (toOther : Value → Other) (values : List Value) :
    blocks size (values.map toOther) =
      (blocks size values).map fun block slot => toOther (block slot) := by
  apply List.ext_getElem
  · rw [List.length_map, length_blocks, length_blocks, List.length_map]
  · intro index inBlocks inMap
    have inValues : index < (blocks size values).length := by rwa [List.length_map] at inMap
    rw [List.getElem_map]
    funext slot
    apply Option.some.inj
    rw [← getElem?_of_block _ index inBlocks slot, List.getElem?_map,
      getElem?_of_block values index inValues slot, Option.map_some]

/-- A list of the size of a block is one. -/
theorem exists_block {values : List Value} (full : values.length = size) :
    ∃ block : Fin size → Value, values = List.ofFn block := by
  subst full
  exact ⟨values.get, (List.ofFn_get values).symm⟩

/-- Every list is a short one or starts with a block. -/
theorem short_or_block (size : Nat) (values : List Value) :
    values.length < size ∨
      ∃ (block : Fin size → Value) (rest : List Value), values = List.ofFn block ++ rest := by
  rcases Nat.lt_or_ge values.length size with short | long
  · exact .inl short
  · obtain ⟨block, front⟩ := exists_block (List.length_take_of_le long)
    exact .inr ⟨block, values.drop size, by rw [← front, List.take_append_drop]⟩

/-- The blocks are parts of the list in its order, and none shares an element with
another. -/
theorem blocks_sublist (positive : 0 < size) (values : List Value) :
    ((blocks size values).flatMap List.ofFn).Sublist values := by
  induction length : values.length using Nat.strong_induction_on generalizing values with
  | h count ih =>
      rcases short_or_block size values with short | ⟨block, rest, rfl⟩
      · rw [blocks_of_short short]
        exact List.nil_sublist values
      · rw [blocks_append positive, List.flatMap_cons]
        refine (List.Sublist.refl _).append (ih rest.length ?_ rest rfl)
        rw [← length, List.length_append, List.length_ofFn]
        omega

/-! ## The next cut -/

section

variable {isCut : Value → Bool} {pending : List Value}

/-- While nothing has been cut, an incomplete block gives nothing. -/
theorem cutBlocks_of_short (uncut : ∀ value ∈ pending, isCut value = false)
    (short : pending.length < size) : cutBlocks size isCut pending = [] := by
  rw [cutBlocks, List.splitOnP_eq_singleton uncut, List.flatMap_singleton]
  exact blocks_of_short short

/-- What is not cut belongs to the first piece of the rest. -/
theorem splitOnP_append (uncut : ∀ value ∈ pending, isCut value = false)
    (rest : List Value) :
    (pending ++ rest).splitOnP isCut = (rest.splitOnP isCut).modifyHead (pending ++ ·) := by
  obtain ⟨head, tail, split⟩ := List.exists_cons_of_ne_nil (List.splitOnP_ne_nil isCut rest)
  induction pending with
  | nil => rw [List.nil_append, split, List.modifyHead_cons, List.nil_append]
  | cons value pending ih =>
      have notCut : ¬ isCut value = true := by
        rw [uncut value List.mem_cons_self]
        exact Bool.false_ne_true
      rw [List.cons_append, List.splitOnP_cons_eq_if_modifyHead, if_neg notCut,
        ih fun other member => uncut other (List.mem_cons_of_mem value member), split]
      rfl

/-- A cut drops the block in progress. -/
theorem cutBlocks_cut (uncut : ∀ value ∈ pending, isCut value = false)
    (short : pending.length < size) {cut : Value} (isCut_cut : isCut cut = true)
    (rest : List Value) :
    cutBlocks size isCut (pending ++ cut :: rest) = cutBlocks size isCut rest := by
  rw [cutBlocks, List.splitOnP_append_cons_of_forall_mem uncut cut isCut_cut,
    List.flatMap_cons, blocks_of_short short]
  rfl

/-- A block without a cut is the first one. -/
theorem cutBlocks_block (positive : 0 < size) {block : Fin size → Value}
    (uncut : ∀ slot, isCut (block slot) = false) (rest : List Value) :
    cutBlocks size isCut (List.ofFn block ++ rest) = block :: cutBlocks size isCut rest := by
  have uncutList : ∀ value ∈ List.ofFn block, isCut value = false := by
    intro value member
    obtain ⟨slot, rfl⟩ := (List.mem_ofFn' block value).mp member
    exact uncut slot
  obtain ⟨head, tail, split⟩ := List.exists_cons_of_ne_nil (List.splitOnP_ne_nil isCut rest)
  rw [cutBlocks, splitOnP_append uncutList, cutBlocks, split, List.modifyHead_cons,
    List.flatMap_cons, List.flatMap_cons, blocks_append positive, List.cons_append]

end

theorem splitOnP_map {Other : Type*} (toOther : Value → Other) (isCut : Other → Bool)
    (values : List Value) :
    (values.map toOther).splitOnP isCut =
      (values.splitOnP fun value => isCut (toOther value)).map (List.map toOther) := by
  induction values with
  | nil => rfl
  | cons value rest ih =>
      obtain ⟨head, tail, split⟩ := List.exists_cons_of_ne_nil
        (List.splitOnP_ne_nil (fun value => isCut (toOther value)) rest)
      rw [List.map_cons, List.splitOnP_cons_eq_if_modifyHead,
        List.splitOnP_cons_eq_if_modifyHead, ih, split]
      split <;> rfl

/-- Reading the elements as something else does not move the blocks. -/
theorem cutBlocks_map {Other : Type*} (toOther : Value → Other) (isCut : Other → Bool)
    (values : List Value) :
    cutBlocks size isCut (values.map toOther) =
      (cutBlocks size (fun value => isCut (toOther value)) values).map
        fun block slot => toOther (block slot) := by
  simp only [cutBlocks, splitOnP_map, List.flatMap_map, List.map_flatMap, blocks_map]

theorem flatten_splitOnP_sublist (isCut : Value → Bool) (values : List Value) :
    (values.splitOnP isCut).flatten.Sublist values := by
  induction values with
  | nil => exact List.Sublist.refl []
  | cons value rest ih =>
      obtain ⟨head, tail, split⟩ :=
        List.exists_cons_of_ne_nil (List.splitOnP_ne_nil isCut rest)
      rw [split] at ih
      rw [List.splitOnP_cons_eq_if_modifyHead, split]
      split
      · exact ih.cons value
      · exact ih.cons_cons value

theorem blocks_of_pieces_sublist (positive : 0 < size) (pieces : List (List Value)) :
    ((pieces.flatMap (blocks size)).flatMap List.ofFn).Sublist pieces.flatten := by
  induction pieces with
  | nil => exact List.Sublist.refl []
  | cons piece pieces ih =>
      rw [List.flatMap_cons, List.flatMap_append, List.flatten_cons]
      exact (blocks_sublist positive piece).append ih

/-- No element is in two blocks, and the blocks keep the order of the stream. -/
theorem cutBlocks_sublist (positive : 0 < size) (isCut : Value → Bool)
    (values : List Value) :
    ((cutBlocks size isCut values).flatMap List.ofFn).Sublist values :=
  (blocks_of_pieces_sublist positive _).trans (flatten_splitOnP_sublist isCut values)

end Mini2440.Blocks
