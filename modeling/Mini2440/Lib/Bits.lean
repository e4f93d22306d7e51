import Mathlib.Data.Nat.Bitwise

/-!
# The bits of a register

A 32-bit word as a function from bit numbers.  Masks, shifts and complements are computed
bit by bit, so that what an expression over registers changes is read off its bits, and a
field is the part of a word from one bit on.
-/

namespace Mini2440.Bits

/-- The bit of a word. -/
def bit (word : UInt32) (index : Nat) : Bool := word.toNat.testBit index

theorem eq_of_bit_eq {first second : UInt32}
    (same : ∀ index, bit first index = bit second index) : first = second :=
  UInt32.toNat_inj.mp (Nat.eq_of_testBit_eq same)

theorem bit_of_le (word : UInt32) {index : Nat} (outside : 32 ≤ index) :
    bit word index = false :=
  Nat.testBit_lt_two_pow (word.toNat_lt.trans_le (Nat.pow_le_pow_right Nat.two_pos outside))

@[simp] theorem bit_zero (index : Nat) : bit 0 index = false := Nat.zero_testBit index

@[simp] theorem bit_or (first second : UInt32) (index : Nat) :
    bit (first ||| second) index = (bit first index || bit second index) := by
  rw [bit, UInt32.toNat_or, Nat.testBit_or]
  rfl

@[simp] theorem bit_and (first second : UInt32) (index : Nat) :
    bit (first &&& second) index = (bit first index && bit second index) := by
  rw [bit, UInt32.toNat_and, Nat.testBit_and]
  rfl

theorem bit_not (word : UInt32) {index : Nat} (inside : index < 32) :
    bit (~~~word) index = !bit word index := by
  have complement : (~~~word).toNat = 2 ^ 32 - (word.toNat + 1) := by
    rw [UInt32.toNat_not, Nat.sub_sub, Nat.add_comm]
    rfl
  rw [bit, complement, Nat.testBit_two_pow_sub_succ word.toNat_lt, decide_eq_true inside,
    Bool.true_and]
  rfl

/-- A mask that is cleared. -/
@[simp] theorem bit_clear (word mask : UInt32) (index : Nat) :
    bit (word &&& ~~~mask) index = (bit word index && !bit mask index) := by
  rw [bit_and]
  rcases Nat.lt_or_ge index 32 with inside | outside
  · rw [bit_not mask inside]
  · rw [bit_of_le word outside, Bool.false_and, Bool.false_and]

theorem bit_shiftLeft (word : UInt32) {amount : UInt32} (small : amount.toNat < 32)
    (index : Nat) :
    bit (word <<< amount) index =
      (decide (amount.toNat ≤ index ∧ index < 32) && bit word (index - amount.toNat)) := by
  rw [bit, UInt32.toNat_shiftLeft, Nat.mod_eq_of_lt small, Nat.testBit_mod_two_pow,
    Nat.testBit_shiftLeft, Bool.decide_and, ← Bool.and_assoc,
    Bool.and_comm (decide (index < 32))]
  rfl

/-- A single bit. -/
theorem bit_one_shiftLeft {amount : UInt32} (small : amount.toNat < 32) (index : Nat) :
    bit (1 <<< amount) index = decide (index = amount.toNat) := by
  have one : ∀ index, bit 1 index = decide (index = 0) := by
    intro index
    rw [bit, UInt32.toNat_one, Bool.eq_iff_iff, Nat.testBit_one_eq_true_iff_self_eq_zero,
      decide_eq_true_iff]
  rw [bit_shiftLeft 1 small, one, ← Bool.decide_and, decide_eq_decide]
  omega

theorem bit_shiftRight (word : UInt32) {amount : UInt32} (small : amount.toNat < 32)
    (index : Nat) : bit (word >>> amount) index = bit word (amount.toNat + index) := by
  rw [bit, UInt32.toNat_shiftRight, Nat.mod_eq_of_lt small, Nat.testBit_shiftRight]
  rfl

/-! ## Fields -/

/-- The lowest bits of a word. -/
def lowMask (length : UInt32) : UInt32 := (1 <<< length) - 1

/-- The field of `length` bits from `offset` on. -/
def field (word offset length : UInt32) : UInt32 := (word >>> offset) &&& lowMask length

theorem bit_lowMask {length : UInt32} (small : length.toNat < 32) (index : Nat) :
    bit (lowMask length) index = decide (index < length.toNat) := by
  have power : ((1 : UInt32) <<< length).toNat = 2 ^ length.toNat := by
    rw [UInt32.toNat_shiftLeft, Nat.mod_eq_of_lt small, UInt32.toNat_one, Nat.one_shiftLeft]
    exact Nat.mod_eq_of_lt (Nat.pow_lt_pow_right Nat.one_lt_two small)
  have positive : (1 : UInt32) ≤ 1 <<< length := by
    rw [UInt32.le_iff_toNat_le, power]
    exact Nat.one_le_two_pow
  rw [bit, lowMask, UInt32.toNat_sub_of_le _ _ positive, power, UInt32.toNat_one,
    Nat.testBit_two_pow_sub_one]

theorem bit_field (word : UInt32) {offset length : UInt32} (offsetSmall : offset.toNat < 32)
    (lengthSmall : length.toNat < 32) (index : Nat) :
    bit (field word offset length) index =
      (bit word (offset.toNat + index) && decide (index < length.toNat)) := by
  rw [field, bit_and, bit_shiftRight word offsetSmall, bit_lowMask lengthSmall]

/-- A field as a number. -/
theorem toNat_field (word : UInt32) {offset length : UInt32} (offsetSmall : offset.toNat < 32)
    (lengthSmall : length.toNat < 32) :
    (field word offset length).toNat =
      word.toNat / 2 ^ offset.toNat % 2 ^ length.toNat := by
  apply Nat.eq_of_testBit_eq
  intro index
  rw [Nat.testBit_mod_two_pow, Nat.testBit_div_two_pow, Nat.add_comm, Bool.and_comm]
  exact bit_field word offsetSmall lengthSmall index

theorem field_or (first second : UInt32) {offset length : UInt32}
    (offsetSmall : offset.toNat < 32) (lengthSmall : length.toNat < 32) :
    field (first ||| second) offset length =
      field first offset length ||| field second offset length := by
  apply eq_of_bit_eq
  intro index
  simp only [bit_or, bit_field _ offsetSmall lengthSmall, Bool.and_or_distrib_right]

end Mini2440.Bits
