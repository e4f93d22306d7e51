import Mathlib.Algebra.GroupWithZero.Nat
import Mathlib.Data.Nat.ModEq

/-!
# One's complement sums

Addition with end-around carry of numbers below a base, the sum of a list in it, and the
fold of a number of two digits.  All of it is addition modulo `base - 1`, in which zero is
told from `base - 1` only because a sum is zero when all its terms are.  That makes the
complement of a sum a checksum: put in the place of a zero, it makes the sum full.
-/

namespace Mini2440.OnesComplement

/-- Addition with end-around carry. -/
def add (base first second : Nat) : Nat :=
  (first + second) % base + (first + second) / base

/-- The one's complement sum of a list. -/
def sum (base : Nat) (words : List Nat) : Nat := words.foldl (add base) 0

/-- The two digits of a number added. -/
def fold (base value : Nat) : Nat := add base (value / base) (value % base)

/-- The complement of the folded sum of words of two digits. -/
def checksum (base : Nat) (words : List Nat) : Nat :=
  base - 1 - fold base (sum (base * base) words)

variable {base : Nat}

/-! ## Addition -/

theorem add_modEq (positive : 0 < base) (first second : Nat) :
    add base first second ≡ first + second [MOD base - 1] := by
  have carry : (first + second) / base ≡
      base * ((first + second) / base) [MOD base - 1] := by
    simpa only [Nat.one_mul] using
      ((Nat.modEq_sub positive).mul_right ((first + second) / base)).symm
  calc add base first second
      ≡ (first + second) % base + base * ((first + second) / base) [MOD base - 1] :=
        Nat.ModEq.add_left _ carry
    _ = first + second := Nat.mod_add_div (first + second) base

theorem add_lt {first second : Nat} (firstLt : first < base) (secondLt : second < base) :
    add base first second < base := by
  unfold add
  rcases Nat.lt_or_ge (first + second) base with noCarry | carry
  · rw [Nat.mod_eq_of_lt noCarry, Nat.div_eq_of_lt noCarry]
    exact noCarry
  · have one : (first + second) / base = 1 := Nat.div_eq_of_lt_le (by omega) (by omega)
    have digits := Nat.mod_add_div (first + second) base
    rw [one] at digits ⊢
    omega

theorem add_eq_zero_iff (base first second : Nat) :
    add base first second = 0 ↔ first = 0 ∧ second = 0 := by
  constructor
  · intro zero
    obtain ⟨noDigit, noCarry⟩ := Nat.add_eq_zero_iff.mp zero
    have digits := Nat.mod_add_div (first + second) base
    rw [noDigit, noCarry, Nat.mul_zero] at digits
    exact Nat.add_eq_zero_iff.mp digits.symm
  · rintro ⟨rfl, rfl⟩
    rw [add, Nat.zero_mod, Nat.zero_div]

/-! ## Sums -/

theorem foldl_modEq (positive : 0 < base) (words : List Nat) (start : Nat) :
    words.foldl (add base) start ≡ start + words.sum [MOD base - 1] := by
  induction words generalizing start with
  | nil => exact Nat.ModEq.refl start
  | cons word words ih =>
      rw [List.foldl_cons, List.sum_cons, ← Nat.add_assoc]
      exact (ih _).trans ((add_modEq positive start word).add_right words.sum)

theorem sum_modEq (positive : 0 < base) (words : List Nat) :
    sum base words ≡ words.sum [MOD base - 1] := by
  have start := foldl_modEq positive words 0
  rwa [Nat.zero_add] at start

theorem foldl_lt {words : List Nat} (digits : ∀ word ∈ words, word < base) {start : Nat}
    (startLt : start < base) : words.foldl (add base) start < base := by
  induction words generalizing start with
  | nil => exact startLt
  | cons word words ih =>
      have wordLt := digits word List.mem_cons_self
      exact ih (fun other member => digits other (List.mem_cons_of_mem word member))
        (add_lt startLt wordLt)

theorem sum_lt (positive : 0 < base) {words : List Nat}
    (digits : ∀ word ∈ words, word < base) : sum base words < base :=
  foldl_lt digits positive

theorem foldl_eq_zero_iff (words : List Nat) (start : Nat) :
    words.foldl (add base) start = 0 ↔ start = 0 ∧ words.sum = 0 := by
  induction words generalizing start with
  | nil => simp
  | cons word words ih =>
      rw [List.foldl_cons, ih, add_eq_zero_iff, List.sum_cons, Nat.add_eq_zero_iff, and_assoc]

/-- Only zeros add up to zero. -/
theorem sum_eq_zero_iff (words : List Nat) : sum base words = 0 ↔ words.sum = 0 := by
  rw [sum, foldl_eq_zero_iff, eq_self_iff_true, true_and]

/-! ## The fold -/

theorem fold_modEq (positive : 0 < base) (value : Nat) :
    fold base value ≡ value [MOD base - 1] := by
  have high : value / base ≡ base * (value / base) [MOD base - 1] := by
    simpa only [Nat.one_mul] using ((Nat.modEq_sub positive).mul_right (value / base)).symm
  calc fold base value
      ≡ value / base + value % base [MOD base - 1] := add_modEq positive _ _
    _ ≡ base * (value / base) + value % base [MOD base - 1] := high.add_right _
    _ = value := Nat.div_add_mod value base

theorem fold_lt {value : Nat} (twoDigits : value < base * base) : fold base value < base := by
  have positive : 0 < base := Nat.pos_of_mul_pos_left (Nat.zero_lt_of_lt twoDigits)
  exact add_lt (Nat.div_lt_of_lt_mul twoDigits) (Nat.mod_lt value positive)

theorem fold_eq_zero_iff (base value : Nat) : fold base value = 0 ↔ value = 0 := by
  rw [fold, add_eq_zero_iff]
  constructor
  · rintro ⟨high, low⟩
    rw [← Nat.div_add_mod value base, high, low, Nat.mul_zero]
  · rintro rfl
    exact ⟨Nat.zero_div base, Nat.zero_mod base⟩

/-- The folded sum of words of two digits is their sum modulo `base - 1`. -/
theorem fold_sum_modEq (positive : 0 < base) (words : List Nat) :
    fold base (sum (base * base) words) ≡ words.sum [MOD base - 1] := by
  have divides : base - 1 ∣ base * base - 1 :=
    ⟨base + 1, (Nat.mul_self_sub_mul_self_eq base 1).trans (Nat.mul_comm _ _)⟩
  exact (fold_modEq positive _).trans
    ((sum_modEq (Nat.mul_pos positive positive) words).of_dvd divides)

/-! ## The checksum -/

/-- A folded sum that is zero modulo `base - 1` is full, unless all is zero. -/
theorem fold_sum_full {words : List Nat} (twoDigits : ∀ word ∈ words, word < base * base)
    (positive : 0 < base) (zero : words.sum ≡ 0 [MOD base - 1]) (nonzero : words.sum ≠ 0) :
    fold base (sum (base * base) words) = base - 1 := by
  have below : fold base (sum (base * base) words) < base :=
    fold_lt (sum_lt (Nat.mul_pos positive positive) twoDigits)
  have divides : base - 1 ∣ fold base (sum (base * base) words) :=
    (Nat.modEq_zero_iff_dvd).mp ((fold_sum_modEq positive words).trans zero)
  by_contra notFull
  have folded := Nat.eq_zero_of_dvd_of_lt divides (by omega)
  rw [fold_eq_zero_iff, sum_eq_zero_iff] at folded
  exact nonzero folded

/-- With the checksum in the upper digit of a word that had none there, the folded sum is
full. -/
theorem fold_sum_checksum (twoOrMore : 1 < base) {front rest : List Nat} {word : Nat}
    (oneDigit : word < base) (twoDigits : ∀ other ∈ front ++ rest, other < base * base) :
    fold base (sum (base * base)
      (front ++ (word + base * checksum base (front ++ word :: rest)) :: rest)) = base - 1 := by
  have positive : 0 < base := Nat.zero_lt_of_lt twoOrMore
  generalize renewed : checksum base (front ++ word :: rest) = check
  have total : (front ++ (word + base * check) :: rest).sum =
      (front ++ word :: rest).sum + base * check := by
    simp only [List.sum_append, List.sum_cons]
    omega
  have between : ∀ middle, middle < base * base →
      ∀ other ∈ front ++ middle :: rest, other < base * base := by
    intro middle middleBelow
    rw [List.forall_mem_append] at twoDigits
    rw [List.forall_mem_append, List.forall_mem_cons]
    exact ⟨twoDigits.1, middleBelow, twoDigits.2⟩
  have wordBelow : word < base * base :=
    oneDigit.trans_le (Nat.le_mul_of_pos_left base positive)
  have renewedBelow : word + base * check < base * base := by
    have digit : check + 1 ≤ base := by
      rw [← renewed, checksum]
      omega
    calc word + base * check < base + base * check := Nat.add_lt_add_right oneDigit _
      _ = base * (check + 1) := by rw [Nat.mul_succ, Nat.add_comm]
      _ ≤ base * base := Nat.mul_le_mul_left base digit
  apply fold_sum_full (between _ renewedBelow) positive
  · -- the words with the checksum are congruent to the fold and its complement
    rw [total]
    have below : fold base (sum (base * base) (front ++ word :: rest)) < base :=
      fold_lt (sum_lt (Nat.mul_pos positive positive) (between word wordBelow))
    have folded := fold_sum_modEq positive (front ++ word :: rest)
    have unit : base * check ≡ check [MOD base - 1] := by
      simpa only [Nat.one_mul] using (Nat.modEq_sub positive).mul_right check
    have complement : fold base (sum (base * base) (front ++ word :: rest)) + check =
        base - 1 := by
      rw [← renewed, checksum]
      omega
    calc (front ++ word :: rest).sum + base * check
        ≡ fold base (sum (base * base) (front ++ word :: rest)) + check [MOD base - 1] :=
          folded.symm.add unit
      _ = base - 1 := complement
      _ ≡ 0 [MOD base - 1] := Nat.modEq_zero_iff_dvd.mpr (Nat.dvd_refl _)
  · intro zero
    rw [total, Nat.add_eq_zero_iff] at zero
    have noCheck : check = 0 := by
      rcases Nat.mul_eq_zero.mp zero.2 with noBase | noCheck
      · omega
      · exact noCheck
    have noFold : fold base (sum (base * base) (front ++ word :: rest)) = 0 := by
      rw [fold_eq_zero_iff, sum_eq_zero_iff]
      exact zero.1
    rw [← renewed, checksum, noFold] at noCheck
    omega

end Mini2440.OnesComplement
