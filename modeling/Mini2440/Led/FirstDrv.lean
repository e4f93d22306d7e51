import Mini2440.Lib.Bits
import Mini2440.Lib.History
import Mini2440.Lib.Memory

/-!
# The LED driver

`first_drv_write` of `led/first_drv.c` copies as many bytes as the user says onto an `int` on
its stack and lights the LEDs when that holds 1.  Bytes that the user did not give are
whatever the stack held, so the decision is the user's only for writes of the size of the
`int`, or for shorter ones that cannot be the beginning of a 1.
-/

namespace Mini2440.Led

open Bits History Memory

/-! ## The driver -/

/-- The error number of a failed copy. -/
def EFAULT : Int := 14

/-- `sizeof(des_val)`. -/
def sizeofInt : Nat := 4

/-- The registers of port B, and the offsets from `&des_val` that the copies stored to. -/
structure FirstDrv where
  gpbcon : UInt32
  gpbdat : UInt32
  stored : List Nat

/-- The fields of GPB5 to GPB8 in GPBCON. -/
def conFields : UInt32 :=
  ((0x3 : UInt32) <<< (5 * 2)) ||| ((0x3 : UInt32) <<< (6 * 2)) |||
    ((0x3 : UInt32) <<< (7 * 2)) ||| ((0x3 : UInt32) <<< (8 * 2))

/-- The same fields set to output. -/
def conOutput : UInt32 :=
  ((0x1 : UInt32) <<< (5 * 2)) ||| ((0x1 : UInt32) <<< (6 * 2)) |||
    ((0x1 : UInt32) <<< (7 * 2)) ||| ((0x1 : UInt32) <<< (8 * 2))

/-- The bits of GPB5 to GPB8 in GPBDAT. -/
def datPins : UInt32 :=
  ((1 : UInt32) <<< 5) ||| ((1 : UInt32) <<< 6) ||| ((1 : UInt32) <<< 7) |||
    ((1 : UInt32) <<< 8)

/-- `first_drv_open`. -/
def firstDrvOpen (drv : FirstDrv) : FirstDrv :=
  let drv := { drv with gpbcon := drv.gpbcon &&& ~~~conFields }
  { drv with gpbcon := drv.gpbcon ||| conOutput }

/-- `copy_from_user(&des_val, buf, n)`, where `user` are the bytes that can be read from
`buf` on: the result is the number of bytes that could not be copied, and these are set to
zero. -/
def copyFromUser (memory : Nat → UInt8) (user : List UInt8) (n : Nat) :
    (Nat → UInt8) × Nat :=
  (store memory 0 (user.take n ++ List.replicate (n - user.length) 0), n - user.length)

/-- An unsigned little-endian number. -/
def leValue (bytes : List UInt8) : Nat :=
  bytes.foldr (fun byte rest => byte.toNat + 256 * rest) 0

/-- `first_drv_write`; `stack` is what the memory from `&des_val` on holds before. -/
def firstDrvWrite (count : Nat) (user : List UInt8) (stack : Nat → UInt8) (drv : FirstDrv) :
    Int × FirstDrv :=
  let (memory, left) := copyFromUser stack user count
  let drv := { drv with stored := drv.stored ++ List.range count }
  if left ≠ 0 then
    (-EFAULT, drv)
  else if 1 = leValue (load memory 0 sizeofInt) then
    (0, { drv with gpbdat := drv.gpbdat &&& ~~~datPins })
  else
    (0, { drv with gpbdat := drv.gpbdat ||| datPins })

/-- The calls of the two functions, with what they find in the user's memory and on the
stack. -/
inductive Call where
  | opened
  | write (count : Nat) (user : List UInt8) (stack : Nat → UInt8)

/-- The driver after one call. -/
def Call.apply (drv : FirstDrv) : Call → FirstDrv
  | .opened => firstDrvOpen drv
  | .write count user stack => (firstDrvWrite count user stack drv).2

/-- After `first_drv_init`, with whatever the registers hold. -/
def firstDrvInit (gpbcon gpbdat : UInt32) : FirstDrv := ⟨gpbcon, gpbdat, []⟩

/-- The driver after the calls, in order. -/
def drvAfter (gpbcon gpbdat : UInt32) (calls : List Call) : FirstDrv :=
  after Call.apply (firstDrvInit gpbcon gpbdat) calls

/-! ## The law -/

/-- The bytes that a write carried, if its copy succeeded. -/
def Call.carried? : Call → Option (List UInt8)
  | .opened => none
  | .write count user _ => if count ≤ user.length then some (user.take count) else none

/-- What the last successful write carried. -/
def lastCarried (calls : List Call) : Option (List UInt8) := last Call.carried? calls

/-- The writes are safe: they store into `des_val` only and decide on copied bytes only, a
failed copy changes no register, nothing but the fields of GPB5 to GPB8 changes, and the
LEDs are low after a 1 and high after another value. -/
structure SafeWrites (gpbcon gpbdat : UInt32) (calls : List Call) : Prop where
  stored : ∀ offset ∈ (drvAfter gpbcon gpbdat calls).stored, offset < sizeofInt
  copied : ∀ earlier count user stack later,
    calls = earlier ++ .write count user stack :: later → ∀ other,
      firstDrvWrite count user other (drvAfter gpbcon gpbdat earlier) =
        firstDrvWrite count user stack (drvAfter gpbcon gpbdat earlier)
  failed : ∀ earlier count user stack later,
    calls = earlier ++ .write count user stack :: later →
      (firstDrvWrite count user stack (drvAfter gpbcon gpbdat earlier)).1 ≠ 0 →
        (drvAfter gpbcon gpbdat (earlier ++ [.write count user stack])).gpbcon =
            (drvAfter gpbcon gpbdat earlier).gpbcon ∧
          (drvAfter gpbcon gpbdat (earlier ++ [.write count user stack])).gpbdat =
            (drvAfter gpbcon gpbdat earlier).gpbdat
  con : ∀ earlier, earlier <+: calls → ∀ index, index < 5 * 2 ∨ 9 * 2 ≤ index →
    bit (drvAfter gpbcon gpbdat earlier).gpbcon index = bit gpbcon index
  dat : ∀ earlier, earlier <+: calls → ∀ index, index < 5 ∨ 9 ≤ index →
    bit (drvAfter gpbcon gpbdat earlier).gpbdat index = bit gpbdat index
  leds : ∀ earlier, earlier <+: calls → ∀ bytes, lastCarried earlier = some bytes →
    ∀ pin, 5 ≤ pin → pin < 9 →
      (bit (drvAfter gpbcon gpbdat earlier).gpbdat pin = false ↔ leValue bytes = 1)

/-- The bytes of the `int` 1. -/
def oneBytes : List UInt8 := [1, 0, 0, 0]

/-- The write is no longer than the `int`, and if it is shorter and the copy succeeds, its
bytes are not the first ones of a 1. -/
def Call.Whole : Call → Prop
  | .opened => True
  | .write count user _ =>
      count ≤ sizeofInt ∧
        (user.length < count ∨ count = sizeofInt ∨ user.take count ≠ oneBytes.take count)

/-! ## What a write decides -/

theorem leValue_eq_zero {bytes : List UInt8} (zero : leValue bytes = 0) :
    bytes = List.replicate bytes.length 0 := by
  induction bytes with
  | nil => rfl
  | cons byte rest ih =>
      rw [leValue, List.foldr_cons] at zero
      have low : byte = 0 := UInt8.toNat_inj.mp (show byte.toNat = 0 by omega)
      have high : leValue rest = 0 := by
        unfold leValue
        omega
      rw [low, List.length_cons, List.replicate_succ, ← ih high]

/-- Of at most four bytes only the first ones of a 1 have the value 1. -/
theorem take_of_leValue_eq_one {bytes : List UInt8} (short : bytes.length ≤ sizeofInt)
    (one : leValue bytes = 1) : bytes = oneBytes.take bytes.length := by
  cases bytes with
  | nil => rfl
  | cons byte rest =>
      rw [leValue, List.foldr_cons] at one
      have byteLt := byte.toNat_lt
      have low : byte = 1 := UInt8.toNat_inj.mp (show byte.toNat = 1 by omega)
      have high : leValue rest = 0 := by
        unfold leValue
        omega
      have restShort : rest.length ≤ 3 := Nat.le_of_succ_le_succ short
      have zeros : oneBytes = 1 :: List.replicate 3 0 := rfl
      rw [List.length_cons, zeros, List.take_succ_cons, List.take_replicate,
        Nat.min_eq_left restShort, ← leValue_eq_zero high, low]

/-- What `des_val` holds after a copy that succeeded. -/
theorem desVal_of_copied (stack : Nat → UInt8) {user : List UInt8} {count : Nat}
    (copied : count ≤ user.length) (short : count ≤ sizeofInt) :
    load (copyFromUser stack user count).1 0 sizeofInt =
      user.take count ++ load stack count (sizeofInt - count) := by
  have length : (user.take count).length = count := List.length_take_of_le copied
  have noneLeft : (copyFromUser stack user count).1 = store stack 0 (user.take count) := by
    rw [copyFromUser, Nat.sub_eq_zero_of_le copied, List.replicate_zero, List.append_nil]
  have around := load_store_within stack 0 0 (user.take count) (sizeofInt - count)
  rw [length, Nat.zero_add, Nat.zero_add, Nat.zero_add, Nat.add_sub_cancel' short] at around
  rw [noneLeft, around]
  rfl

/-- The write finds the value 1. -/
def Lights (count : Nat) (user : List UInt8) (stack : Nat → UInt8) : Prop :=
  1 = leValue (load (copyFromUser stack user count).1 0 sizeofInt)

instance (count : Nat) (user : List UInt8) (stack : Nat → UInt8) :
    Decidable (Lights count user stack) :=
  inferInstanceAs (Decidable (1 = leValue _))

/-- A write that is whole finds the value that it carried, whatever the stack held. -/
theorem lights_iff_of_whole (stack : Nat → UInt8) {user : List UInt8} {count : Nat}
    (copied : count ≤ user.length) (short : count ≤ sizeofInt)
    (whole : count = sizeofInt ∨ user.take count ≠ oneBytes.take count) :
    Lights count user stack ↔ leValue (user.take count) = 1 := by
  have length : (user.take count).length = count := List.length_take_of_le copied
  rw [Lights, desVal_of_copied stack copied short, eq_comm]
  rcases whole with rfl | differs
  · rw [Nat.sub_self]
    exact iff_of_eq (congrArg (leValue · = 1) (List.append_nil _))
  · apply iff_of_false
    · intro one
      have size : (user.take count ++ load stack count (sizeofInt - count)).length =
          sizeofInt := by
        rw [List.length_append, length, length_load]
        omega
      have desVal := take_of_leValue_eq_one (Nat.le_of_eq size) one
      rw [size] at desVal
      apply differs
      have front := congrArg (List.take count) desVal
      rw [List.take_left' length] at front
      exact front
    · intro one
      have bytes := take_of_leValue_eq_one (length.trans_le short) one
      rw [length] at bytes
      exact differs bytes

/-- A shorter write of the first bytes of a 1 finds what the stack held behind them. -/
theorem lights_of_stack {user : List UInt8} {count : Nat} (copied : count ≤ user.length)
    (short : count < sizeofInt) (first : user.take count = oneBytes.take count) :
    (∃ stack, Lights count user stack) ∧ ∃ stack, ¬ Lights count user stack := by
  have completed : ∀ count < sizeofInt, 1 = leValue (oneBytes.take count ++
      load (fun offset => oneBytes.getD offset 0) count (sizeofInt - count)) := by decide
  have spoiled : ∀ count < sizeofInt, ¬ 1 = leValue (oneBytes.take count ++
      load (fun _ => 0xff) count (sizeofInt - count)) := by decide
  constructor
  · refine ⟨fun offset => oneBytes.getD offset 0, ?_⟩
    rw [Lights, desVal_of_copied _ copied (Nat.le_of_lt short), first]
    exact completed count short
  · refine ⟨fun _ => 0xff, ?_⟩
    rw [Lights, desVal_of_copied _ copied (Nat.le_of_lt short), first]
    exact spoiled count short

/-- GPBDAT after a write whose copy succeeded. -/
def writtenDat (count : Nat) (user : List UInt8) (stack : Nat → UInt8) (gpbdat : UInt32) :
    UInt32 :=
  if Lights count user stack then gpbdat &&& ~~~datPins else gpbdat ||| datPins

/-! ## One call -/

theorem bit_datPins (index : Nat) : bit datPins index = decide (5 ≤ index ∧ index < 9) := by
  have mask : datPins = lowMask 4 <<< 5 := by decide
  rw [mask, bit_shiftLeft _ (by decide), bit_lowMask (by decide), ← Bool.decide_and,
    decide_eq_decide]
  change (5 ≤ index ∧ index < 32) ∧ index - 5 < 4 ↔ _
  omega

theorem bit_conFields (index : Nat) :
    bit conFields index = decide (5 * 2 ≤ index ∧ index < 9 * 2) := by
  have mask : conFields = lowMask 8 <<< 10 := by decide
  rw [mask, bit_shiftLeft _ (by decide), bit_lowMask (by decide), ← Bool.decide_and,
    decide_eq_decide]
  change (10 ≤ index ∧ index < 32) ∧ index - 10 < 8 ↔ _
  omega

theorem firstDrvWrite_of_failed {user : List UInt8} {count : Nat} (failed : user.length < count)
    (stack : Nat → UInt8) (drv : FirstDrv) :
    firstDrvWrite count user stack drv =
      (-EFAULT, { drv with stored := drv.stored ++ List.range count }) :=
  if_pos (Nat.sub_ne_zero_of_lt failed)

theorem firstDrvWrite_of_copied {user : List UInt8} {count : Nat} (copied : count ≤ user.length)
    (stack : Nat → UInt8) (drv : FirstDrv) :
    firstDrvWrite count user stack drv =
      (0, { drv with
        gpbdat := writtenDat count user stack drv.gpbdat
        stored := drv.stored ++ List.range count }) := by
  have left : ¬ count - user.length ≠ 0 := not_not.mpr (Nat.sub_eq_zero_of_le copied)
  by_cases lights : Lights count user stack
  · rw [writtenDat, if_pos lights]
    exact (if_neg left).trans (if_pos lights)
  · rw [writtenDat, if_neg lights]
    exact (if_neg left).trans (if_neg lights)

theorem firstDrvWrite_gpbdat {user : List UInt8} {count : Nat} (copied : count ≤ user.length)
    (stack : Nat → UInt8) (drv : FirstDrv) :
    (firstDrvWrite count user stack drv).2.gpbdat =
      writtenDat count user stack drv.gpbdat := by
  rw [firstDrvWrite_of_copied copied]

section

variable (count : Nat) (user : List UInt8) (stack : Nat → UInt8) (gpbdat : UInt32)

/-- The pins after a write: low if it found a 1, high if not. -/
theorem writtenDat_pin {pin : Nat} (above : 5 ≤ pin) (below : pin < 9) :
    bit (writtenDat count user stack gpbdat) pin = false ↔ Lights count user stack := by
  have inPins : bit datPins pin = true := by
    rw [bit_datPins]
    exact decide_eq_true ⟨above, below⟩
  unfold writtenDat
  split
  next on =>
      rw [bit_clear, inPins, Bool.not_true, Bool.and_false]
      exact iff_of_true rfl on
  next off =>
      rw [bit_or, inPins, Bool.or_true]
      exact iff_of_false Bool.noConfusion off

theorem writtenDat_other {index : Nat} (outside : index < 5 ∨ 9 ≤ index) :
    bit (writtenDat count user stack gpbdat) index = bit gpbdat index := by
  have notPin : bit datPins index = false := by
    rw [bit_datPins]
    exact decide_eq_false (by omega)
  unfold writtenDat
  split
  · rw [bit_clear, notPin, Bool.not_false, Bool.and_true]
  · rw [bit_or, notPin, Bool.or_false]

end

/-- Where the stack has no say, a shorter write is not the beginning of a 1. -/
theorem differs_of_decided {count : Nat} {user : List UInt8} {stack : Nat → UInt8}
    {drv : FirstDrv} (copied : count ≤ user.length) (short : count < sizeofInt)
    (decided : ∀ other,
      firstDrvWrite count user other drv = firstDrvWrite count user stack drv) :
    user.take count ≠ oneBytes.take count := by
  intro first
  obtain ⟨⟨onStack, on⟩, offStack, off⟩ := lights_of_stack copied short first
  have same := (decided onStack).trans (decided offStack).symm
  have samePins := congrArg (·.2.gpbdat) same
  rw [firstDrvWrite_gpbdat copied, firstDrvWrite_gpbdat copied] at samePins
  have onPin :=
    (writtenDat_pin count user onStack drv.gpbdat (Nat.le_refl 5) (by decide)).mpr on
  rw [samePins] at onPin
  exact off ((writtenDat_pin count user offStack _ (Nat.le_refl 5) (by decide)).mp onPin)

/-- In a whole write the stack has no say. -/
theorem decided_of_whole {count : Nat} {user : List UInt8} {stack : Nat → UInt8}
    (whole : (Call.write count user stack).Whole) (other : Nat → UInt8) (drv : FirstDrv) :
    firstDrvWrite count user other drv = firstDrvWrite count user stack drv := by
  rcases Nat.lt_or_ge user.length count with failed | copied
  · rw [firstDrvWrite_of_failed failed, firstDrvWrite_of_failed failed]
  · have sized := whole.2.resolve_left (Nat.not_lt_of_le copied)
    have decided := (lights_iff_of_whole other copied whole.1 sized).trans
      (lights_iff_of_whole stack copied whole.1 sized).symm
    rw [firstDrvWrite_of_copied copied, firstDrvWrite_of_copied copied]
    simp only [writtenDat, decided]

theorem apply_con (drv : FirstDrv) (call : Call) {index : Nat}
    (outside : index < 5 * 2 ∨ 9 * 2 ≤ index) :
    bit (call.apply drv).gpbcon index = bit drv.gpbcon index := by
  cases call with
  | opened =>
      have notField : bit conFields index = false := by
        rw [bit_conFields]
        exact decide_eq_false (by omega)
      have subset : conOutput = conOutput &&& conFields := by decide
      have notOutput : bit conOutput index = false := by
        rw [subset, bit_and, notField, Bool.and_false]
      change bit ((drv.gpbcon &&& ~~~conFields) ||| conOutput) index = _
      rw [bit_or, bit_clear, notField, notOutput, Bool.not_false, Bool.and_true, Bool.or_false]
  | write count user stack =>
      rcases Nat.lt_or_ge user.length count with failed | copied
      · rw [Call.apply, firstDrvWrite_of_failed failed]
      · rw [Call.apply, firstDrvWrite_of_copied copied]

theorem apply_dat (drv : FirstDrv) (call : Call) {index : Nat}
    (outside : index < 5 ∨ 9 ≤ index) :
    bit (call.apply drv).gpbdat index = bit drv.gpbdat index := by
  cases call with
  | opened => rfl
  | write count user stack =>
      rcases Nat.lt_or_ge user.length count with failed | copied
      · rw [Call.apply, firstDrvWrite_of_failed failed]
      · rw [Call.apply, firstDrvWrite_gpbdat copied]
        exact writtenDat_other count user stack drv.gpbdat outside

/-- A pin is a register: a whole write that was copied sets it by the value it carried,
every other call leaves it. -/
theorem apply_pin (drv : FirstDrv) {call : Call} (whole : call.Whole) {pin : Nat}
    (above : 5 ≤ pin) (below : pin < 9) :
    bit (call.apply drv).gpbdat pin =
      (call.carried?.map fun bytes => !decide (leValue bytes = 1)).getD
        (bit drv.gpbdat pin) := by
  cases call with
  | opened => rfl
  | write count user stack =>
      rcases Nat.lt_or_ge user.length count with failed | copied
      · rw [Call.carried?, if_neg (Nat.not_le_of_lt failed), Call.apply,
          firstDrvWrite_of_failed failed]
        rfl
      · have sized := whole.2.resolve_left (Nat.not_lt_of_le copied)
        have low := (writtenDat_pin count user stack drv.gpbdat above below).trans
          (lights_iff_of_whole stack copied whole.1 sized)
        rw [Call.carried?, if_pos copied, Call.apply, firstDrvWrite_gpbdat copied,
          Option.map_some, Option.getD_some]
        by_cases one : leValue (user.take count) = 1
        · rw [low.mpr one, decide_eq_true one, Bool.not_true]
        · rw [decide_eq_false one, Bool.not_false]
          exact Bool.eq_true_of_not_eq_false fun isLow => one (low.mp isLow)

/-- The offsets from `&des_val` that the call stores to, failed copies included. -/
def Call.stores : Call → List Nat
  | .opened => []
  | .write count _ _ => List.range count

theorem apply_stored (drv : FirstDrv) (call : Call) :
    (call.apply drv).stored = drv.stored ++ call.stores := by
  cases call with
  | opened => exact (List.append_nil _).symm
  | write count user stack =>
      rcases Nat.lt_or_ge user.length count with failed | copied
      · rw [Call.apply, firstDrvWrite_of_failed failed]
        rfl
      · rw [Call.apply, firstDrvWrite_of_copied copied]
        rfl

/-! ## The runs -/

section

variable (gpbcon gpbdat : UInt32)

theorem drvAfter_stored (calls : List Call) :
    (drvAfter gpbcon gpbdat calls).stored = calls.flatMap Call.stores :=
  after_log (firstDrvInit gpbcon gpbdat) calls FirstDrv.stored Call.stores apply_stored

theorem drvAfter_con (calls : List Call) {index : Nat}
    (outside : index < 5 * 2 ∨ 9 * 2 ≤ index) :
    bit (drvAfter gpbcon gpbdat calls).gpbcon index = bit gpbcon index :=
  after_unchanged (firstDrvInit gpbcon gpbdat) calls (fun drv => bit drv.gpbcon index)
    fun drv call => apply_con drv call outside

theorem drvAfter_dat (calls : List Call) {index : Nat} (outside : index < 5 ∨ 9 ≤ index) :
    bit (drvAfter gpbcon gpbdat calls).gpbdat index = bit gpbdat index :=
  after_unchanged (firstDrvInit gpbcon gpbdat) calls (fun drv => bit drv.gpbdat index)
    fun drv call => apply_dat drv call outside

theorem drvAfter_leds {calls : List Call} (whole : ∀ call ∈ calls, call.Whole)
    {bytes : List UInt8} (last : lastCarried calls = some bytes) {pin : Nat} (above : 5 ≤ pin)
    (below : pin < 9) :
    bit (drvAfter gpbcon gpbdat calls).gpbdat pin = false ↔ leValue bytes = 1 := by
  have register : bit (drvAfter gpbcon gpbdat calls).gpbdat pin =
      ((lastCarried calls).map fun bytes => !decide (leValue bytes = 1)).getD
        (bit gpbdat pin) :=
    after_register (firstDrvInit gpbcon gpbdat) calls (fun drv => bit drv.gpbdat pin)
      Call.carried? _ fun drv call member => apply_pin drv (whole call member) above below
  rw [register, last, Option.map_some, Option.getD_some, Bool.not_eq_false', decide_eq_true_iff]

/-- The writes of a run are safe exactly when each is whole. -/
theorem safeWrites_iff (calls : List Call) :
    SafeWrites gpbcon gpbdat calls ↔ ∀ call ∈ calls, call.Whole := by
  constructor
  · intro safe call member
    obtain ⟨earlier, later, rfl⟩ := List.append_of_mem member
    cases call with
    | opened => trivial
    | write count user stack =>
        have short : count ≤ sizeofInt := by
          by_contra long
          have past : sizeofInt ∈ (drvAfter gpbcon gpbdat
              (earlier ++ .write count user stack :: later)).stored := by
            rw [drvAfter_stored]
            exact List.mem_flatMap.mpr
              ⟨_, member, List.mem_range.mpr (Nat.lt_of_not_le long)⟩
          exact Nat.lt_irrefl _ (safe.stored _ past)
        refine ⟨short, ?_⟩
        rcases Nat.lt_or_ge user.length count with failed | copied
        · exact .inl failed
        · refine .inr ?_
          rcases Nat.eq_or_lt_of_le short with full | shorter
          · exact .inl full
          · exact .inr (differs_of_decided copied shorter
              (safe.copied earlier count user stack later rfl))
  · intro whole
    constructor
    case stored =>
        intro offset member
        rw [drvAfter_stored] at member
        obtain ⟨call, called, stores⟩ := List.mem_flatMap.mp member
        cases call with
        | opened => exact absurd stores List.not_mem_nil
        | write count user stack =>
            exact Nat.lt_of_lt_of_le (List.mem_range.mp stores) (whole _ called).1
    case copied =>
        rintro earlier count user stack later rfl other
        have called : Call.write count user stack ∈
            earlier ++ .write count user stack :: later :=
          List.mem_append_right earlier List.mem_cons_self
        exact decided_of_whole (whole _ called) other _
    case failed =>
        intro earlier count user stack later split nonzero
        rw [drvAfter, after_concat, ← drvAfter, Call.apply]
        rcases Nat.lt_or_ge user.length count with failed | copied
        · rw [firstDrvWrite_of_failed failed]
          exact ⟨rfl, rfl⟩
        · rw [firstDrvWrite_of_copied copied] at nonzero
          exact absurd rfl nonzero
    case con => exact fun earlier _ index outside => drvAfter_con gpbcon gpbdat earlier outside
    case dat => exact fun earlier _ index outside => drvAfter_dat gpbcon gpbdat earlier outside
    case leds =>
        intro earlier isPrefix bytes last pin above below
        exact drvAfter_leds gpbcon gpbdat
          (fun call member => whole call (isPrefix.subset member)) last above below

end

/-- Five bytes reach past `des_val`, and one byte 1 leaves the decision to the stack. -/
theorem not_safeWrites :
    ¬ SafeWrites 0 0 [.opened, .write 5 [1, 0, 0, 0, 0] fun _ => 0] ∧
      ¬ SafeWrites 0 0 [.opened, .write 1 [1] fun _ => 0] := by
  constructor
  · intro safe
    exact absurd (safe.stored 4 (by decide)) (by decide)
  · intro safe
    have same := safe.copied [.opened] 1 [1] (fun _ => 0) [] rfl fun _ => 0xff
    have samePins := congrArg (fun result => result.2.gpbdat) same
    exact absurd samePins (by decide)

end Mini2440.Led
