import Mini2440.Lib.Bits
import Mini2440.Lib.History

/-!
# The glue of the NAND controller

`14th-nand/s3c_nand.c` gives the NAND core two functions: one selects the chip, the other
latches a command or an address.  The second one asks only for `NAND_CLE`, so that a call
without a latch, or with no data to latch, is an address cycle all the same.
-/

namespace Mini2440.Nand

open Bits History

/-! ## The driver -/

/-- `NAND_CMD_NONE` of the NAND core: only the control lines change. -/
def NAND_CMD_NONE : Int32 := -1

/-- The control line of a command. -/
def NAND_CLE : UInt32 := 0x02

/-- The control line of an address. -/
def NAND_ALE : UInt32 := 0x04

/-- What a write to NFCMD or NFADDR makes the controller latch. -/
inductive Cycle where
  | command (dat : UInt32)
  | address (dat : UInt32)
  deriving DecidableEq, Repr

/-- NFCONT, and the cycles that NFCMD and NFADDR were written for. -/
structure Regs where
  nfcont : UInt32
  cycles : List Cycle
  deriving DecidableEq, Repr

/-- What `s3c_nand_init` leaves before the NAND core makes its first call. -/
def s3cNandInit : Regs where
  nfcont := ((1 : UInt32) <<< 1) ||| ((1 : UInt32) <<< 0)
  cycles := []

/-- `s3c2440_select_chip`. -/
def s3c2440SelectChip (chipnr : Int32) (regs : Regs) : Regs :=
  if chipnr = -1 then
    { regs with nfcont := regs.nfcont ||| ((1 : UInt32) <<< 1) }
  else
    { regs with nfcont := regs.nfcont &&& ~~~((1 : UInt32) <<< 1) }

/-- `s3c2440_cmd_ctrl`. -/
def s3c2440CmdCtrl (dat : Int32) (ctrl : UInt32) (regs : Regs) : Regs :=
  if ctrl &&& NAND_CLE ≠ 0 then
    { regs with cycles := regs.cycles ++ [.command dat.toUInt32] }
  else
    { regs with cycles := regs.cycles ++ [.address dat.toUInt32] }

/-- A call of the NAND core. -/
inductive Call where
  | selectChip (chipnr : Int32)
  | cmdCtrl (dat : Int32) (ctrl : UInt32)
  deriving DecidableEq, Repr

/-- The registers after one call. -/
def Call.apply (regs : Regs) : Call → Regs
  | .selectChip chipnr => s3c2440SelectChip chipnr regs
  | .cmdCtrl dat ctrl => s3c2440CmdCtrl dat ctrl regs

/-- The registers after the calls, in order. -/
def regsAfter (calls : List Call) : Regs := after Call.apply s3cNandInit calls

/-! ## What the core asks for -/

/-- The cycles that the call asks for. -/
def Call.asked : Call → List Cycle
  | .selectChip _ => []
  | .cmdCtrl dat ctrl =>
      if dat = NAND_CMD_NONE then []
      else
        (if ctrl &&& NAND_CLE ≠ 0 then [.command dat.toUInt32] else []) ++
          if ctrl &&& NAND_ALE ≠ 0 then [.address dat.toUInt32] else []

/-- The argument of a `select_chip`. -/
def Call.chipnr? : Call → Option Int32
  | .selectChip chipnr => some chipnr
  | .cmdCtrl .. => none

/-- The argument of the last `select_chip`. -/
def lastChipnr (calls : List Call) : Option Int32 := last Call.chipnr? calls

/-- Bit 1 of NFCONT is low: the chip is selected. -/
def Regs.Selected (regs : Regs) : Prop := bit regs.nfcont 1 = false

/-- After each of the calls the latched cycles are the ones asked for, in order, the chip is
selected as the last `select_chip` says, and no other bit of NFCONT has changed. -/
structure DrivesAsAsked (calls : List Call) : Prop where
  cycles : ∀ earlier, earlier <+: calls →
    (regsAfter earlier).cycles = earlier.flatMap Call.asked
  selected : ∀ earlier, earlier <+: calls →
    ((regsAfter earlier).Selected ↔ ∃ chipnr, lastChipnr earlier = some chipnr ∧ chipnr ≠ -1)
  others : ∀ earlier, earlier <+: calls → ∀ index, index ≠ 1 →
    bit (regsAfter earlier).nfcont index = bit s3cNandInit.nfcont index

/-- The call has data to latch and sets exactly one of `NAND_CLE` and `NAND_ALE`, or it is
no call of `cmd_ctrl`. -/
def Call.OneLatch : Call → Prop
  | .selectChip _ => True
  | .cmdCtrl dat ctrl =>
      dat ≠ NAND_CMD_NONE ∧ (ctrl &&& NAND_CLE ≠ 0 ↔ ¬ ctrl &&& NAND_ALE ≠ 0)

/-! ## One call -/

/-- The cycles that the call makes the controller latch. -/
def Call.latched : Call → List Cycle
  | .selectChip _ => []
  | .cmdCtrl dat ctrl =>
      [if ctrl &&& NAND_CLE ≠ 0 then .command dat.toUInt32 else .address dat.toUInt32]

theorem apply_cycles (regs : Regs) (call : Call) :
    (call.apply regs).cycles = regs.cycles ++ call.latched := by
  cases call with
  | selectChip chipnr =>
      rw [Call.latched, List.append_nil, Call.apply, s3c2440SelectChip]
      split <;> rfl
  | cmdCtrl dat ctrl =>
      rw [Call.latched, Call.apply, s3c2440CmdCtrl]
      split <;> rfl

theorem latched_eq_asked_iff (call : Call) : call.latched = call.asked ↔ call.OneLatch := by
  cases call with
  | selectChip chipnr => exact iff_of_true rfl trivial
  | cmdCtrl dat ctrl =>
      unfold Call.latched Call.asked Call.OneLatch
      by_cases none : dat = NAND_CMD_NONE
      · simp [none]
      · by_cases cle : ctrl &&& NAND_CLE = 0 <;> by_cases ale : ctrl &&& NAND_ALE = 0 <;>
          simp [none, cle, ale]

/-- Of NFCONT only bit 1 is ever written, by `select_chip`. -/
theorem apply_others (regs : Regs) (call : Call) {index : Nat} (other : index ≠ 1) :
    bit (call.apply regs).nfcont index = bit regs.nfcont index := by
  have mask : bit ((1 : UInt32) <<< 1) index = false := by
    rw [bit_one_shiftLeft (by decide)]
    exact decide_eq_false other
  cases call with
  | selectChip chipnr =>
      rw [Call.apply, s3c2440SelectChip]
      split
      · rw [bit_or, mask, Bool.or_false]
      · rw [bit_clear, mask, Bool.not_false, Bool.and_true]
  | cmdCtrl dat ctrl =>
      rw [Call.apply, s3c2440CmdCtrl]
      split <;> rfl

theorem apply_select (regs : Regs) (call : Call) :
    bit (call.apply regs).nfcont 1 =
      (call.chipnr?.map fun chipnr => decide (chipnr = -1)).getD (bit regs.nfcont 1) := by
  have mask : bit ((1 : UInt32) <<< 1) 1 = true := by decide
  cases call with
  | selectChip chipnr =>
      rw [Call.apply, s3c2440SelectChip, Call.chipnr?, Option.map_some, Option.getD_some]
      split
      next deselect => rw [bit_or, mask, Bool.or_true, decide_eq_true deselect]
      next select =>
          rw [bit_clear, mask, Bool.not_true, Bool.and_false, decide_eq_false select]
  | cmdCtrl dat ctrl =>
      rw [Call.apply, s3c2440CmdCtrl, Call.chipnr?, Option.map_none, Option.getD_none]
      split <;> rfl

/-! ## The runs -/

theorem regsAfter_cycles (calls : List Call) :
    (regsAfter calls).cycles = calls.flatMap Call.latched :=
  after_log s3cNandInit calls Regs.cycles Call.latched apply_cycles

theorem regsAfter_others (calls : List Call) {index : Nat} (other : index ≠ 1) :
    bit (regsAfter calls).nfcont index = bit s3cNandInit.nfcont index :=
  after_unchanged s3cNandInit calls (fun regs => bit regs.nfcont index)
    fun regs call => apply_others regs call other

theorem regsAfter_select (calls : List Call) :
    bit (regsAfter calls).nfcont 1 =
      ((lastChipnr calls).map fun chipnr => decide (chipnr = -1)).getD true :=
  after_register s3cNandInit calls (fun regs => bit regs.nfcont 1) Call.chipnr?
    (fun chipnr => decide (chipnr = -1)) fun regs call _ => apply_select regs call

theorem regsAfter_selected_iff (calls : List Call) :
    (regsAfter calls).Selected ↔ ∃ chipnr, lastChipnr calls = some chipnr ∧ chipnr ≠ -1 := by
  rw [Regs.Selected, regsAfter_select]
  cases lastChipnr calls with
  | none => simp
  | some chipnr => simp

/-- Selection is always right; the cycles are the ones asked for exactly when every call of
`cmd_ctrl` has data to latch and sets exactly one latch flag. -/
theorem drivesAsAsked_iff (calls : List Call) :
    DrivesAsAsked calls ↔ ∀ call ∈ calls, call.OneLatch := by
  constructor
  · intro drives call member
    obtain ⟨earlier, later, rfl⟩ := List.append_of_mem member
    have before := drives.cycles earlier (List.prefix_append _ _)
    have after := drives.cycles (earlier ++ [call]) ⟨later, by rw [List.append_assoc]; rfl⟩
    rw [regsAfter, after_concat, ← regsAfter, apply_cycles, before, List.flatMap_append,
      List.flatMap_singleton] at after
    exact (latched_eq_asked_iff call).mp (List.append_cancel_left after)
  · intro oneLatch
    constructor
    case cycles =>
        intro earlier isPrefix
        rw [regsAfter_cycles]
        apply List.flatMap_congr
        intro call member
        exact (latched_eq_asked_iff call).mpr (oneLatch call (isPrefix.subset member))
    case selected => exact fun earlier _ => regsAfter_selected_iff earlier
    case others => exact fun earlier _ index other => regsAfter_others earlier other

/-- The call with which the core ends a command sequence is an address cycle. -/
theorem not_drivesAsAsked :
    ¬ DrivesAsAsked [.selectChip 0, .cmdCtrl 0xff 0x83, .cmdCtrl NAND_CMD_NONE 0x81] := by
  intro drives
  exact absurd (drives.cycles _ (List.prefix_refl _)) (by decide)

end Mini2440.Nand
