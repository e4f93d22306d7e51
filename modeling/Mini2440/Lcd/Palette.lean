import Mathlib.Logic.Function.Basic
import Mini2440.Lib.Bits
import Mini2440.Lib.History

/-!
# The pseudo-palette of the LCD

`s3c_lcdfb_setcolreg` of `10th-lcd/lcd.c` packs a colour into an entry of `pseudo_pal`.  Its
bound lets one register number too many through: the palette is a store of 16 entries for
exactly those sequences of calls in which no register number is 16.
-/

namespace Mini2440.Lcd

open Bits History

/-! ## The driver -/

/-- `struct fb_bitfield`, without `msb_right`. -/
structure FbBitfield where
  offset : UInt32
  length : UInt32
  deriving DecidableEq, Repr

/-- The three bit fields of `info->var`, the words from `info->pseudo_palette` on, and the
entries that were written. -/
structure FbInfo where
  red : FbBitfield
  green : FbBitfield
  blue : FbBitfield
  pseudoPalette : Nat → UInt32
  written : List Nat

/-- The number of entries of `pseudo_pal`. -/
def pseudoPalSize : Nat := 16

/-- What `lcd_init` sets up; `pseudo_pal` is static. -/
def lcdInit : FbInfo where
  red := ⟨16, 8⟩
  green := ⟨8, 8⟩
  blue := ⟨0, 8⟩
  pseudoPalette := fun _ => 0
  written := []

/-- `chan_to_field`. -/
def chanToField (chan : UInt32) (bf : FbBitfield) : UInt32 :=
  let chan := chan &&& 0xffff
  let chan := chan >>> (16 - bf.length)
  chan <<< bf.offset

/-- The arguments of a call. -/
structure Colreg where
  regno : UInt32
  red : UInt32
  green : UInt32
  blue : UInt32
  transp : UInt32
  deriving DecidableEq, Repr

/-- `s3c_lcdfb_setcolreg`; the result 1 means an unknown type. -/
def s3cLcdfbSetcolreg (call : Colreg) (info : FbInfo) : Int × FbInfo :=
  if call.regno > 16 then
    (1, info)
  else
    let val := chanToField call.red info.red
    let val := val ||| chanToField call.green info.green
    let val := val ||| chanToField call.blue info.blue
    (0, { info with
      pseudoPalette := Function.update info.pseudoPalette call.regno.toNat val
      written := info.written ++ [call.regno.toNat] })

/-- The calls in order. -/
def setcolregs (calls : List Colreg) (info : FbInfo) : FbInfo :=
  after (fun info call => (s3cLcdfbSetcolreg call info).2) info calls

/-! ## Packing -/

/-- The bit field lies in a word and takes at most 16 bits. -/
structure FbBitfield.Fits (bf : FbBitfield) : Prop where
  length : bf.length.toNat ≤ 16
  inWord : bf.offset.toNat + bf.length.toNat < 32

theorem bit_chanToField (chan : UInt32) {bf : FbBitfield} (fits : bf.Fits) (index : Nat) :
    bit (chanToField chan bf) index =
      (decide (bf.offset.toNat ≤ index ∧ index < bf.offset.toNat + bf.length.toNat) &&
        bit chan (16 - bf.length.toNat + (index - bf.offset.toNat))) := by
  have length := fits.length
  have inWord := fits.inWord
  have shift : (16 - bf.length).toNat = 16 - bf.length.toNat :=
    UInt32.toNat_sub_of_le _ _ (UInt32.le_iff_toNat_le.mpr length)
  have low : (0xffff : UInt32) = lowMask 16 := by decide
  rw [chanToField, bit_shiftLeft _ (by omega), bit_shiftRight _ (by omega), shift, bit_and,
    low, bit_lowMask (by decide)]
  rw [Bool.and_comm (bit chan _), ← Bool.and_assoc, ← Bool.decide_and]
  have sixteen : UInt32.toNat 16 = 16 := rfl
  congr 1
  rw [decide_eq_decide, sixteen]
  omega

/-- A field gives back the upper bits of the channel that was packed into it. -/
theorem field_chanToField_self (chan : UInt32) {bf : FbBitfield} (fits : bf.Fits) :
    field (chanToField chan bf) bf.offset bf.length =
      (chan &&& 0xffff) >>> (16 - bf.length) := by
  have length := fits.length
  have inWord := fits.inWord
  have shift : (16 - bf.length).toNat = 16 - bf.length.toNat :=
    UInt32.toNat_sub_of_le _ _ (UInt32.le_iff_toNat_le.mpr length)
  have low : (0xffff : UInt32) = lowMask 16 := by decide
  have sixteen : UInt32.toNat 16 = 16 := rfl
  apply eq_of_bit_eq
  intro index
  rw [bit_field _ (by omega) (by omega), bit_chanToField chan fits, bit_shiftRight _ (by omega),
    shift, bit_and, low, bit_lowMask (by decide), sixteen, Nat.add_sub_cancel_left]
  by_cases inField : index < bf.length.toNat
  · have inChannel : 16 - bf.length.toNat + index < 16 := by omega
    simp [inField, inChannel]
  · have past : ¬ 16 - bf.length.toNat + index < 16 := by omega
    simp [inField, past]

/-- A channel does not reach the bits of another field. -/
theorem field_chanToField_other (chan : UInt32) {bf : FbBitfield} (fits : bf.Fits)
    {offset length : UInt32} (offsetSmall : offset.toNat < 32) (lengthSmall : length.toNat < 32)
    (disjoint : offset.toNat + length.toNat ≤ bf.offset.toNat ∨
      bf.offset.toNat + bf.length.toNat ≤ offset.toNat) :
    field (chanToField chan bf) offset length = 0 := by
  apply eq_of_bit_eq
  intro index
  rw [bit_field _ offsetSmall lengthSmall, bit_chanToField chan fits, bit_zero]
  by_cases inField : index < length.toNat
  · have outside : ¬ (bf.offset.toNat ≤ offset.toNat + index ∧
        offset.toNat + index < bf.offset.toNat + bf.length.toNat) := by omega
    simp [outside]
  · simp [inField]

/-! ## The law of the palette -/

/-- The entry is the colour of the call: each bit field gives back the upper 8 bits of the
low 16 bits of its channel, and the byte above them is zero. -/
structure Holds (value : UInt32) (call : Colreg) : Prop where
  red : field value 16 8 = (call.red &&& 0xffff) >>> 8
  green : field value 8 8 = (call.green &&& 0xffff) >>> 8
  blue : field value 0 8 = (call.blue &&& 0xffff) >>> 8
  top : field value 24 8 = 0

/-- What `s3c_lcdfb_setcolreg` makes of a call that it accepts. -/
def packed (call : Colreg) : UInt32 :=
  chanToField call.red lcdInit.red ||| chanToField call.green lcdInit.green |||
    chanToField call.blue lcdInit.blue

theorem field_packed (call : Colreg) {offset length : UInt32}
    (offsetSmall : offset.toNat < 32) (lengthSmall : length.toNat < 32) :
    field (packed call) offset length =
      field (chanToField call.red lcdInit.red) offset length |||
          field (chanToField call.green lcdInit.green) offset length |||
        field (chanToField call.blue lcdInit.blue) offset length := by
  rw [packed, field_or _ _ offsetSmall lengthSmall, field_or _ _ offsetSmall lengthSmall]

theorem holds_packed (call : Colreg) : Holds (packed call) call := by
  have red : lcdInit.red.Fits := ⟨by decide, by decide⟩
  have green : lcdInit.green.Fits := ⟨by decide, by decide⟩
  have blue : lcdInit.blue.Fits := ⟨by decide, by decide⟩
  constructor
  case red =>
      rw [field_packed call (by decide) (by decide),
        field_chanToField_other call.green green (by decide) (by decide) (.inr (by decide)),
        field_chanToField_other call.blue blue (by decide) (by decide) (.inr (by decide)),
        UInt32.or_zero, UInt32.or_zero]
      exact field_chanToField_self call.red red
  case green =>
      rw [field_packed call (by decide) (by decide),
        field_chanToField_other call.red red (by decide) (by decide) (.inl (by decide)),
        field_chanToField_other call.blue blue (by decide) (by decide) (.inr (by decide)),
        UInt32.or_zero, UInt32.zero_or]
      exact field_chanToField_self call.green green
  case blue =>
      rw [field_packed call (by decide) (by decide),
        field_chanToField_other call.red red (by decide) (by decide) (.inl (by decide)),
        field_chanToField_other call.green green (by decide) (by decide) (.inl (by decide)),
        UInt32.or_zero, UInt32.zero_or]
      exact field_chanToField_self call.blue blue
  case top =>
      rw [field_packed call (by decide) (by decide),
        field_chanToField_other call.red red (by decide) (by decide) (.inr (by decide)),
        field_chanToField_other call.green green (by decide) (by decide) (.inr (by decide)),
        field_chanToField_other call.blue blue (by decide) (by decide) (.inr (by decide))]
      rfl

/-! ## One call -/

/-- The call returns 0; this does not depend on what the palette holds. -/
def Accepted (call : Colreg) : Prop := (s3cLcdfbSetcolreg call lcdInit).1 = 0

instance (call : Colreg) : Decidable (Accepted call) :=
  inferInstanceAs (Decidable ((s3cLcdfbSetcolreg call lcdInit).1 = 0))

theorem accepted_iff (call : Colreg) : Accepted call ↔ call.regno ≤ 16 := by
  unfold Accepted s3cLcdfbSetcolreg
  split
  next unknown => exact iff_of_false Int.one_ne_zero (UInt32.not_le.mpr unknown)
  next known => exact iff_of_true rfl (UInt32.not_lt.mp known)

/-- The bit fields of `info->var` are as `lcd_init` set them. -/
structure SameVar (info : FbInfo) : Prop where
  red : info.red = lcdInit.red
  green : info.green = lcdInit.green
  blue : info.blue = lcdInit.blue

theorem setcolreg_of_accepted {call : Colreg} (accepted : Accepted call) {info : FbInfo}
    (sameVar : SameVar info) :
    s3cLcdfbSetcolreg call info = (0, { info with
      pseudoPalette := Function.update info.pseudoPalette call.regno.toNat (packed call)
      written := info.written ++ [call.regno.toNat] }) := by
  have known : ¬ call.regno > 16 := UInt32.not_lt.mpr ((accepted_iff call).mp accepted)
  rw [s3cLcdfbSetcolreg, if_neg known, sameVar.red, sameVar.green, sameVar.blue]
  rfl

theorem setcolreg_of_not_accepted {call : Colreg} (rejected : ¬ Accepted call)
    (info : FbInfo) : s3cLcdfbSetcolreg call info = (1, info) := by
  have unknown : call.regno > 16 := by
    rwa [accepted_iff, UInt32.not_le] at rejected
  exact if_pos unknown

/-! ## The runs -/

/-- The call, if it returns 0 and names the entry. -/
def acceptedFor? (entry : Nat) (call : Colreg) : Option Colreg :=
  if Accepted call ∧ call.regno.toNat = entry then some call else none

/-- The last call for the entry that returned 0. -/
def lastAccepted (entry : Nat) (calls : List Colreg) : Option Colreg :=
  last (acceptedFor? entry) calls

theorem setcolregs_concat (calls : List Colreg) (call : Colreg) (info : FbInfo) :
    setcolregs (calls ++ [call]) info = (s3cLcdfbSetcolreg call (setcolregs calls info)).2 :=
  after_concat _ info calls call

/-- The state after any calls at all: what was written, and what each word from
`pseudo_pal` on holds. -/
structure After (calls : List Colreg) (info : FbInfo) : Prop where
  sameVar : SameVar info
  written : info.written = (calls.filter fun call => Accepted call).map (·.regno.toNat)
  entries : ∀ entry, info.pseudoPalette entry = ((lastAccepted entry calls).elim 0 packed)

theorem after_setcolregs (calls : List Colreg) : After calls (setcolregs calls lcdInit) := by
  induction calls using List.reverseRecOn with
  | nil => exact ⟨⟨rfl, rfl, rfl⟩, rfl, fun entry => rfl⟩
  | append_singleton calls call ih =>
      rw [setcolregs_concat]
      by_cases accepted : Accepted call
      · rw [setcolreg_of_accepted accepted ih.sameVar]
        constructor
        case sameVar => exact ⟨ih.sameVar.red, ih.sameVar.green, ih.sameVar.blue⟩
        case written =>
            simp [ih.written, accepted, List.filter_append]
        case entries =>
            intro entry
            rw [lastAccepted, last_concat, ← lastAccepted]
            by_cases here : call.regno.toNat = entry
            · rw [acceptedFor?, if_pos ⟨accepted, here⟩, here]
              exact Function.update_self ..
            · rw [acceptedFor?, if_neg fun named => here named.2, Option.none_or,
                ← ih.entries]
              exact Function.update_of_ne (Ne.symm here) ..
      · rw [setcolreg_of_not_accepted accepted]
        constructor
        case sameVar => exact ih.sameVar
        case written => simp [ih.written, accepted, List.filter_append]
        case entries =>
            intro entry
            rw [lastAccepted, last_concat, acceptedFor?,
              if_neg fun named => accepted named.1, Option.none_or]
            exact ih.entries entry

/-- The pseudo-palette is a store of 16 entries: every write goes to one of them, a call
that does not return 0 changes nothing, one that does changes exactly the entry that it
names, and in the end each entry is the colour of the last call that was accepted for it. -/
structure PaletteStore (calls : List Colreg) : Prop where
  inside : ∀ entry ∈ (setcolregs calls lcdInit).written, entry < pseudoPalSize
  rejected : ∀ earlier call later, calls = earlier ++ call :: later →
    (s3cLcdfbSetcolreg call (setcolregs earlier lcdInit)).1 ≠ 0 →
      (s3cLcdfbSetcolreg call (setcolregs earlier lcdInit)).2 = setcolregs earlier lcdInit
  accepted : ∀ earlier call later, calls = earlier ++ call :: later →
    (s3cLcdfbSetcolreg call (setcolregs earlier lcdInit)).1 = 0 →
      (s3cLcdfbSetcolreg call (setcolregs earlier lcdInit)).2.written =
          (setcolregs earlier lcdInit).written ++ [call.regno.toNat] ∧
        ∀ entry, entry ≠ call.regno.toNat →
          (s3cLcdfbSetcolreg call (setcolregs earlier lcdInit)).2.pseudoPalette entry =
            (setcolregs earlier lcdInit).pseudoPalette entry
  last : ∀ entry < pseudoPalSize, ∀ call, lastAccepted entry calls = some call →
    Holds ((setcolregs calls lcdInit).pseudoPalette entry) call
  initial : ∀ entry < pseudoPalSize, lastAccepted entry calls = none →
    (setcolregs calls lcdInit).pseudoPalette entry = lcdInit.pseudoPalette entry

/-- The law holds of a sequence of calls exactly when none names register 16. -/
theorem paletteStore_iff (calls : List Colreg) :
    PaletteStore calls ↔ ∀ call ∈ calls, call.regno ≠ 16 := by
  constructor
  · intro store call member past
    have accepted : Accepted call := by
      rw [accepted_iff, past]
      exact UInt32.le_refl 16
    have written : call.regno.toNat ∈ (setcolregs calls lcdInit).written := by
      rw [(after_setcolregs calls).written]
      exact List.mem_map_of_mem (List.mem_filter.mpr ⟨member, decide_eq_true accepted⟩)
    have inside := store.inside _ written
    rw [past] at inside
    exact absurd inside (by decide)
  · intro inRange
    have after := after_setcolregs calls
    constructor
    case inside =>
        intro entry member
        rw [after.written] at member
        obtain ⟨call, accepted, rfl⟩ := List.mem_map.mp member
        obtain ⟨called, accepted⟩ := List.mem_filter.mp accepted
        have atMost := (accepted_iff call).mp (of_decide_eq_true accepted)
        have notPast := inRange call called
        rw [UInt32.le_iff_toNat_le] at atMost
        have notPast : call.regno.toNat ≠ 16 := fun past => notPast (UInt32.toNat_inj.mp past)
        exact Nat.lt_of_le_of_ne atMost notPast
    case rejected =>
        intro earlier call later split nonzero
        by_cases accepted : Accepted call
        · rw [setcolreg_of_accepted accepted (after_setcolregs earlier).sameVar] at nonzero
          exact absurd rfl nonzero
        · rw [setcolreg_of_not_accepted accepted]
    case accepted =>
        intro earlier call later split zero
        by_cases accepted : Accepted call
        · rw [setcolreg_of_accepted accepted (after_setcolregs earlier).sameVar]
          exact ⟨rfl, fun entry other => Function.update_of_ne other ..⟩
        · rw [setcolreg_of_not_accepted accepted] at zero
          exact absurd zero Int.one_ne_zero
    case last =>
        intro entry inPalette call last
        rw [after.entries, last]
        exact holds_packed call
    case initial =>
        intro entry inPalette none
        rw [after.entries, none]
        rfl

/-- Register 16 is accepted and written behind the palette. -/
theorem not_paletteStore : ¬ PaletteStore [⟨16, 0xffff, 0xffff, 0xffff, 0⟩] := by
  intro store
  exact absurd (store.inside 16 (by decide)) (by decide)

end Mini2440.Lcd
