import Mini2440.Lib.Bits
import Mini2440.Lcd.FbTest

/-!
# From the frame buffer to the screen

`lcd_init` of `10th-lcd/lcd.c` tells the controller the size of the picture, the format of a
pixel and where the frame buffer is, packed into fields of its registers.  The controller
decodes them and scans the memory out.  What `fb_test` draws into the frame buffer is what is
on the screen.
-/

namespace Mini2440.Lcd

open Bits Memory Raster

/-! ## The driver -/

/-- The part of `struct lcd_regs` that the driver writes. -/
structure LcdRegs where
  lcdcon1 : UInt32
  lcdcon2 : UInt32
  lcdcon3 : UInt32
  lcdcon4 : UInt32
  lcdcon5 : UInt32
  lcdsaddr1 : UInt32
  lcdsaddr2 : UInt32
  lcdsaddr3 : UInt32
  deriving DecidableEq, Repr

/-- `s3c_lcd->fix.smem_len`. -/
def smemLen : UInt32 := 320 * 240 * 32 / 8

/-- `s3c_lcd->var`. -/
def lcdVar : FbVar := ⟨320, 240, 32⟩

/-- What `lcd_init` writes for a frame buffer at `smemStart`. -/
def lcdInitRegs (smemStart : UInt32) : LcdRegs where
  lcdcon1 :=
    ((6 : UInt32) <<< 8 ||| (3 : UInt32) <<< 5 ||| (0xd : UInt32) <<< 1 |||
      (0 : UInt32) <<< 0) ||| (1 : UInt32) <<< 0
  lcdcon2 := (11 : UInt32) <<< 24 ||| (239 : UInt32) <<< 14 ||| (9 : UInt32) <<< 6 |||
    (0 : UInt32) <<< 0
  lcdcon3 := (69 : UInt32) <<< 19 ||| (319 : UInt32) <<< 8 ||| (16 : UInt32) <<< 0
  lcdcon4 := 0
  lcdcon5 :=
    ((0 : UInt32) <<< 10 ||| (1 : UInt32) <<< 9 ||| (1 : UInt32) <<< 8 |||
      (0 : UInt32) <<< 12 ||| (0 : UInt32) <<< 1 ||| (0 : UInt32) <<< 0) ||| (1 : UInt32) <<< 3
  lcdsaddr1 := (smemStart >>> 1) &&& ~~~((3 : UInt32) <<< 30)
  lcdsaddr2 := ((smemStart + smemLen) >>> 1) &&& 0x1fffff
  lcdsaddr3 := 320 * 32 / 16

/-- The registers after `lcd_exit`. -/
def lcdExitRegs (regs : LcdRegs) : LcdRegs :=
  { regs with
    lcdcon1 := regs.lcdcon1 &&& ~~~((1 : UInt32) <<< 0)
    lcdcon5 := regs.lcdcon5 &&& ~~~((1 : UInt32) <<< 3) }

/-- What `dma_alloc_writecombine` hands out: whole pages of the memory below 2 GiB, in a block
that does not cross a boundary of 4 MiB. -/
structure DmaBuffer where
  start : UInt32
  aligned : start.toNat % 4096 = 0
  inMemory : start.toNat + smemLen.toNat ≤ 2 ^ 31
  inBank : start.toNat % 2 ^ 22 + smemLen.toNat ≤ 2 ^ 22

/-- A buffer at the start of the last 4 MiB of the board's memory. -/
def dmaBuffer : DmaBuffer where
  start := 0x33c00000
  aligned := by decide
  inMemory := by decide
  inBank := by decide

/-! ## The controller -/

namespace LcdRegs

/-- LINEVAL + 1. -/
def lines (regs : LcdRegs) : Nat := (field regs.lcdcon2 14 10).toNat + 1

/-- HOZVAL + 1. -/
def columns (regs : LcdRegs) : Nat := (field regs.lcdcon3 8 11).toNat + 1

/-- LCDBASEU: A[21:1] of the first pixel. -/
def lcdBaseU (regs : LcdRegs) : Nat := (field regs.lcdsaddr1 0 21).toNat

/-- LCDBANK: A[30:22], which the counter does not change. -/
def lcdBank (regs : LcdRegs) : Nat := (field regs.lcdsaddr1 21 9).toNat

/-- LCDBASEL: where the frame ends. -/
def lcdBaseL (regs : LcdRegs) : Nat := (field regs.lcdsaddr2 0 21).toNat

/-- PAGEWIDTH + OFFSIZE: the halfwords from one line to the next. -/
def lineWidth (regs : LcdRegs) : Nat :=
  (field regs.lcdsaddr3 0 11).toNat + (field regs.lcdsaddr3 11 11).toNat

/-- The video output is on, for a TFT panel with 24 bits in the lower bytes of a word, and
the panel has power. -/
def showsTft24 (regs : LcdRegs) : Bool :=
  bit regs.lcdcon1 0 && field regs.lcdcon1 5 2 == 3 && field regs.lcdcon1 1 4 == 0xd &&
    bit regs.lcdcon5 3 && !bit regs.lcdcon5 12 && !bit regs.lcdcon5 1 && !bit regs.lcdcon5 0

/-- The address of a pixel; the counter of halfwords has 21 bits. -/
def pixelAddress (regs : LcdRegs) (line column : Nat) : Nat :=
  regs.lcdBank * 2 ^ 22 +
    (regs.lcdBaseU + line * regs.lineWidth + 2 * column) % 2 ^ 21 * 2

end LcdRegs

/-- A word of bytes, the lowest first. -/
def wordOf (bytes : List UInt8) : UInt32 :=
  UInt32.ofNat (bytes.foldr (fun byte value => byte.toNat + 256 * value) 0)

/-- The colour that the screen shows in a place, if it shows one there. -/
def shown (regs : LcdRegs) (mem : Mem) (line column : Nat) : Option UInt32 :=
  if regs.showsTft24 ∧ line < regs.lines ∧ column < regs.columns then
    some (wordOf (load mem (regs.pixelAddress line column) 4) &&& 0xffffff)
  else
    none

/-! ## The fields -/

theorem lcdInit_showsTft24 (smemStart : UInt32) : (lcdInitRegs smemStart).showsTft24 = true := by
  simp only [LcdRegs.showsTft24, lcdInitRegs]
  decide

theorem lcdExit_showsTft24 (smemStart : UInt32) :
    (lcdExitRegs (lcdInitRegs smemStart)).showsTft24 = false := by
  simp only [LcdRegs.showsTft24, lcdInitRegs, lcdExitRegs]
  decide

theorem lcdInit_lines (smemStart : UInt32) : (lcdInitRegs smemStart).lines = 240 := by
  simp only [LcdRegs.lines, lcdInitRegs]
  decide

theorem lcdInit_columns (smemStart : UInt32) : (lcdInitRegs smemStart).columns = 320 := by
  simp only [LcdRegs.columns, lcdInitRegs]
  decide

theorem lcdInit_lineWidth (smemStart : UInt32) :
    (lcdInitRegs smemStart).lineWidth = 640 := by
  simp only [LcdRegs.lineWidth, lcdInitRegs]
  decide

/-- A[30:1], which are kept; A31 is not. -/
theorem toNat_lcdsaddr1 (smemStart : UInt32) :
    (lcdInitRegs smemStart).lcdsaddr1.toNat = smemStart.toNat / 2 % 2 ^ 30 := by
  have mask : (~~~((3 : UInt32) <<< 30)).toNat = 2 ^ 30 - 1 := by decide
  simp only [lcdInitRegs]
  rw [UInt32.toNat_and, mask, Nat.and_two_pow_sub_one_eq_mod, UInt32.toNat_shiftRight]
  rfl

section

variable (buffer : DmaBuffer)

theorem toNat_smemLen : smemLen.toNat = 307200 := by decide

theorem lcdBank_eq : (lcdInitRegs buffer.start).lcdBank = buffer.start.toNat / 2 ^ 22 := by
  have inMemory := buffer.inMemory
  rw [toNat_smemLen] at inMemory
  rw [LcdRegs.lcdBank, toNat_field _ (by decide) (by decide), toNat_lcdsaddr1]
  have offset : UInt32.toNat 21 = 21 := rfl
  have length : UInt32.toNat 9 = 9 := rfl
  rw [offset, length]
  omega

theorem lcdBaseU_eq :
    (lcdInitRegs buffer.start).lcdBaseU = buffer.start.toNat % 2 ^ 22 / 2 := by
  rw [LcdRegs.lcdBaseU, toNat_field _ (by decide) (by decide), toNat_lcdsaddr1]
  have offset : UInt32.toNat 0 = 0 := rfl
  have length : UInt32.toNat 21 = 21 := rfl
  rw [offset, length]
  omega

/-- The manual's equation for the end of the frame. -/
theorem lcdBaseL_eq :
    (lcdInitRegs buffer.start).lcdBaseL =
      ((lcdInitRegs buffer.start).lcdBaseU +
        (lcdInitRegs buffer.start).lineWidth * (lcdInitRegs buffer.start).lines) % 2 ^ 21 := by
  have inMemory := buffer.inMemory
  have aligned := buffer.aligned
  rw [toNat_smemLen] at inMemory
  have mask : UInt32.toNat 0x1fffff = 2 ^ 21 - 1 := by decide
  have one : UInt32.toNat 1 % 32 = 1 := rfl
  have offset : UInt32.toNat 0 = 0 := rfl
  have length : UInt32.toNat 21 = 21 := rfl
  rw [lcdBaseU_eq, lcdInit_lineWidth, lcdInit_lines, LcdRegs.lcdBaseL,
    toNat_field _ (by decide) (by decide), offset, length]
  simp only [lcdInitRegs]
  rw [UInt32.toNat_and, mask, Nat.and_two_pow_sub_one_eq_mod, UInt32.toNat_shiftRight, one,
    Nat.shiftRight_eq_div_pow, UInt32.toNat_add, toNat_smemLen]
  omega

/-- The controller finds a pixel where the driver has it. -/
theorem pixelAddress_eq {line column : Nat} (lineInside : line < 240)
    (columnInside : column < 320) :
    (lcdInitRegs buffer.start).pixelAddress line column =
      buffer.start.toNat + 4 * (line * 320 + column) := by
  have inBank := buffer.inBank
  have aligned := buffer.aligned
  rw [toNat_smemLen] at inBank
  rw [LcdRegs.pixelAddress, lcdBank_eq, lcdBaseU_eq, lcdInit_lineWidth]
  omega

end

/-! ## The picture on the screen -/

theorem wordOf_lowBytes (word : UInt32) : wordOf (lowBytes 4 word) = word := by
  have bytes : lowBytes 4 word =
      [word.toUInt8, (word >>> 8).toUInt8, (word >>> 16).toUInt8, (word >>> 24).toUInt8] := by
    simp [lowBytes, List.range_succ]
  have small := word.toNat_lt
  apply UInt32.toNat_inj.mp
  simp only [wordOf, bytes, List.foldr_cons, List.foldr_nil, UInt32.toNat_ofNat',
    UInt32.toNat_toUInt8, UInt32.toNat_shiftRight, UInt32.reduceToNat, Nat.reduceMod,
    Nat.shiftRight_eq_div_pow, Nat.reducePow]
  omega

/-- The mode that `lcd_init` sets: 32 bits to a pixel. -/
def lcdMode : Mode where
  fbVar := lcdVar
  width := 4
  depth := rfl
  whole := .inr (.inr (.inr rfl))
  counted := by decide

/-- Whatever memory holds and wherever the frame buffer is: after `lcd_init` and a run of
`fb_test` the screen shows, in each of its 240 lines of 320 pixels, the colour that the
program computed for the place, and nothing elsewhere; no byte outside the frame buffer has
changed, the end of the frame is where the manual wants it, and after `lcd_exit` the screen
shows nothing. -/
theorem screen_shows_testPicture (buffer : DmaBuffer) (mem : Mem) :
    ∃ after, drawTestPicture lcdVar buffer.start.toNat mem = some after ∧
      (∀ line column, shown (lcdInitRegs buffer.start) after line column =
        if line < 240 ∧ column < 320 then
          some (mireColor lcdVar (UInt32.ofNat column) (UInt32.ofNat line) &&& 0xffffff)
        else none) ∧
      (∀ address, address < buffer.start.toNat ∨
          buffer.start.toNat + smemLen.toNat ≤ address → after address = mem address) ∧
      (lcdInitRegs buffer.start).lcdBaseL =
        ((lcdInitRegs buffer.start).lcdBaseU +
          (lcdInitRegs buffer.start).lineWidth * (lcdInitRegs buffer.start).lines) % 2 ^ 21 ∧
      ∀ mem line column,
        shown (lcdExitRegs (lcdInitRegs buffer.start)) mem line column = none := by
  have size : screensize lcdVar = smemLen.toNat := by decide
  refine ⟨lcdMode.drawn buffer.start.toNat mem,
    lcdMode.drawTestPicture_eq buffer.start.toNat mem, ?_, ?_, lcdBaseL_eq buffer, ?_⟩
  · intro line column
    rw [shown, lcdInit_showsTft24, lcdInit_lines, lcdInit_columns]
    by_cases inside : line < 240 ∧ column < 320
    · rw [if_pos ⟨rfl, inside⟩, if_pos inside, pixelAddress_eq buffer inside.1 inside.2]
      have pixel : load (lcdMode.drawn buffer.start.toNat mem)
          (buffer.start.toNat + 4 * (line * 320 + column)) 4 =
            lowBytes 4 (mireColor lcdVar (UInt32.ofNat column) (UInt32.ofNat line)) :=
        lcdMode.load_drawn inside.2 inside.1 buffer.start.toNat mem
      rw [pixel, wordOf_lowBytes]
    · rw [if_neg inside, if_neg fun every => inside every.2]
  · intro address beyond
    apply lcdMode.drawn_of_outside mem
    rw [← size] at beyond
    exact beyond
  · intro mem line column
    refine if_neg fun every => ?_
    rw [lcdExit_showsTft24] at every
    exact Bool.false_ne_true every.1

/-- The first pixel of the picture on the board. -/
theorem testPicture_on_board :
    ∃ after, drawTestPicture lcdVar 0x33c00000 (fun _ => 0) = some after ∧
      shown (lcdInitRegs 0x33c00000) after 0 0 = some 0x4e9e79 := by
  obtain ⟨after, drawn, screen, -⟩ := screen_shows_testPicture dmaBuffer (fun _ => 0)
  exact ⟨after, drawn, (screen 0 0).trans (by decide)⟩

end Mini2440.Lcd
