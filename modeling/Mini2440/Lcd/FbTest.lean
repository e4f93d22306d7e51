import Mini2440.Lib.Loops
import Mini2440.Lib.Raster
import Mathlib.Algebra.Group.Nat.Defs

/-!
# The test picture

`fb_test/fb_test.c` blanks the frame buffer and draws a test picture, pixel by pixel, in the
mode that the driver reports.  In the modes with whole bytes the two loops come to one store:
every pixel gets the low bytes of its colour, and no byte outside the screen changes.
-/

namespace Mini2440.Lcd

open Loops Memory Raster

/-- Memory by physical address. -/
abbrev Mem := Nat → UInt8

/-! ## The program -/

/-- The fields of `fb_var` that the program computes with. -/
structure FbVar where
  xres : UInt32
  yres : UInt32
  bitsPerPixel : UInt32
  deriving DecidableEq, Repr

/-- The low bytes of a word, the lowest first. -/
def lowBytes (count : Nat) (word : UInt32) : List UInt8 :=
  (List.range count).map fun index => (word >>> UInt32.ofNat (8 * index)).toUInt8

/-- `set_pixel`.  With less than a byte to a pixel it shifts by an address, which has no
meaning; other depths are refused with a message. -/
def setPixel (fbVar : FbVar) (fbBaseAddr : Nat) (x y color : UInt32) (mem : Mem) :
    Option Mem :=
  let index := (y * fbVar.xres + x).toNat
  match fbVar.bitsPerPixel.toNat with
  | 32 => some (store mem (fbBaseAddr + 4 * index) (lowBytes 4 color))
  | 24 =>
      let addr := fbBaseAddr + 3 * index
      let mem := store mem addr [(color &&& 0xff).toUInt8]
      let mem := store mem (addr + 1) [(color >>> 8 &&& 0xff).toUInt8]
      some (store mem (addr + 2) [(color >>> 16 &&& 0xff).toUInt8])
  | 16 => some (store mem (fbBaseAddr + 2 * index) (lowBytes 2 color))
  | 8 => some (store mem (fbBaseAddr + index) [color.toUInt8])
  | 4 | 2 | 1 => none
  | _ => some mem

/-- The colour that `mire` computes for a pixel. -/
def mireColor (fbVar : FbVar) (x y : UInt32) : UInt32 :=
  let color :=
    ((x - fbVar.xres / 2) * (x - fbVar.xres / 2) +
      (y - fbVar.yres / 2) * (y - fbVar.yres / 2)) / 64
  let red := (color / 8 % 256).toUInt8
  let green := (color / 4 % 256).toUInt8
  let blue := (color / 2 % 256).toUInt8
  let alpha := (color * 2 % 256).toUInt8
  let color := color ||| alpha.toUInt32 <<< 24
  let color := color ||| red.toUInt32 <<< 16
  let color := color ||| green.toUInt32 <<< 8
  color ||| blue.toUInt32

/-- `mire`: a pixel for each place of the screen. -/
def mire (fbVar : FbVar) (fbBaseAddr : Nat) (mem : Mem) : Option Mem :=
  (List.range fbVar.yres.toNat).foldlM (fun mem y =>
    (List.range fbVar.xres.toNat).foldlM (fun mem x =>
      let x := UInt32.ofNat x
      let y := UInt32.ofNat y
      setPixel fbVar fbBaseAddr x y (mireColor fbVar x y) mem) mem) mem

/-- `screensize`, the bytes of the frame buffer. -/
def screensize (fbVar : FbVar) : Nat :=
  (fbVar.xres * fbVar.yres * fbVar.bitsPerPixel / 8).toNat

/-- What `main` does without a command: the screen is blanked, then the picture is drawn. -/
def drawTestPicture (fbVar : FbVar) (fbBaseAddr : Nat) (mem : Mem) : Option Mem :=
  mire fbVar fbBaseAddr (store mem fbBaseAddr (List.replicate (screensize fbVar) 0))

/-! ## Modes with whole bytes -/

/-- A mode with `width` bytes to a pixel, and a screen whose bits can be counted. -/
structure Mode where
  fbVar : FbVar
  width : Nat
  depth : fbVar.bitsPerPixel.toNat = 8 * width
  whole : width = 1 ∨ width = 2 ∨ width = 3 ∨ width = 4
  counted : fbVar.xres.toNat * fbVar.yres.toNat * fbVar.bitsPerPixel.toNat < 2 ^ 32

namespace Mode

variable (mode : Mode)

/-- The number of pixels. -/
def pixels : Nat := mode.fbVar.xres.toNat * mode.fbVar.yres.toNat

/-- The bytes of a pixel of the test picture. -/
def cell (y x : Nat) : List UInt8 :=
  lowBytes mode.width (mireColor mode.fbVar (UInt32.ofNat x) (UInt32.ofNat y))

theorem length_lowBytes (count : Nat) (word : UInt32) : (lowBytes count word).length = count := by
  rw [lowBytes, List.length_map, List.length_range]

theorem length_cell (y x : Nat) : (mode.cell y x).length = mode.width := length_lowBytes _ _

theorem pixels_lt : mode.pixels < 2 ^ 32 := by
  have counted := mode.counted
  have positive : 0 < mode.fbVar.bitsPerPixel.toNat := by
    rw [mode.depth]
    rcases mode.whole with width | width | width | width <;> omega
  exact Nat.lt_of_le_of_lt (Nat.le_mul_of_pos_right _ positive) counted

theorem screensize_eq : screensize mode.fbVar = mode.width * mode.pixels := by
  have counted := mode.counted
  have pixels := mode.pixels_lt
  rw [Mode.pixels] at pixels
  have eight : UInt32.toNat 8 = 8 := rfl
  rw [screensize, UInt32.toNat_div, UInt32.toNat_mul, UInt32.toNat_mul, Nat.mod_eq_of_lt pixels,
    Nat.mod_eq_of_lt counted, mode.depth, eight, Nat.mul_left_comm,
    Nat.mul_div_cancel_left _ (by decide), Nat.mul_comm, Mode.pixels]

variable {x y : Nat}

theorem index_lt (columns : x < mode.fbVar.xres.toNat) (rows : y < mode.fbVar.yres.toNat) :
    y * mode.fbVar.xres.toNat + x < mode.pixels := by
  have row : (y + 1) * mode.fbVar.xres.toNat ≤ mode.pixels := by
    rw [pixels, Nat.mul_comm]
    exact Nat.mul_le_mul_left _ rows
  rw [Nat.succ_mul] at row
  omega

/-- The index of a pixel does not overflow. -/
theorem index_eq (columns : x < mode.fbVar.xres.toNat) (rows : y < mode.fbVar.yres.toNat) :
    (UInt32.ofNat y * mode.fbVar.xres + UInt32.ofNat x).toNat =
      y * mode.fbVar.xres.toNat + x := by
  have index := Nat.lt_trans (mode.index_lt columns rows) mode.pixels_lt
  have small : x < 2 ^ 32 := by omega
  have rowSmall : y < 2 ^ 32 := Nat.lt_trans rows mode.fbVar.yres.toNat_lt
  have product : y * mode.fbVar.xres.toNat < 2 ^ 32 := by omega
  rw [UInt32.toNat_add, UInt32.toNat_mul, UInt32.toNat_ofNat', UInt32.toNat_ofNat',
    Nat.mod_eq_of_lt small, Nat.mod_eq_of_lt rowSmall, Nat.mod_eq_of_lt product,
    Nat.mod_eq_of_lt index]

theorem toUInt8_and_mask (word : UInt32) : (word &&& 0xff).toUInt8 = word.toUInt8 := by
  rw [UInt32.toUInt8_and]
  apply UInt8.toNat_inj.mp
  rw [UInt8.toNat_and]
  exact (Nat.and_two_pow_sub_one_eq_mod _ 8).trans (Nat.mod_eq_of_lt (UInt8.toNat_lt _))

/-- In every mode a pixel is one store of the low bytes of its colour. -/
theorem setPixel_eq (columns : x < mode.fbVar.xres.toNat) (rows : y < mode.fbVar.yres.toNat)
    (fbBaseAddr : Nat) (color : UInt32) (mem : Mem) :
    setPixel mode.fbVar fbBaseAddr (UInt32.ofNat x) (UInt32.ofNat y) color mem =
      some (store mem (fbBaseAddr + mode.width * (y * mode.fbVar.xres.toNat + x))
        (lowBytes mode.width color)) := by
  have depth := mode.depth
  simp only [setPixel, mode.index_eq columns rows]
  rcases mode.whole with width | width | width | width
  · rw [width] at depth ⊢
    simp [depth, lowBytes]
  · rw [width] at depth ⊢
    simp only [depth]
  · rw [width] at depth ⊢
    simp only [depth, toUInt8_and_mask]
    have bytes : lowBytes 3 color =
        [color.toUInt8] ++ [(color >>> 8).toUInt8] ++ [(color >>> 16).toUInt8] := by
      simp [lowBytes, List.range_succ]
    rw [bytes, ← store_append, ← store_append]
    rfl
  · rw [width] at depth ⊢
    simp only [depth]

theorem mire_eq (fbBaseAddr : Nat) (mem : Mem) :
    mire mode.fbVar fbBaseAddr mem =
      some (store mem fbBaseAddr
        (rows mode.cell mode.fbVar.yres.toNat mode.fbVar.xres.toNat)) := by
  rw [← foldl_rows mode.length_cell, mire]
  apply foldlM_eq_some
  intro mem y row
  apply foldlM_eq_some
  intro mem x column
  exact mode.setPixel_eq (List.mem_range.mp column) (List.mem_range.mp row) _ _ _

/-- The picture is one store over the blanked screen. -/
theorem drawTestPicture_eq (fbBaseAddr : Nat) (mem : Mem) :
    drawTestPicture mode.fbVar fbBaseAddr mem =
      some (store mem fbBaseAddr
        (rows mode.cell mode.fbVar.yres.toNat mode.fbVar.xres.toNat)) := by
  have same : (List.replicate (screensize mode.fbVar) (0 : UInt8)).length =
      (rows mode.cell mode.fbVar.yres.toNat mode.fbVar.xres.toNat).length := by
    rw [List.length_replicate, length_rows mode.length_cell, mode.screensize_eq, pixels,
      Nat.mul_assoc]
  rw [drawTestPicture, mire_eq, store_over mem fbBaseAddr same]

/-- The screen with the picture. -/
def drawn (fbBaseAddr : Nat) (mem : Mem) : Mem :=
  store mem fbBaseAddr (rows mode.cell mode.fbVar.yres.toNat mode.fbVar.xres.toNat)

theorem load_drawn (columns : x < mode.fbVar.xres.toNat) (rows : y < mode.fbVar.yres.toNat)
    (fbBaseAddr : Nat) (mem : Mem) :
    load (mode.drawn fbBaseAddr mem)
        (fbBaseAddr + mode.width * (y * mode.fbVar.xres.toNat + x)) mode.width =
      lowBytes mode.width (mireColor mode.fbVar (UInt32.ofNat x) (UInt32.ofNat y)) :=
  load_rows mode.length_cell mem fbBaseAddr rows columns

theorem drawn_of_outside {fbBaseAddr address : Nat} (mem : Mem)
    (outside : address < fbBaseAddr ∨ fbBaseAddr + screensize mode.fbVar ≤ address) :
    mode.drawn fbBaseAddr mem address = mem address := by
  apply store_of_outside
  rw [length_rows mode.length_cell, Nat.mul_assoc, ← pixels, ← mode.screensize_eq]
  exact outside

end Mode

/-- In every mode with whole bytes, wherever the frame buffer is and whatever it held: every
pixel has the low bytes of the colour of its place, and no byte outside the screen changes. -/
theorem testPicture_drawn (mode : Mode) (fbBaseAddr : Nat) (mem : Mem) :
    ∃ after, drawTestPicture mode.fbVar fbBaseAddr mem = some after ∧
      (∀ x y, x < mode.fbVar.xres.toNat → y < mode.fbVar.yres.toNat →
        load after (fbBaseAddr + mode.width * (y * mode.fbVar.xres.toNat + x)) mode.width =
          lowBytes mode.width (mireColor mode.fbVar (UInt32.ofNat x) (UInt32.ofNat y))) ∧
      ∀ address, address < fbBaseAddr ∨ fbBaseAddr + screensize mode.fbVar ≤ address →
        after address = mem address := by
  refine ⟨mode.drawn fbBaseAddr mem, mode.drawTestPicture_eq fbBaseAddr mem, ?_, ?_⟩
  · intro x y columns rows
    exact mode.load_drawn columns rows fbBaseAddr mem
  · intro address outside
    exact mode.drawn_of_outside mem outside

end Mini2440.Lcd
