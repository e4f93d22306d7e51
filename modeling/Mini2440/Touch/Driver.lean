import Mathlib.Logic.Function.Basic
import Mathlib.Data.Fin.VecNotation

/-!
# The touch screen

The driver `11th-ts/touch.c`: the pen interrupt, the ADC interrupt that collects four
samples and filters them, and the timer that measures again as long as the pen stays
down.  What the hardware answers, the two data registers and the pen level in bit 15 of
ADCDAT0, comes with each call of a handler.
-/

namespace Mini2440.Touch

/-- Bit 15 of ADCDAT0: the stylus is up. -/
def penUp (adcdat0 : UInt32) : Bool := adcdat0 &&& ((1 : UInt32) <<< 15) != 0

/-- What an `int` holds after a sum or a difference: the kernel is built with
`-fno-strict-overflow`, so both wrap around. -/
def wrapInt (value : Int) : Int := value.bmod 0x100000000

/-- The axes that the driver reports. -/
inductive AbsCode where
  | x
  | y
  | pressure
  deriving DecidableEq, Repr

/-- What goes to the input core; the only key is `BTN_TOUCH`. -/
inductive InputEvent where
  | abs (code : AbsCode) (value : Int)
  | btnTouch (value : Int)
  | sync
  deriving DecidableEq, Repr

/-- The registers that the driver writes, the conversion and the timer they set off, the
static variables of `adc_irq`, and everything reported so far. -/
structure Ts where
  adccon : UInt32
  adctsc : UInt32
  adcdly : UInt32
  converting : Bool
  timer : Bool
  cnt : Nat
  x : Fin 4 → Int
  y : Fin 4 → Int
  reported : List InputEvent

namespace Ts

/-- `enter_wait_pen_down_mode`. -/
def enterWaitPenDownMode (ts : Ts) : Ts := { ts with adctsc := 0xd3 }

/-- `enter_wait_pen_up_mode`. -/
def enterWaitPenUpMode (ts : Ts) : Ts := { ts with adctsc := 0x1d3 }

/-- `enter_measure_xy_mode`. -/
def enterMeasureXyMode (ts : Ts) : Ts :=
  { ts with adctsc := ((1 : UInt32) <<< 2) ||| ((1 : UInt32) <<< 3) }

/-- `start_adc`. -/
def startAdc (ts : Ts) : Ts :=
  { ts with adccon := ts.adccon ||| ((1 : UInt32) <<< 0), converting := true }

/-- `mod_timer(&st_ts_timer, jiffies + HZ/100)`. -/
def modTimer (ts : Ts) : Ts := { ts with timer := true }

/-- `input_report_abs`. -/
def inputReportAbs (ts : Ts) (code : AbsCode) (value : Int) : Ts :=
  { ts with reported := ts.reported ++ [.abs code value] }

/-- `input_report_key` of `BTN_TOUCH`. -/
def inputReportKey (ts : Ts) (value : Int) : Ts :=
  { ts with reported := ts.reported ++ [.btnTouch value] }

/-- `input_sync`. -/
def inputSync (ts : Ts) : Ts := { ts with reported := ts.reported ++ [.sync] }

/-- The pen is up: `ABS_PRESSURE` and `BTN_TOUCH` go to 0, and the driver waits for the
next contact. -/
def liftPen (ts : Ts) : Ts :=
  let ts := ts.inputReportAbs .pressure 0
  let ts := ts.inputReportKey 0
  let ts := ts.inputSync
  ts.enterWaitPenDownMode

/-- The pen is down: the next sample is measured. -/
def measure (ts : Ts) : Ts :=
  let ts := ts.enterMeasureXyMode
  ts.startAdc

/-- `x[cnt] = sampleX; y[cnt] = sampleY; cnt++`, unless `cnt` is outside the arrays. -/
def store (ts : Ts) (sampleX sampleY : Int) : Option Ts :=
  if inBounds : ts.cnt < 4 then
    some { ts with
      x := Function.update ts.x ⟨ts.cnt, inBounds⟩ sampleX
      y := Function.update ts.y ⟨ts.cnt, inBounds⟩ sampleY
      cnt := ts.cnt + 1 }
  else
    none

/-- The mean of the four samples.  A sum that is wrapped once is the sum wrapped after each
addition. -/
def reportMean (ts : Ts) : Ts :=
  let ts := ts.inputReportAbs .x ((wrapInt (ts.x 0 + ts.x 1 + ts.x 2 + ts.x 3)).tdiv 4)
  let ts := ts.inputReportAbs .y ((wrapInt (ts.y 0 + ts.y 1 + ts.y 2 + ts.y 3)).tdiv 4)
  let ts := ts.inputReportAbs .pressure 1
  let ts := ts.inputReportKey 1
  ts.inputSync

end Ts

/-- `pen_down_up_irq`. -/
def penDownUpIrq (adcdat0 : UInt32) (ts : Ts) : Ts :=
  if penUp adcdat0 then ts.liftPen else ts.measure

/-- `ERR_LIMIT`. -/
def ERR_LIMIT : Int := 10

/-- Whether the block is accepted: on neither axis is the third or the fourth sample further
than `ERR_LIMIT` from the mean of the two before it. -/
def s3cFilterTs (x y : Fin 4 → Int) : Bool :=
  let avrX := (wrapInt (x 0 + x 1)).tdiv 2
  let avrY := (wrapInt (y 0 + y 1)).tdiv 2
  let detX := if x 2 > avrX then wrapInt (x 2 - avrX) else wrapInt (avrX - x 2)
  let detY := if y 2 > avrY then wrapInt (y 2 - avrY) else wrapInt (avrY - y 2)
  if detX > ERR_LIMIT ∨ detY > ERR_LIMIT then
    false
  else
    let avrX := (wrapInt (x 1 + x 2)).tdiv 2
    let avrY := (wrapInt (y 1 + y 2)).tdiv 2
    let detX := if x 3 > avrX then wrapInt (x 3 - avrX) else wrapInt (avrX - x 3)
    let detY := if y 3 > avrY then wrapInt (y 3 - avrY) else wrapInt (avrY - y 3)
    if detX > ERR_LIMIT ∨ detY > ERR_LIMIT then false else true

/-- `adcdat & 0x3ff`. -/
def sample (adcdat : UInt32) : Int := (adcdat &&& 0x3ff).toNat

/-- `adc_irq`; `level` is what the second read of ADCDAT0 gives, the one whose bit 15 is
tested. -/
def adcIrq (adcdat0 adcdat1 level : UInt32) (ts : Ts) : Option Ts :=
  if penUp level then
    some ({ ts with cnt := 0 } : Ts).liftPen
  else do
    let ts ← ts.store (sample adcdat0) (sample adcdat1)
    if ts.cnt = 4 then
      let ts := if s3cFilterTs ts.x ts.y then ts.reportMean else ts
      let ts := { ts with cnt := 0 }
      let ts := ts.enterWaitPenUpMode
      return ts.modTimer
    else
      return ts.measure

/-- `s3c_ts_timer_function`. -/
def s3cTsTimerFunction (adcdat0 : UInt32) (ts : Ts) : Ts :=
  if penUp adcdat0 then ts.liftPen else ts.measure

/-- After `s3c_ts_init`, whose `add_timer` lets the timer fire at once. -/
def s3cTsInit : Ts :=
  ({ adccon := ((1 : UInt32) <<< 14) ||| ((49 : UInt32) <<< 6) ||| ((0 : UInt32) <<< 0)
     adctsc := 0
     adcdly := 0xffff
     converting := false
     timer := true
     cnt := 0
     x := fun _ => 0
     y := fun _ => 0
     reported := [] } : Ts).enterWaitPenDownMode

/-- The calls of the three handlers, with what they read from the hardware. -/
inductive TsEvent where
  | penIrq (adcdat0 : UInt32)
  | adcIrq (adcdat0 adcdat1 level : UInt32)
  | timer (adcdat0 : UInt32)
  deriving DecidableEq, Repr

/-- The handler tests bit 15 and finds the pen up. -/
def TsEvent.penUp : TsEvent → Bool
  | .penIrq adcdat0 | .timer adcdat0 => Touch.penUp adcdat0
  | .adcIrq _ _ level => Touch.penUp level

/-- An ADC interrupt ends the conversion it belongs to, an expiry takes the timer off the
list before its function runs. -/
def handle (ts : Ts) : TsEvent → Option Ts
  | .penIrq adcdat0 => some (penDownUpIrq adcdat0 ts)
  | .adcIrq adcdat0 adcdat1 level =>
      Touch.adcIrq adcdat0 adcdat1 level { ts with converting := false }
  | .timer adcdat0 => some (s3cTsTimerFunction adcdat0 { ts with timer := false })

/-- When the hardware and the timer wheel make the call. -/
def Enabled (ts : Ts) : TsEvent → Prop
  | .penIrq _ => True
  | .adcIrq .. => ts.converting = true
  | .timer _ => ts.timer = true

instance : (ts : Ts) → (event : TsEvent) → Decidable (Enabled ts event)
  | _, .penIrq _ => inferInstanceAs (Decidable True)
  | ts, .adcIrq .. => inferInstanceAs (Decidable (ts.converting = true))
  | ts, .timer _ => inferInstanceAs (Decidable (ts.timer = true))

/-! ## The block in progress -/

/-- The third of three samples is near the mean of the first two. -/
def near (first second third : Int) : Prop :=
  third - (first + second).tdiv 2 ≤ ERR_LIMIT ∧ (first + second).tdiv 2 - third ≤ ERR_LIMIT

instance (first second third : Int) : Decidable (near first second third) :=
  inferInstanceAs (Decidable (_ ∧ _))

/-- Both tests of the filter on one axis. -/
def NearInTurn (values : Fin 4 → Int) : Prop :=
  near (values 0) (values 1) (values 2) ∧ near (values 1) (values 2) (values 3)

/-- How far the third sample is from the mean of the first two, as the filter computes it. -/
def deviation (first second third : Int) : Int :=
  let avr := (wrapInt (first + second)).tdiv 2
  if third > avr then wrapInt (third - avr) else wrapInt (avr - third)

/-- Both tests of the filter on one axis, as the filter computes them. -/
def PassesInTurn (values : Fin 4 → Int) : Prop :=
  ¬ deviation (values 0) (values 1) (values 2) > ERR_LIMIT ∧
    ¬ deviation (values 1) (values 2) (values 3) > ERR_LIMIT

/-- The greatest `int`. -/
def INT_MAX : Int := 0x7fffffff

/-- The two sums that the filter halves are `int`s. -/
def SumsFit (values : Fin 4 → Int) : Prop :=
  values 0 + values 1 ≤ INT_MAX ∧ values 1 + values 2 ≤ INT_MAX

instance (values : Fin 4 → Int) : Decidable (SumsFit values) :=
  inferInstanceAs (Decidable (_ ∧ _))

/-- The mean of four samples as C computes it. -/
def truncatedMean (values : Fin 4 → Int) : Int :=
  (wrapInt (values 0 + values 1 + values 2 + values 3)).tdiv 4

/-- The block of samples in progress can still be reported. -/
def Ts.OpenBlock (ts : Ts) : Prop :=
  0 < ts.cnt ∧
    (ts.cnt = 3 → near (ts.x 0) (ts.x 1) (ts.x 2) ∧ near (ts.y 0) (ts.y 1) (ts.y 2))

instance (ts : Ts) : Decidable ts.OpenBlock := inferInstanceAs (Decidable (_ ∧ (_ → _)))

end Mini2440.Touch
