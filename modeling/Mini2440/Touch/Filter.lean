import Mathlib.Algebra.Order.Group.Abs
import Mathlib.Algebra.Order.Group.Int
import Mini2440.Touch.Positions

/-!
# The filter of the touch screen

What `s3c_filter_ts` is for: a block whose samples lie close together is accepted and
reported as a point close to all of them, and a block of which one sample is far from the
other three is dropped, wherever in the block and on whichever axis that sample is.  The
filter compares a sample with the mean of the two before it, so an outlier counts fully
in one place and by half in another.  It adds two coordinates in an `int`, so this is so
where those sums do not overflow; the ten bits of a sample are far from there.
-/

namespace Mini2440.Touch

/-- Four pairs of `int`s, none of them negative. -/
structure SampleBlock where
  x : Fin 4 → Int
  y : Fin 4 → Int
  nonnegX : ∀ slot, 0 ≤ x slot
  nonnegY : ∀ slot, 0 ≤ y slot
  coordinateX : ∀ slot, x slot ≤ INT_MAX
  coordinateY : ∀ slot, y slot ≤ INT_MAX

/-- The greatest and the least of the four differ by at most `ERR_LIMIT`. -/
def Steady (values : Fin 4 → Int) : Prop :=
  ∀ first second, values first - values second ≤ ERR_LIMIT

instance (values : Fin 4 → Int) : Decidable (Steady values) :=
  inferInstanceAs (Decidable (∀ _ _, _))

/-- Three of the four lie within `error` of `centre`, and the fourth is far from it. -/
def Outlier (values : Fin 4 → Int) (centre error : Int) : Prop :=
  ∃ odd, (∀ slot, slot ≠ odd → |values slot - centre| ≤ error) ∧
    21 + 3 * error < |values odd - centre|

instance (values : Fin 4 → Int) (centre error : Int) : Decidable (Outlier values centre error) :=
  inferInstanceAs (Decidable (∃ _, _ ∧ _))

/-- The ADC interrupt finds the pen down and three samples in the arrays, and its own make
them the block. -/
structure Completes (before : Ts) (read : AdcRead) (block : SampleBlock) : Prop where
  last : before.cnt = 3
  down : read.up = false
  x : Function.update before.x 3 (sample read.adcdat0) = block.x
  y : Function.update before.y 3 (sample read.adcdat1) = block.y

/-! ## The two tests on one axis -/

/-- On samples that are not negative the mean is rounded down. -/
theorem near_iff {first second : Int} (nonnegFirst : 0 ≤ first) (nonnegSecond : 0 ≤ second)
    (third : Int) :
    near first second third ↔
      third - (first + second) / 2 ≤ 10 ∧ (first + second) / 2 - third ≤ 10 := by
  rw [near, Int.tdiv_eq_ediv_of_nonneg (Int.add_nonneg nonnegFirst nonnegSecond), ERR_LIMIT]

theorem Steady.nearInTurn {values : Fin 4 → Int} (steady : Steady values)
    (nonneg : ∀ slot, 0 ≤ values slot) : NearInTurn values := by
  have close : ∀ first second third : Fin 4,
      near (values first) (values second) (values third) := by
    intro first second third
    rw [near_iff (nonneg first) (nonneg second)]
    have aboveFirst := steady third first
    have aboveSecond := steady third second
    have belowFirst := steady first third
    have belowSecond := steady second third
    unfold ERR_LIMIT at aboveFirst aboveSecond belowFirst belowSecond
    omega
  exact ⟨close 0 1 2, close 1 2 3⟩

/-- What the converter gives for one sample bounds the others. -/
theorem Steady.sum_le {values : Fin 4 → Int} (steady : Steady values)
    (last : values 3 ≤ 0x3ff) :
    values 0 + values 1 + values 2 + values 3 ≤ INT_MAX := by
  have steady0 := steady 0 3
  have steady1 := steady 1 3
  have steady2 := steady 2 3
  unfold ERR_LIMIT at steady0 steady1 steady2
  unfold INT_MAX
  omega

theorem Steady.mean {values : Fin 4 → Int} (steady : Steady values)
    (nonneg : ∀ slot, 0 ≤ values slot) (last : values 3 ≤ 0x3ff) (slot : Fin 4) :
    |truncatedMean values - values slot| ≤ 10 := by
  obtain ⟨⟨least, above⟩, greatest, below⟩ := withinSamples_mean nonneg (steady.sum_le last)
  have steadyLeast := steady slot least
  have steadyGreatest := steady greatest slot
  unfold ERR_LIMIT at steadyLeast steadyGreatest
  rw [abs_le]
  omega

/-- In the first two places the outlier moves the mean of the first test, in the last two
it is itself what a test compares. -/
theorem Outlier.not_nearInTurn {values : Fin 4 → Int} {centre error : Int}
    (outlier : Outlier values centre error) (nonneg : ∀ slot, 0 ≤ values slot) :
    ¬ NearInTurn values := by
  obtain ⟨odd, close, far⟩ := outlier
  rintro ⟨firstTest, secondTest⟩
  rw [near_iff (nonneg 0) (nonneg 1)] at firstTest
  rw [near_iff (nonneg 1) (nonneg 2)] at secondTest
  rw [lt_abs] at far
  have close : ∀ slot, slot ≠ odd → -error ≤ values slot - centre ∧
      values slot - centre ≤ error := fun slot other => abs_le.mp (close slot other)
  match odd, close, far with
  | 0, close, far =>
      have close1 := close 1 (by decide)
      have close2 := close 2 (by decide)
      omega
  | 1, close, far =>
      have close0 := close 0 (by decide)
      have close2 := close 2 (by decide)
      omega
  | 2, close, far =>
      have close0 := close 0 (by decide)
      have close1 := close 1 (by decide)
      omega
  | 3, close, far =>
      have close1 := close 1 (by decide)
      have close2 := close 2 (by decide)
      omega

/-! ## The filter and the interrupt that runs it -/

theorem SampleBlock.fitsX (block : SampleBlock) (sums : SumsFit block.x) : FitsInt block.x :=
  ⟨block.nonnegX, block.coordinateX, sums⟩

theorem SampleBlock.fitsY (block : SampleBlock) (sums : SumsFit block.y) : FitsInt block.y :=
  ⟨block.nonnegY, block.coordinateY, sums⟩

/-- The last sample of a block that an interrupt completes is one of the converter's. -/
theorem Completes.last_le {before : Ts} {read : AdcRead} {block : SampleBlock}
    (completes : Completes before read block) : block.x 3 ≤ 0x3ff ∧ block.y 3 ≤ 0x3ff := by
  rw [← completes.x, ← completes.y, Function.update_self, Function.update_self]
  exact ⟨(sample_range _).2, (sample_range _).2⟩

theorem Completes.adcIrq {before : Ts} {read : AdcRead} {block : SampleBlock}
    (completes : Completes before read block) :
    ∃ after, Touch.adcIrq read.adcdat0 read.adcdat1 read.level before = some after ∧
      after.reported = before.reported ++
        if s3cFilterTs block.x block.y then
          positionReport (truncatedMean block.x) (truncatedMean block.y)
        else [] := by
  obtain ⟨after, completed, _, x, y, reported⟩ :=
    adcIrq_of_full completes.last completes.down
  rw [completes.x] at x
  rw [completes.y] at y
  rw [x, y] at reported
  exact ⟨after, completed, reported⟩

/-- Where the sums that the filter halves are `int`s, a steady block passes and is reported
as a point within 10 of each of its samples; a block with one outlier on an axis is rejected,
whatever the other axis holds, and nothing is reported for it. -/
theorem filter_steady_outlier (block : SampleBlock) :
    (Steady block.x → Steady block.y → SumsFit block.x → SumsFit block.y →
      s3cFilterTs block.x block.y = true ∧
        ∀ before read, Completes before read block →
          ∃ after x y, adcIrq read.adcdat0 read.adcdat1 read.level before = some after ∧
            after.reported = before.reported ++ positionReport x y ∧
            ∀ slot, |x - block.x slot| ≤ 10 ∧ |y - block.y slot| ≤ 10) ∧
    ∀ centre error, 0 ≤ error →
      (Outlier block.x centre error ∧ SumsFit block.x) ∨
        (Outlier block.y centre error ∧ SumsFit block.y) →
        s3cFilterTs block.x block.y = false ∧
          ∀ before read, Completes before read block →
            ∃ after, adcIrq read.adcdat0 read.adcdat1 read.level before = some after ∧
              after.reported = before.reported := by
  constructor
  · intro steadyX steadyY sumsX sumsY
    have accepted : s3cFilterTs block.x block.y = true :=
      (s3cFilterTs_iff_inTurn (block.fitsX sumsX) (block.fitsY sumsY)).mpr
        ⟨steadyX.nearInTurn block.nonnegX, steadyY.nearInTurn block.nonnegY⟩
    refine ⟨accepted, ?_⟩
    intro before read completes
    obtain ⟨after, completed, reported⟩ := completes.adcIrq
    rw [if_pos accepted] at reported
    exact ⟨after, _, _, completed, reported, fun slot =>
      ⟨steadyX.mean block.nonnegX completes.last_le.1 slot,
        steadyY.mean block.nonnegY completes.last_le.2 slot⟩⟩
  · intro centre error _ outlier
    have rejected : ¬ s3cFilterTs block.x block.y = true := by
      rw [s3cFilterTs_iff_passes]
      rintro ⟨passesX, passesY⟩
      rcases outlier with ⟨outlierX, sumsX⟩ | ⟨outlierY, sumsY⟩
      · exact outlierX.not_nearInTurn block.nonnegX
          ((block.fitsX sumsX).passes_iff.mp passesX)
      · exact outlierY.not_nearInTurn block.nonnegY
          ((block.fitsY sumsY).passes_iff.mp passesY)
    refine ⟨Bool.eq_false_iff.mpr rejected, ?_⟩
    intro before read completes
    obtain ⟨after, completed, reported⟩ := completes.adcIrq
    rw [if_neg rejected, List.append_nil] at reported
    exact ⟨after, completed, reported⟩

/-- A pen held still along one axis, with these samples on the other. -/
def pressed (x : Fin 4 → Int) (nonneg : ∀ slot, 0 ≤ x slot)
    (coordinate : ∀ slot, x slot ≤ INT_MAX) : SampleBlock where
  x := x
  y := fun _ => 300
  nonnegX := nonneg
  nonnegY := by decide
  coordinateX := coordinate
  coordinateY := by decide

/-- A pen that is held still. -/
def stillPen : SampleBlock := pressed ![500, 503, 498, 501] (by decide) (by decide)

/-- The same with one stray sample. -/
def strayPen : SampleBlock := pressed ![500, 503, 540, 501] (by decide) (by decide)

/-- The fourth sample of a pen that is held still, and a block with a stray sample. -/
theorem filter_pens :
    (∃ after x y, adcIrq 501 300 0 { s3cTsInit with cnt := 3, x := stillPen.x, y := stillPen.y } =
        some after ∧
      after.reported = positionReport x y ∧
      ∀ slot, |x - stillPen.x slot| ≤ 10 ∧ |y - stillPen.y slot| ≤ 10) ∧
    s3cFilterTs strayPen.x strayPen.y = false := by
  constructor
  · have completes : Completes { s3cTsInit with cnt := 3, x := stillPen.x, y := stillPen.y }
        ⟨501, 300, 0⟩ stillPen :=
      ⟨rfl, by decide, Function.update_eq_self .., Function.update_eq_self ..⟩
    exact ((filter_steady_outlier stillPen).1 (by decide) (by decide) (by decide)
      (by decide)).2 _ _ completes
  · exact ((filter_steady_outlier strayPen).2 500 3 (by decide)
      (.inl ⟨⟨2, by decide, by decide⟩, by decide⟩)).1

/-- Steady, but the sum of the first two is not an `int`. -/
def wideSteady : SampleBlock :=
  pressed ![0x40000005, 0x40000005, 0x40000004, 0x40000004] (by decide) (by decide)

/-- The first sample is 1000 below the others, and its sum with the second is not an `int`. -/
def wideOutlier : SampleBlock :=
  pressed ![0x40000000, 0x400003e8, 0x400003e8, 0x400003e8] (by decide) (by decide)

/-- With an overflow the filter rejects a steady block and accepts one with an outlier. -/
theorem filter_overflows :
    (Steady wideSteady.x ∧ Steady wideSteady.y ∧
      s3cFilterTs wideSteady.x wideSteady.y = false) ∧
    Outlier wideOutlier.x 0x400003e8 0 ∧ s3cFilterTs wideOutlier.x wideOutlier.y = true := by
  decide

end Mini2440.Touch
