import Mathlib.Data.Fin.VecNotation
import Mini2440.Touch.Filter

/-!
# A pen that slides

How fast the pen may move over the screen.  The filter compares a sample with the mean of the
two before it, so it drops a block for a movement as well as for noise.  What is reported
follows the pen, block by block, exactly as long as three times what the pen moves from one
conversion to the next and four times the error of a conversion are at most 20 together.
-/

namespace Mini2440.Touch

open Transition Blocks

/-! ## Pen and samples -/

/-- A place on the screen, in counts of the converter. -/
structure Place where
  x : Int
  y : Int
  deriving DecidableEq, Repr

/-- What one ADC interrupt reads, and where the pen was at its conversion. -/
structure Conversion where
  read : AdcRead
  pen : Place
  deriving DecidableEq, Repr

/-- The pen was up when it was read. -/
def Conversion.up (conversion : Conversion) : Bool := conversion.read.up

/-- The reads of a block of conversions. -/
def blockReads (block : Fin 4 → Conversion) : Fin 4 → AdcRead := fun slot => (block slot).read

/-- The blocks of four conversions between which the pen was not found up. -/
def penBlocks (conversions : List Conversion) : List (Fin 4 → Conversion) :=
  cutBlocks 4 Conversion.up conversions

/-- The samples are the places but for `noise`, and the places are at most `speed` apart from
one to the next. -/
structure Follows (speed noise : Nat) (samples places : Fin 4 → Int) : Prop where
  shown : ∀ slot, |samples slot - places slot| ≤ noise
  moved : ∀ slot : Fin 3, |places slot.succ - places slot.castSucc| ≤ speed

/-- The pen slides on both axes. -/
structure Slides (speed noise : Nat) (block : Fin 4 → Conversion) : Prop where
  x : Follows speed noise (blockX (blockReads block)) fun slot => (block slot).pen.x
  y : Follows speed noise (blockY (blockReads block)) fun slot => (block slot).pen.y

/-- What is reported for the block is within `ERR_LIMIT` of the pen at each conversion. -/
def Tracked (block : Fin 4 → Conversion) : Prop :=
  ∀ slot,
    |truncatedMean (blockX (blockReads block)) - (block slot).pen.x| ≤ ERR_LIMIT ∧
      |truncatedMean (blockY (blockReads block)) - (block slot).pen.y| ≤ ERR_LIMIT

/-! ## Slow slides -/

section

variable {speed noise : Nat} {samples places : Fin 4 → Int}

/-- A slide on one axis, with its bounds written out. -/
theorem Follows.bounds (follows : Follows speed noise samples places) :
    (∀ slot, -(noise : Int) ≤ samples slot - places slot ∧ samples slot - places slot ≤ noise) ∧
      (-(speed : Int) ≤ places 1 - places 0 ∧ places 1 - places 0 ≤ speed) ∧
      (-(speed : Int) ≤ places 2 - places 1 ∧ places 2 - places 1 ≤ speed) ∧
      -(speed : Int) ≤ places 3 - places 2 ∧ places 3 - places 2 ≤ speed :=
  ⟨fun slot => abs_le.mp (follows.shown slot), abs_le.mp (follows.moved 0),
    abs_le.mp (follows.moved 1), abs_le.mp (follows.moved 2)⟩

theorem Follows.nearInTurn (follows : Follows speed noise samples places)
    (slow : 3 * speed + 4 * noise ≤ 20) (nonneg : ∀ slot, 0 ≤ samples slot) :
    NearInTurn samples := by
  obtain ⟨shown, first, second, third⟩ := follows.bounds
  have shown0 := shown 0
  have shown1 := shown 1
  have shown2 := shown 2
  have shown3 := shown 3
  constructor
  · rw [near_iff (nonneg 0) (nonneg 1)]
    omega
  · rw [near_iff (nonneg 1) (nonneg 2)]
    omega

theorem Follows.mean (follows : Follows speed noise samples places)
    (slow : 3 * speed + 4 * noise ≤ 20)
    (range : ∀ slot, 0 ≤ samples slot ∧ samples slot ≤ 0x3ff) (slot : Fin 4) :
    |truncatedMean samples - places slot| ≤ ERR_LIMIT := by
  obtain ⟨shown, first, second, third⟩ := follows.bounds
  have shown0 := shown 0
  have shown1 := shown 1
  have shown2 := shown 2
  have shown3 := shown 3
  rw [truncatedMean_eq (fun slot => (range slot).1) (sum_le_of_range range), abs_le, ERR_LIMIT]
  have slots : slot = 0 ∨ slot = 1 ∨ slot = 2 ∨ slot = 3 := by omega
  rcases slots with rfl | rfl | rfl | rfl <;> omega

end

section

variable {speed noise : Nat} {block : Fin 4 → Conversion}

theorem Slides.accepted (slides : Slides speed noise block)
    (slow : 3 * speed + 4 * noise ≤ 20) :
    s3cFilterTs (blockX (blockReads block)) (blockY (blockReads block)) = true :=
  (s3cFilterTs_iff_reads _).mpr
    ⟨slides.x.nearInTurn slow fun slot => (blockX_range _ slot).1,
      slides.y.nearInTurn slow fun slot => (blockY_range _ slot).1⟩

theorem Slides.tracked (slides : Slides speed noise block)
    (slow : 3 * speed + 4 * noise ≤ 20) : Tracked block := fun slot =>
  ⟨slides.x.mean slow (blockX_range _) slot, slides.y.mean slow (blockY_range _) slot⟩

end

/-! ## The runs -/

/-- The reads of the conversions are cut into the same blocks. -/
theorem cutBlocks_reads (conversions : List Conversion) :
    cutBlocks 4 AdcRead.up (conversions.map Conversion.read) =
      (penBlocks conversions).map blockReads :=
  cutBlocks_map Conversion.read AdcRead.up conversions

/-- Where the filter accepts every block, every block is reported. -/
theorem run_reports {events : List TsEvent} {conversions : List Conversion}
    (reads : adcReads events = conversions.map Conversion.read)
    (accepted : ∀ block ∈ penBlocks conversions,
      s3cFilterTs (blockX (blockReads block)) (blockY (blockReads block)) = true) :
    ∃ final, Step.run handle s3cTsInit events = some final ∧
      positionReports final.reported =
        (penBlocks conversions).map fun block => blockReport (blockReads block) := by
  have initial : s3cTsInit.Collected [] := collected_nil rfl
  obtain ⟨final, reached, positions⟩ := run_positions initial (.inl rfl) events
  have all : acceptedBlocks (adcReads events) = (penBlocks conversions).map blockReads := by
    rw [acceptedBlocks, reads, cutBlocks_reads, List.filter_eq_self]
    exact List.forall_mem_map.mpr accepted
  refine ⟨final, reached, positions.trans ?_⟩
  rw [List.nil_append, all, List.map_map]
  rfl

/-! ## Fast slides -/

/-- A contact of four conversions, from the pen interrupt to the last ADC interrupt. -/
def contact (adcdat0 : Fin 4 → UInt32) : List TsEvent :=
  .penIrq 0 :: List.ofFn fun slot => .adcIrq (adcdat0 slot) 0 0

theorem contact_enabled (adcdat0 : Fin 4 → UInt32) :
    Step.Along handle Enabled s3cTsInit (contact adcdat0) :=
  ⟨trivial, rfl, rfl, rfl, rfl, trivial⟩

/-- Up along one axis at `speed`, read too low at first and too high then. -/
def fastPlaces (speed noise : Nat) : Fin 4 → Int :=
  ![noise, noise + speed, noise + 2 * speed, noise + 2 * speed]

/-- What is read of these places. -/
def fastSamples (speed noise : Nat) : Fin 4 → Int :=
  ![0, speed, 2 * noise + 2 * speed, 2 * noise + 2 * speed]

theorem fast_follows (speed noise : Nat) :
    Follows speed noise (fastSamples speed noise) (fastPlaces speed noise) := by
  constructor
  · intro slot
    rw [abs_le]
    match slot with
    | 0 | 1 | 2 | 3 => simp [fastSamples, fastPlaces] <;> omega
  · intro slot
    rw [abs_le]
    match slot with
    | 0 | 1 | 2 => simp [fastPlaces] <;> omega

theorem fast_not_inTurn {speed noise : Nat} (fast : 20 < 3 * speed + 4 * noise) :
    ¬ NearInTurn (fastSamples speed noise) := by
  rintro ⟨firstTest, -⟩
  have nonneg : ∀ slot, 0 ≤ fastSamples speed noise slot := by
    intro slot
    match slot with
    | 0 | 1 | 2 | 3 => simp [fastSamples] <;> omega
  rw [near_iff (nonneg 0) (nonneg 1)] at firstTest
  simp [fastSamples] at firstTest
  omega

/-- A pen may be slower and its samples better than the bounds. -/
theorem Follows.mono {speed noise slower less : Nat} {samples places : Fin 4 → Int}
    (follows : Follows slower less samples places) (slow : slower ≤ speed)
    (few : less ≤ noise) : Follows speed noise samples places where
  shown slot := (follows.shown slot).trans (Int.ofNat_le.mpr few)
  moved slot := (follows.moved slot).trans (Int.ofNat_le.mpr slow)

/-- A block of conversions of which `samples` are read while the pen is at `places`. -/
theorem exists_conversions {samples : Fin 4 → Int}
    (range : ∀ slot, 0 ≤ samples slot ∧ samples slot ≤ 0x3ff) (places : Fin 4 → Int) :
    ∃ adcdat0 : Fin 4 → UInt32, ∃ block : Fin 4 → Conversion,
      adcReads (contact adcdat0) = (List.ofFn block).map Conversion.read ∧
      penBlocks (List.ofFn block) = [block] ∧ blockX (blockReads block) = samples ∧
      ∀ speed noise, Follows speed noise samples places → Slides speed noise block := by
  choose adcdat0 read using fun slot => exists_sample (range slot).1 (range slot).2
  let block : Fin 4 → Conversion := fun slot => ⟨⟨adcdat0 slot, 0, 0⟩, ⟨places slot, 0⟩⟩
  have blockX_eq : blockX (blockReads block) = samples := funext read
  refine ⟨adcdat0, block, rfl, ?_, blockX_eq, ?_⟩
  · have down : ∀ slot, (block slot).up = false := fun _ => (by decide : penUp 0 = false)
    have whole := cutBlocks_block (Nat.zero_lt_succ 3) down []
    rwa [List.append_nil] at whole
  · intro speed noise follows
    refine ⟨blockX_eq ▸ follows, ?_, ?_⟩
    · intro slot
      have still : blockY (blockReads block) slot = 0 := (by decide : sample 0 = 0)
      simp [still, block]
    · intro slot
      simp [block]

/-- A slide that is too fast, of which nothing is accepted. -/
theorem exists_dropped {speed noise : Nat} (fast : 20 < 3 * speed + 4 * noise) :
    ∃ adcdat0 : Fin 4 → UInt32, ∃ block : Fin 4 → Conversion,
      adcReads (contact adcdat0) = (List.ofFn block).map Conversion.read ∧
      penBlocks (List.ofFn block) = [block] ∧ Slides speed noise block ∧
      acceptedBlocks (adcReads (contact adcdat0)) = [] := by
  -- the slowest of the slides that are too fast, so that its samples fit the converter
  have bounded : 20 < 3 * min speed 7 + 4 * min noise 6 := by omega
  have range : ∀ slot, 0 ≤ fastSamples (min speed 7) (min noise 6) slot ∧
      fastSamples (min speed 7) (min noise 6) slot ≤ 0x3ff := by
    intro slot
    match slot with
    | 0 | 1 | 2 | 3 => simp [fastSamples] <;> omega
  obtain ⟨adcdat0, block, reads, blocks, samples, slides⟩ :=
    exists_conversions range (fastPlaces (min speed 7) (min noise 6))
  refine ⟨adcdat0, block, reads, blocks, slides speed noise ?_, ?_⟩
  · exact (fast_follows _ _).mono (Nat.min_le_left speed 7) (Nat.min_le_left noise 6)
  · have rejected :
        ¬ s3cFilterTs (blockX (blockReads block)) (blockY (blockReads block)) = true := by
      rw [s3cFilterTs_iff_reads, samples]
      exact fun inTurn => fast_not_inTurn bounded inTurn.1
    rw [acceptedBlocks, reads, cutBlocks_reads, blocks]
    simp [rejected]

/-- Whatever the order of the driver's calls, every four conversions of a contact are reported
as a place within `ERR_LIMIT` of the pen at each of them, if and only if three times the speed
of the pen and four times the error of a conversion are at most 20. -/
theorem slides_tracked_iff (speed noise : Nat) :
    (∀ events conversions, Step.Along handle Enabled s3cTsInit events →
      adcReads events = conversions.map Conversion.read →
      (∀ block ∈ penBlocks conversions, Slides speed noise block) →
        ∃ final, Step.run handle s3cTsInit events = some final ∧
          positionReports final.reported =
            (penBlocks conversions).map (fun block => blockReport (blockReads block)) ∧
          ∀ block ∈ penBlocks conversions, Tracked block) ↔
      3 * speed + 4 * noise ≤ 20 := by
  constructor
  · intro tracked
    by_contra fast
    obtain ⟨adcdat0, block, reads, blocks, slides, none_accepted⟩ :=
      exists_dropped (Nat.lt_of_not_le fast)
    have allSlide : ∀ other ∈ penBlocks (List.ofFn block), Slides speed noise other := by
      rw [blocks]
      exact List.forall_mem_singleton.mpr slides
    obtain ⟨final, reached, positions, -⟩ :=
      tracked (contact adcdat0) (List.ofFn block) (contact_enabled adcdat0) reads allSlide
    have initial : s3cTsInit.Collected [] := collected_nil rfl
    obtain ⟨final', reached', dropped⟩ := run_positions initial (.inl rfl) (contact adcdat0)
    obtain rfl : final = final' := Option.some.inj (reached.symm.trans reached')
    have none_before : positionReports s3cTsInit.reported = [] := rfl
    rw [List.nil_append, none_accepted, none_before, positions, blocks] at dropped
    contradiction
  · intro slow events conversions _ reads slides
    obtain ⟨final, reached, positions⟩ :=
      run_reports reads fun block member => (slides block member).accepted slow
    exact ⟨final, reached, positions, fun block member => (slides block member).tracked slow⟩

end Mini2440.Touch
