import Mathlib.Data.List.Flatten
import Mini2440.Lib.Blocks
import Mini2440.Touch.Modes

/-!
# The positions of the touch screen

The positions that the driver reports are a function of what its ADC interrupts read: the
reads are cut where one finds the pen up, each piece is cut into blocks of four, and the
blocks that the filter accepts are averaged.  Pen interrupts and timer expiries, which
come between the reads in any order, do not matter.
-/

namespace Mini2440.Touch

open Transition Blocks

/-! ## The stream of samples -/

/-- What one ADC interrupt reads: the data registers and the level of the pen. -/
structure AdcRead where
  adcdat0 : UInt32
  adcdat1 : UInt32
  level : UInt32
  deriving DecidableEq, Repr

/-- The pen was up. -/
def AdcRead.up (read : AdcRead) : Bool := penUp read.level

/-- What an ADC interrupt read. -/
def TsEvent.adcRead? : TsEvent → Option AdcRead
  | .adcIrq adcdat0 adcdat1 level => some ⟨adcdat0, adcdat1, level⟩
  | .penIrq _ | .timer _ => none

/-- What the ADC interrupts read, in order. -/
def adcReads (events : List TsEvent) : List AdcRead := events.filterMap TsEvent.adcRead?

/-- The samples of a block on the x axis. -/
def blockX (block : Fin 4 → AdcRead) : Fin 4 → Int := fun slot => sample (block slot).adcdat0

/-- The samples of a block on the y axis. -/
def blockY (block : Fin 4 → AdcRead) : Fin 4 → Int := fun slot => sample (block slot).adcdat1

/-- The blocks of four samples that the filter accepts. -/
def acceptedBlocks (reads : List AdcRead) : List (Fin 4 → AdcRead) :=
  (cutBlocks 4 AdcRead.up reads).filter fun block => s3cFilterTs (blockX block) (blockY block)

/-- The report of the position that a block gives. -/
def blockReport (block : Fin 4 → AdcRead) : List InputEvent :=
  [.abs .x (truncatedMean (blockX block)), .abs .y (truncatedMean (blockY block)),
    .abs .pressure 1, .btnTouch 1]

/-- The reports with `BTN_TOUCH` 1. -/
def positionReports (reported : List InputEvent) : List (List InputEvent) :=
  (syncedReports reported).filter fun report => .btnTouch 1 ∈ report

/-- The ranges that `s3c_ts_init` advertises with `input_set_abs_params`. -/
def absParams : AbsCode → Int × Int
  | .x => (0, 0x3ff)
  | .y => (0, 0x3ff)
  | .pressure => (0, 1)

/-! ## What one call reports -/

theorem positionReports_append {reported : List InputEvent} (synced : Synced reported)
    (new : List InputEvent) :
    positionReports (reported ++ new) = positionReports reported ++ positionReports new := by
  rw [positionReports, syncedReports_append synced, List.filter_append]
  rfl

/-- A call that reports no position gives no report with `BTN_TOUCH` 1. -/
theorem Ending.reports_of_silent {before after : Ts} (ending : Ending before after)
    (silent : reportsPosition before after = false) :
    ∃ new, after.reported = before.reported ++ new ∧ Synced new ∧
      positionReports new = [] := by
  cases ending with
  | lifted mode reported =>
      exact ⟨_, reported, .inr ⟨[.abs .pressure 0, .btnTouch 0], rfl⟩, by decide⟩
  | measuring mode converting reported =>
      exact ⟨[], by rw [reported, List.append_nil], .inl rfl, rfl⟩
  | completed mode timer new reported position =>
      rcases position with rfl | ⟨x, y, rfl⟩
      · exact ⟨[], reported, .inl rfl, rfl⟩
      · rw [reportsPosition_append _ reported] at silent
        exact absurd silent (by simp [positionReport, InputEvent.isPosition])

theorem reported_mean (ts : Ts) :
    ts.reportMean.reported =
      ts.reported ++ positionReport (truncatedMean ts.x) (truncatedMean ts.y) := by
  simp only [Ts.reportMean, Ts.inputReportAbs, Ts.inputReportKey, Ts.inputSync,
    List.append_assoc]
  rfl

/-- The fourth sample of a block. -/
theorem adcIrq_of_full {before : Ts} (last : before.cnt = 3)
    {adcdat0 adcdat1 level : UInt32} (down : penUp level = false) :
    ∃ after, adcIrq adcdat0 adcdat1 level before = some after ∧ after.cnt = 0 ∧
      after.x = Function.update before.x 3 (sample adcdat0) ∧
      after.y = Function.update before.y 3 (sample adcdat1) ∧
      after.reported = before.reported ++
        if s3cFilterTs after.x after.y then
          positionReport (truncatedMean after.x) (truncatedMean after.y)
        else [] := by
  have inBounds : before.cnt < 4 := by omega
  have slot : (⟨before.cnt, inBounds⟩ : Fin 4) = 3 := Fin.ext last
  have notUp : ¬ penUp level = true := Bool.eq_false_iff.mp down
  have full : before.cnt + 1 = 4 := by omega
  simp only [adcIrq, if_neg notUp, Ts.store, dif_pos inBounds, slot, Option.bind_eq_bind,
    Option.bind_some, if_pos full]
  by_cases accepted : s3cFilterTs (Function.update before.x 3 (sample adcdat0))
      (Function.update before.y 3 (sample adcdat1)) = true
  · rw [if_pos accepted]
    refine ⟨_, rfl, rfl, rfl, rfl, ?_⟩
    exact (reported_mean _).trans (congrArg _ (if_pos accepted).symm)
  · rw [if_neg accepted]
    refine ⟨_, rfl, rfl, rfl, rfl, ?_⟩
    exact (List.append_nil _).symm.trans (congrArg _ (if_neg accepted).symm)

/-! ## The samples collected so far -/

/-- `adc_irq` holds the samples of `pending`, whose block is not complete. -/
structure Ts.Collected (ts : Ts) (pending : List AdcRead) : Prop where
  counted : ts.cnt = pending.length
  short : pending.length < 4
  down : ∀ read ∈ pending, read.up = false
  x : ∀ slot : Fin 4, ∀ read, pending[slot.val]? = some read → ts.x slot = sample read.adcdat0
  y : ∀ slot : Fin 4, ∀ read, pending[slot.val]? = some read → ts.y slot = sample read.adcdat1

/-- Nothing is held when no sample is counted. -/
theorem collected_nil {ts : Ts} (cnt : ts.cnt = 0) : ts.Collected [] where
  counted := cnt
  short := Nat.zero_lt_succ 3
  down := by
    intro read member
    exact absurd member List.not_mem_nil
  x := by
    intro slot read held
    exact absurd held (by simp)
  y := by
    intro slot read held
    exact absurd held (by simp)

/-- What a slot of an array that one write extends holds. -/
theorem update_holds {values : Fin 4 → Int} {pending : List AdcRead}
    (toSample : AdcRead → Int)
    (holds : ∀ slot : Fin 4, ∀ read, pending[slot.val]? = some read →
      values slot = toSample read)
    (next : AdcRead) (free : Fin 4) (isFree : free.val = pending.length) :
    ∀ slot : Fin 4, ∀ read, (pending ++ [next])[slot.val]? = some read →
      Function.update values free (toSample next) slot = toSample read := by
  intro slot read held
  rw [Function.update_apply]
  by_cases here : slot = free
  · rw [here, isFree, List.getElem?_concat_length] at held
    rw [if_pos here, Option.some.inj held]
  · have other : slot.val ≠ pending.length := fun same => here (Fin.ext (by rw [same, isFree]))
    have inPending : slot.val < pending.length := by
      have inNext := (List.getElem?_eq_some_iff.mp held).1
      rw [List.length_append, List.length_singleton] at inNext
      omega
    rw [List.getElem?_append_left inPending] at held
    rw [if_neg here, holds slot read held]

/-- A sample that does not complete the block goes into the next slot. -/
theorem Ts.Collected.extend {before after : Ts} {pending : List AdcRead}
    (collected : before.Collected pending) {read : AdcRead} (down : read.up = false)
    (inBounds : before.cnt < 4) (more : before.cnt < 3)
    (cnt : after.cnt = before.cnt + 1)
    (x : after.x = Function.update before.x ⟨before.cnt, inBounds⟩ (sample read.adcdat0))
    (y : after.y = Function.update before.y ⟨before.cnt, inBounds⟩ (sample read.adcdat1)) :
    after.Collected (pending ++ [read]) where
  counted := by rw [cnt, collected.counted, List.length_append, List.length_singleton]
  short := by
    rw [List.length_append, List.length_singleton, ← collected.counted]
    omega
  down := by
    intro other member
    rcases List.mem_append.mp member with earlier | here
    · exact collected.down other earlier
    · rw [List.mem_singleton.mp here]
      exact down
  x := by
    rw [x]
    exact update_holds (fun read => sample read.adcdat0) collected.x read _ collected.counted
  y := by
    rw [y]
    exact update_holds (fun read => sample read.adcdat1) collected.y read _ collected.counted

/-- The fourth sample completes a block of reads, and the arrays hold its samples. -/
theorem Ts.Collected.block {ts : Ts} {pending : List AdcRead}
    (collected : ts.Collected pending) (last : ts.cnt = 3) {read : AdcRead}
    (down : read.up = false) :
    ∃ block : Fin 4 → AdcRead, pending ++ [read] = List.ofFn block ∧
      (∀ slot, (block slot).up = false) ∧
      Function.update ts.x 3 (sample read.adcdat0) = blockX block ∧
      Function.update ts.y 3 (sample read.adcdat1) = blockY block := by
  have size : (pending ++ [read]).length = 4 := by
    rw [List.length_append, List.length_singleton, ← collected.counted, last]
  obtain ⟨block, whole⟩ := exists_block size
  have held : ∀ slot : Fin 4, (pending ++ [read])[slot.val]? = some (block slot) := by
    intro slot
    rw [whole, List.getElem?_ofFn, dif_pos slot.isLt]
  have isFree : (3 : Fin 4).val = pending.length := last.symm.trans collected.counted
  refine ⟨block, whole, ?_, ?_, ?_⟩
  · intro slot
    rcases List.mem_append.mp (List.mem_of_getElem? (held slot)) with earlier | here
    · exact collected.down _ earlier
    · rw [List.mem_singleton.mp here]
      exact down
  · funext slot
    exact update_holds (fun read => sample read.adcdat0) collected.x read 3 isFree slot _
      (held slot)
  · funext slot
    exact update_holds (fun read => sample read.adcdat1) collected.y read 3 isFree slot _
      (held slot)

theorem acceptedBlocks_cut {pending : List AdcRead}
    (down : ∀ read ∈ pending, read.up = false) (short : pending.length < 4) {read : AdcRead}
    (up : read.up = true) (rest : List AdcRead) :
    acceptedBlocks (pending ++ read :: rest) = acceptedBlocks rest := by
  rw [acceptedBlocks, cutBlocks_cut down short up]
  rfl

theorem acceptedBlocks_block {block : Fin 4 → AdcRead}
    (down : ∀ slot, (block slot).up = false) (rest : List AdcRead) :
    acceptedBlocks (List.ofFn block ++ rest) =
      if s3cFilterTs (blockX block) (blockY block) then block :: acceptedBlocks rest
      else acceptedBlocks rest := by
  rw [acceptedBlocks, cutBlocks_block (Nat.zero_lt_succ 3) down, List.filter_cons]
  rfl

theorem positionReports_positionReport (block : Fin 4 → AdcRead) :
    positionReports (positionReport (truncatedMean (blockX block))
      (truncatedMean (blockY block))) = [blockReport block] := by
  have touched : InputEvent.btnTouch 1 ∈ blockReport block := by simp [blockReport]
  exact List.filter_eq_self.mpr fun report member => by
    rw [List.mem_singleton.mp member]
    exact decide_eq_true touched

/-- What one call does to the samples collected so far and to the position reports, told
by the blocks of the reads. -/
theorem handle_collected {before : Ts} {pending : List AdcRead}
    (collected : before.Collected pending) (event : TsEvent) :
    ∃ after now new, handle before event = some after ∧ after.Collected now ∧
      after.reported = before.reported ++ new ∧ Synced new ∧
      ∀ rest, (acceptedBlocks (pending ++ (event.adcRead?.toList ++ rest))).map blockReport =
        positionReports new ++ (acceptedBlocks (now ++ rest)).map blockReport := by
  have counted : before.cnt < 4 := by
    rw [collected.counted]
    exact collected.short
  obtain ⟨after, handled⟩ := handle_total counted event
  have ending := handle_ending handled
  cases handle_effect handled with
  | keep notAdc cnt x y silent =>
      obtain ⟨new, reported, synced, unreported⟩ := ending.reports_of_silent silent
      have noRead : event.adcRead? = none := by
        cases event with
        | penIrq adcdat0 => rfl
        | timer adcdat0 => rfl
        | adcIrq adcdat0 adcdat1 level => exact absurd rfl (notAdc adcdat0 adcdat1 level)
      refine ⟨after, pending, new, handled, ?_, reported, synced, ?_⟩
      · exact ⟨cnt.trans collected.counted, collected.short, collected.down,
          x ▸ collected.x, y ▸ collected.y⟩
      · intro rest
        rw [noRead, unreported]
        rfl
  | discard adcdat0 adcdat1 level up cnt x y silent =>
      obtain ⟨new, reported, synced, unreported⟩ := ending.reports_of_silent silent
      refine ⟨after, [], new, handled, ?_, reported, synced, ?_⟩
      · exact collected_nil cnt
      · intro rest
        have cut : AdcRead.up ⟨adcdat0, adcdat1, level⟩ = true := up
        rw [unreported]
        exact congrArg _ (acceptedBlocks_cut collected.down collected.short cut rest)
  | collect adcdat0 adcdat1 level down inBounds more cnt x y converting silent =>
      obtain ⟨new, reported, synced, unreported⟩ := ending.reports_of_silent silent
      refine ⟨after, pending ++ [⟨adcdat0, adcdat1, level⟩], new, handled, ?_, reported,
        synced, ?_⟩
      · exact collected.extend (show AdcRead.up ⟨adcdat0, adcdat1, level⟩ = false from down)
          inBounds more cnt x y
      · intro rest
        rw [unreported, List.append_assoc]
        rfl
  | complete adcdat0 adcdat1 level down last cnt x y filtered =>
      have full : ({ before with converting := false } : Ts).cnt = 3 := last
      obtain ⟨completed, completing, _, _, _, reported⟩ := adcIrq_of_full full down
      obtain rfl : completed = after := Option.some.inj (completing.symm.trans handled)
      obtain ⟨block, whole, blockDown, blockOfX, blockOfY⟩ :=
        collected.block last (show AdcRead.up ⟨adcdat0, adcdat1, level⟩ = false from down)
      rw [x.trans blockOfX, y.trans blockOfY] at reported
      refine ⟨completed, [], _, handled, ?_, reported, ?_, ?_⟩
      · exact collected_nil cnt
      · split
        · exact .inr ⟨[.abs .x _, .abs .y _, .abs .pressure 1, .btnTouch 1], rfl⟩
        · exact .inl rfl
      · intro rest
        have next : pending ++ (⟨adcdat0, adcdat1, level⟩ : AdcRead) :: rest =
            List.ofFn block ++ rest := by
          rw [List.append_cons, whole]
        refine (congrArg (fun reads => (acceptedBlocks reads).map blockReport) next).trans ?_
        rw [acceptedBlocks_block blockDown]
        split
        · rw [positionReports_positionReport]
          rfl
        · rfl

/-! ## The runs -/

theorem run_positions {ts : Ts} {pending : List AdcRead} (collected : ts.Collected pending)
    (synced : Synced ts.reported) (events : List TsEvent) :
    ∃ final, Step.run handle ts events = some final ∧
      positionReports final.reported = positionReports ts.reported ++
        (acceptedBlocks (pending ++ adcReads events)).map blockReport := by
  induction events generalizing ts pending with
  | nil =>
      refine ⟨ts, rfl, ?_⟩
      have incomplete : acceptedBlocks (pending ++ adcReads []) = [] := by
        rw [acceptedBlocks, adcReads, List.filterMap_nil, List.append_nil,
          cutBlocks_of_short collected.down collected.short]
        rfl
      rw [incomplete, List.map_nil, List.append_nil]
  | cons event events ih =>
      obtain ⟨after, now, new, handled, collectedNow, reported, newSynced, blocks⟩ :=
        handle_collected collected event
      have afterSynced : Synced after.reported := by
        rw [reported]
        exact synced.append newSynced
      obtain ⟨final, reached, positions⟩ := ih collectedNow afterSynced
      refine ⟨final, by rw [Step.run_cons_of_eq handled, reached], ?_⟩
      have reads : adcReads (event :: events) = event.adcRead?.toList ++ adcReads events := by
        cases event <;> rfl
      rw [positions, reported, positionReports_append synced, reads, blocks,
        List.append_assoc]

/-! ## The mean of a block -/

/-- The value lies between the least and the greatest of the four. -/
def WithinSamples (values : Fin 4 → Int) (value : Int) : Prop :=
  (∃ slot, values slot ≤ value) ∧ ∃ slot, value ≤ values slot

theorem blockX_range (block : Fin 4 → AdcRead) (slot : Fin 4) :
    0 ≤ blockX block slot ∧ blockX block slot ≤ 0x3ff := sample_range _

theorem blockY_range (block : Fin 4 → AdcRead) (slot : Fin 4) :
    0 ≤ blockY block slot ∧ blockY block slot ≤ 0x3ff := sample_range _

theorem s3cFilterTs_iff_reads (block : Fin 4 → AdcRead) :
    s3cFilterTs (blockX block) (blockY block) = true ↔
      NearInTurn (blockX block) ∧ NearInTurn (blockY block) :=
  s3cFilterTs_iff_inTurn (.of_range (blockX_range block)) (.of_range (blockY_range block))

/-- The mean is rounded down where no sample is negative and the sum is an `int`. -/
theorem truncatedMean_eq {values : Fin 4 → Int} (nonneg : ∀ slot, 0 ≤ values slot)
    (sum : values 0 + values 1 + values 2 + values 3 ≤ INT_MAX) :
    truncatedMean values = (values 0 + values 1 + values 2 + values 3) / 4 := by
  have nonneg0 := nonneg 0
  have nonneg1 := nonneg 1
  have nonneg2 := nonneg 2
  have nonneg3 := nonneg 3
  rw [truncatedMean, wrapInt_eq (by omega) sum]
  exact Int.tdiv_eq_ediv_of_nonneg (by omega)

theorem sum_le_of_range {values : Fin 4 → Int}
    (range : ∀ slot, 0 ≤ values slot ∧ values slot ≤ 0x3ff) :
    values 0 + values 1 + values 2 + values 3 ≤ INT_MAX := by
  have range0 := range 0
  have range1 := range 1
  have range2 := range 2
  have range3 := range 3
  unfold INT_MAX
  omega

theorem withinSamples_mean {values : Fin 4 → Int} (nonneg : ∀ slot, 0 ≤ values slot)
    (sum : values 0 + values 1 + values 2 + values 3 ≤ INT_MAX) :
    WithinSamples values (truncatedMean values) := by
  rw [truncatedMean_eq nonneg sum]
  constructor
  · by_contra above
    have above : ∀ slot, (values 0 + values 1 + values 2 + values 3) / 4 < values slot := by
      simpa using above
    have above0 := above 0
    have above1 := above 1
    have above2 := above 2
    have above3 := above 3
    omega
  · by_contra below
    have below : ∀ slot, values slot < (values 0 + values 1 + values 2 + values 3) / 4 := by
      simpa using below
    have below0 := below 0
    have below1 := below 1
    have below2 := below 2
    have below3 := below 3
    omega

/-- The means of what the converter gives. -/
theorem withinSamples_of_range {values : Fin 4 → Int}
    (range : ∀ slot, 0 ≤ values slot ∧ values slot ≤ 0x3ff) :
    WithinSamples values (truncatedMean values) :=
  withinSamples_mean (fun slot => (range slot).1) (sum_le_of_range range)

theorem mean_inRange {values : Fin 4 → Int}
    (range : ∀ slot, 0 ≤ values slot ∧ values slot ≤ 0x3ff) :
    0 ≤ truncatedMean values ∧ truncatedMean values ≤ 0x3ff := by
  obtain ⟨⟨least, above⟩, greatest, below⟩ := withinSamples_of_range range
  exact ⟨(range least).1.trans above, below.trans (range greatest).2⟩

theorem blockReport_inRange (block : Fin 4 → AdcRead) {code : AbsCode} {value : Int}
    (reported : .abs code value ∈ blockReport block) :
    (absParams code).1 ≤ value ∧ value ≤ (absParams code).2 := by
  simp only [blockReport, List.mem_cons, InputEvent.abs.injEq, List.not_mem_nil, or_false,
    reduceCtorEq] at reported
  rcases reported with ⟨rfl, mean⟩ | ⟨rfl, mean⟩ | ⟨rfl, rfl⟩
  · rw [mean]
    exact mean_inRange (blockX_range block)
  · rw [mean]
    exact mean_inRange (blockY_range block)
  · exact ⟨Int.one_nonneg, Int.le_refl 1⟩

/-- The position reports are the means of the accepted blocks of what the ADC interrupts
read, whatever else happens in between, and no call indexes the arrays outside.  No read is
in two blocks, each coordinate lies between the least and the greatest of its four samples,
and it is in the advertised range. -/
theorem positions_of_reads (events : List TsEvent) :
    ∃ final, Step.run handle s3cTsInit events = some final ∧
      positionReports final.reported = (acceptedBlocks (adcReads events)).map blockReport ∧
      ((acceptedBlocks (adcReads events)).flatMap List.ofFn).Sublist (adcReads events) ∧
      (∀ block ∈ acceptedBlocks (adcReads events),
        WithinSamples (blockX block) (truncatedMean (blockX block)) ∧
          WithinSamples (blockY block) (truncatedMean (blockY block))) ∧
      ∀ report ∈ positionReports final.reported, ∀ code value,
        .abs code value ∈ report →
          (absParams code).1 ≤ value ∧ value ≤ (absParams code).2 := by
  have initial : s3cTsInit.Collected [] := collected_nil rfl
  obtain ⟨final, reached, positions⟩ := run_positions initial (.inl rfl) events
  have positions : positionReports final.reported =
      (acceptedBlocks (adcReads events)).map blockReport := positions
  refine ⟨final, reached, positions, ?_, ?_, ?_⟩
  · have accepted : (acceptedBlocks (adcReads events)).Sublist
        (cutBlocks 4 AdcRead.up (adcReads events)) := List.filter_sublist
    exact (accepted.flatMap List.ofFn).trans (cutBlocks_sublist (Nat.zero_lt_succ 3) _ _)
  · intro block _
    exact ⟨withinSamples_of_range (blockX_range block),
      withinSamples_of_range (blockY_range block)⟩
  · intro report member code value reported
    rw [positions] at member
    obtain ⟨block, _, rfl⟩ := List.mem_map.mp member
    exact blockReport_inRange block reported

end Mini2440.Touch
