import Mini2440.Touch.Driver

/-!
# The block of samples

What each handler does to the four samples that `adc_irq` collects, as one inversion
lemma: the pen interrupt and the timer leave the block alone, an ADC interrupt discards
it, adds a sample or completes it, and only a completed block that the filter accepts is
reported.
-/

namespace Mini2440.Touch

/-- An event that gives a coordinate. -/
def InputEvent.isPosition : InputEvent → Bool
  | .abs .x _ | .abs .y _ => true
  | .abs .pressure _ | .btnTouch _ | .sync => false

/-- The call reports a position. -/
def reportsPosition (before after : Ts) : Bool :=
  (after.reported.drop before.reported.length).any InputEvent.isPosition

/-! ## The filter -/

/-- The coordinates of an axis on which the filter computes without an overflow. -/
structure FitsInt (values : Fin 4 → Int) : Prop where
  nonneg : ∀ slot, 0 ≤ values slot
  coordinate : ∀ slot, values slot ≤ INT_MAX
  sums : SumsFit values

/-- The samples of the converter have ten bits. -/
theorem FitsInt.of_range {values : Fin 4 → Int}
    (range : ∀ slot, 0 ≤ values slot ∧ values slot ≤ 0x3ff) : FitsInt values := by
  have range0 := range 0
  have range1 := range 1
  have range2 := range 2
  refine ⟨fun slot => (range slot).1, fun slot => (range slot).2.trans (by decide), ?_⟩
  unfold SumsFit INT_MAX
  omega

/-- Nothing is lost where the result is an `int`. -/
theorem wrapInt_eq {value : Int} (low : -0x80000000 ≤ value) (high : value ≤ INT_MAX) :
    wrapInt value = value := by
  unfold INT_MAX at high
  exact Int.bmod_eq_of_le (by omega) (by omega)

/-- The filter judges the two axes apart. -/
theorem s3cFilterTs_iff_passes (x y : Fin 4 → Int) :
    s3cFilterTs x y = true ↔ PassesInTurn x ∧ PassesInTurn y := by
  change (if deviation (x 0) (x 1) (x 2) > ERR_LIMIT ∨
      deviation (y 0) (y 1) (y 2) > ERR_LIMIT then false
    else if deviation (x 1) (x 2) (x 3) > ERR_LIMIT ∨
      deviation (y 1) (y 2) (y 3) > ERR_LIMIT then false else true) = true ↔ _
  unfold PassesInTurn
  split
  next far => simp only [Bool.false_eq_true, false_iff]; tauto
  next close =>
      split
      next far => simp only [Bool.false_eq_true, false_iff]; tauto
      next close' => simp only [true_iff]; tauto

theorem not_limit_lt_deviation_iff {first second third : Int} (nonnegFirst : 0 ≤ first)
    (nonnegSecond : 0 ≤ second) (nonnegThird : 0 ≤ third) (sum : first + second ≤ INT_MAX)
    (coordinate : third ≤ INT_MAX) :
    ¬ deviation first second third > ERR_LIMIT ↔ near first second third := by
  have exact_sum : wrapInt (first + second) = first + second := wrapInt_eq (by omega) sum
  have floor : (first + second).tdiv 2 = (first + second) / 2 :=
    Int.tdiv_eq_ediv_of_nonneg (by omega)
  unfold INT_MAX at sum coordinate
  have above : wrapInt (third - (first + second) / 2) = third - (first + second) / 2 :=
    wrapInt_eq (by omega) (by unfold INT_MAX; omega)
  have below : wrapInt ((first + second) / 2 - third) = (first + second) / 2 - third :=
    wrapInt_eq (by omega) (by unfold INT_MAX; omega)
  simp only [deviation, near, exact_sum, floor, above, below, ERR_LIMIT]
  split <;> omega

/-- Where nothing overflows, the filter tests the mean itself. -/
theorem FitsInt.passes_iff {values : Fin 4 → Int} (fits : FitsInt values) :
    PassesInTurn values ↔ NearInTurn values :=
  and_congr
    (not_limit_lt_deviation_iff (fits.nonneg 0) (fits.nonneg 1) (fits.nonneg 2) fits.sums.1
      (fits.coordinate 2))
    (not_limit_lt_deviation_iff (fits.nonneg 1) (fits.nonneg 2) (fits.nonneg 3) fits.sums.2
      (fits.coordinate 3))

/-- The filter accepts a block whose third and fourth samples are near the means of the
two before them, on both axes. -/
theorem s3cFilterTs_iff_inTurn {x y : Fin 4 → Int} (fitsX : FitsInt x) (fitsY : FitsInt y) :
    s3cFilterTs x y = true ↔ NearInTurn x ∧ NearInTurn y := by
  rw [s3cFilterTs_iff_passes, fitsX.passes_iff, fitsY.passes_iff]

theorem near_mean (first second : Int) : near first second ((first + second).tdiv 2) := by
  simp [near, ERR_LIMIT]

/-! ## What a handler does to the block -/

theorem reportsPosition_append {before after : Ts} (new : List InputEvent)
    (reported : after.reported = before.reported ++ new) :
    reportsPosition before after = new.any InputEvent.isPosition := by
  rw [reportsPosition, reported, List.drop_left]

theorem silent_of_reported_eq {before after : Ts}
    (reported : after.reported = before.reported) : reportsPosition before after = false :=
  reportsPosition_append [] (by rw [reported, List.append_nil])

theorem liftPen_silent {before middle : Ts} (reported : middle.reported = before.reported) :
    reportsPosition before middle.liftPen = false := by
  apply reportsPosition_append [.abs .pressure 0, .btnTouch 0, .sync]
  simp [Ts.liftPen, Ts.inputReportAbs, Ts.inputReportKey, Ts.inputSync,
    Ts.enterWaitPenDownMode, reported]

theorem reportMean_reports {before middle after : Ts}
    (mean : after.reported = middle.reportMean.reported)
    (reported : middle.reported = before.reported) :
    reportsPosition before after = true := by
  apply reportsPosition_append
    [.abs .x (truncatedMean middle.x), .abs .y (truncatedMean middle.y),
      .abs .pressure 1, .btnTouch 1, .sync]
  rw [mean]
  simp [Ts.reportMean, Ts.inputReportAbs, Ts.inputReportKey, Ts.inputSync, truncatedMean,
    reported]

/-- What each call does to the block of samples, and whether it reports a position. -/
inductive Effect (before : Ts) : TsEvent → Ts → Prop
  /-- The pen interrupt and the timer leave the block alone. -/
  | keep {event : TsEvent} {after : Ts} (notAdc : ∀ a b c, event ≠ .adcIrq a b c)
      (cnt : after.cnt = before.cnt) (x : after.x = before.x) (y : after.y = before.y)
      (silent : reportsPosition before after = false) : Effect before event after
  | discard (adcdat0 adcdat1 level : UInt32) {after : Ts} (up : penUp level = true)
      (cnt : after.cnt = 0) (x : after.x = before.x) (y : after.y = before.y)
      (silent : reportsPosition before after = false) :
      Effect before (.adcIrq adcdat0 adcdat1 level) after
  | collect (adcdat0 adcdat1 level : UInt32) {after : Ts} (down : penUp level = false)
      (inBounds : before.cnt < 4) (more : before.cnt < 3) (cnt : after.cnt = before.cnt + 1)
      (x : after.x = Function.update before.x ⟨before.cnt, inBounds⟩ (sample adcdat0))
      (y : after.y = Function.update before.y ⟨before.cnt, inBounds⟩ (sample adcdat1))
      (converting : after.converting = true)
      (silent : reportsPosition before after = false) :
      Effect before (.adcIrq adcdat0 adcdat1 level) after
  | complete (adcdat0 adcdat1 level : UInt32) {after : Ts} (down : penUp level = false)
      (last : before.cnt = 3) (cnt : after.cnt = 0)
      (x : after.x = Function.update before.x 3 (sample adcdat0))
      (y : after.y = Function.update before.y 3 (sample adcdat1))
      (filtered : reportsPosition before after = s3cFilterTs after.x after.y) :
      Effect before (.adcIrq adcdat0 adcdat1 level) after

/-- The pen interrupt and the timer run the same code. -/
theorem Effect.of_check {before after : Ts} {event : TsEvent} {adcdat0 : UInt32}
    (notAdc : ∀ a b c, event ≠ .adcIrq a b c) (cnt : after.cnt = before.cnt)
    (x : after.x = before.x) (y : after.y = before.y)
    (reported : after.reported = before.reported) :
    Effect before event (if penUp adcdat0 then after.liftPen else after.measure) := by
  split
  · exact .keep notAdc cnt x y (liftPen_silent reported)
  · exact .keep notAdc cnt x y (silent_of_reported_eq reported)

theorem handle_effect {before after : Ts} {event : TsEvent}
    (handled : handle before event = some after) : Effect before event after := by
  cases event with
  | penIrq adcdat0 =>
      obtain rfl := Option.some.inj handled
      exact .of_check (by simp) rfl rfl rfl rfl
  | timer adcdat0 =>
      obtain rfl := Option.some.inj handled
      exact .of_check (by simp) rfl rfl rfl rfl
  | adcIrq adcdat0 adcdat1 level =>
      simp only [handle, adcIrq] at handled
      split at handled
      next up =>
          obtain rfl := Option.some.inj handled
          exact .discard _ _ _ up rfl rfl rfl (liftPen_silent rfl)
      next down =>
          have down : penUp level = false := Bool.eq_false_iff.mpr down
          obtain ⟨stored, storing, handled⟩ := Option.bind_eq_some_iff.mp handled
          simp only [Ts.store] at storing
          split at storing
          next inBounds =>
              obtain rfl := Option.some.inj storing
              split at handled
              next full =>
                  have last : before.cnt = 3 := Nat.succ.inj full
                  have slot : (⟨before.cnt, inBounds⟩ : Fin 4) = 3 := Fin.ext last
                  obtain rfl := Option.some.inj handled
                  rw [slot]
                  split
                  next accepted =>
                      refine .complete _ _ _ down last rfl rfl rfl ?_
                      refine (?_ : reportsPosition _ _ = true).trans accepted.symm
                      exact reportMean_reports rfl rfl
                  next rejected =>
                      refine .complete _ _ _ down last rfl rfl rfl ?_
                      refine (?_ : reportsPosition _ _ = false).trans
                        (Bool.eq_false_iff.mpr rejected).symm
                      exact silent_of_reported_eq rfl
              next notFull =>
                  have more : before.cnt < 3 :=
                    Nat.lt_of_le_of_ne (Nat.le_of_lt_succ inBounds) (by simpa using notFull)
                  obtain rfl := Option.some.inj handled
                  exact .collect _ _ _ down inBounds more rfl rfl rfl rfl
                    (silent_of_reported_eq rfl)
          next => contradiction

/-- Inside the arrays no call fails. -/
theorem handle_total {ts : Ts} (counted : ts.cnt < 4) (event : TsEvent) :
    ∃ after, handle ts event = some after := by
  cases event with
  | penIrq adcdat0 => exact ⟨_, rfl⟩
  | timer adcdat0 => exact ⟨_, rfl⟩
  | adcIrq adcdat0 adcdat1 level =>
      simp only [handle, adcIrq, Ts.store, counted, dite_true]
      split
      · exact ⟨_, rfl⟩
      · simp only [Option.bind_eq_bind, Option.bind_some]
        split <;> exact ⟨_, rfl⟩

/-! ## The range of the samples -/

theorem sample_range (adcdat : UInt32) : 0 ≤ sample adcdat ∧ sample adcdat ≤ 0x3ff := by
  have masked : (adcdat &&& 0x3ff).toNat ≤ 0x3ff := by
    rw [UInt32.toNat_and]
    exact Nat.and_le_right
  unfold sample
  omega

theorem exists_sample {value : Int} (low : 0 ≤ value) (high : value ≤ 0x3ff) :
    ∃ adcdat, sample adcdat = value := by
  refine ⟨UInt32.ofNat value.toNat, ?_⟩
  have masked : value.toNat &&& (2 ^ 10 - 1) = value.toNat := by
    rw [Nat.and_two_pow_sub_one_eq_mod]
    omega
  have inWord : value.toNat % 2 ^ 32 = value.toNat := by omega
  rw [sample, UInt32.toNat_and, UInt32.toNat_ofNat', inWord]
  exact (congrArg Nat.cast masked).trans (by omega)

theorem exists_mean {x : Fin 4 → Int} (range : ∀ slot, 0 ≤ x slot ∧ x slot ≤ 0x3ff)
    (first second : Fin 4) : ∃ adcdat, sample adcdat = (x first + x second).tdiv 2 := by
  have inFirst := range first
  have inSecond := range second
  have floor : (x first + x second).tdiv 2 = (x first + x second) / 2 :=
    Int.tdiv_eq_ediv_of_nonneg (by omega)
  apply exists_sample <;> rw [floor] <;> omega

/-- The ten bits of the converter. -/
def Ts.SamplesInRange (ts : Ts) : Prop :=
  (∀ slot, 0 ≤ ts.x slot ∧ ts.x slot ≤ 0x3ff) ∧ ∀ slot, 0 ≤ ts.y slot ∧ ts.y slot ≤ 0x3ff

theorem Ts.SamplesInRange.s3cFilterTs_iff {ts : Ts} (range : ts.SamplesInRange) :
    s3cFilterTs ts.x ts.y = true ↔ NearInTurn ts.x ∧ NearInTurn ts.y :=
  s3cFilterTs_iff_inTurn (.of_range range.1) (.of_range range.2)

theorem update_inRange {x : Fin 4 → Int} (range : ∀ slot, 0 ≤ x slot ∧ x slot ≤ 0x3ff)
    (slot : Fin 4) (adcdat : UInt32) (other : Fin 4) :
    0 ≤ Function.update x slot (sample adcdat) other ∧
      Function.update x slot (sample adcdat) other ≤ 0x3ff := by
  rw [Function.update_apply]
  split
  · exact sample_range adcdat
  · exact range other

theorem Effect.samplesInRange {before after : Ts} {event : TsEvent}
    (effect : Effect before event after) (range : before.SamplesInRange) :
    after.SamplesInRange := by
  unfold Ts.SamplesInRange
  cases effect with
  | keep notAdc cnt x y silent =>
      rw [x, y]
      exact range
  | discard adcdat0 adcdat1 level up cnt x y silent =>
      rw [x, y]
      exact range
  | collect adcdat0 adcdat1 level down inBounds more cnt x y converting silent =>
      rw [x, y]
      exact ⟨update_inRange range.1 _ _, update_inRange range.2 _ _⟩
  | complete adcdat0 adcdat1 level down last cnt x y filtered =>
      rw [x, y]
      exact ⟨update_inRange range.1 _ _, update_inRange range.2 _ _⟩

end Mini2440.Touch
