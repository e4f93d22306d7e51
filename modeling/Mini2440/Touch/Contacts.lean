import Mini2440.Lib.Transition
import Mini2440.Touch.Block

/-!
# Contacts

Which samples end up in one reported position.  Each call of a handler gets a time; the
times at which the four slots of `x[]` and `y[]` were written and the times at which a
handler saw the pen up are kept beside the driver's own state.  A position is clean when
no such lift lies between two of its samples.
-/

namespace Mini2440.Touch

open Transition

/-- The driver, the number of handler calls so far, when each slot was written, and when
the pen was seen up. -/
structure Observed where
  ts : Ts
  clock : Nat
  stamps : Fin 4 → Nat
  ups : List Nat

namespace Observed

/-- Nothing has happened since `s3c_ts_init`. -/
def initial : Observed := ⟨s3cTsInit, 0, fun _ => 0, []⟩

/-- Only `adc_irq` with the pen down writes a slot, the one that `cnt` selects. -/
def stampsAfter (obs : Observed) : TsEvent → Fin 4 → Nat
  | .adcIrq _ _ level =>
      if inBounds : obs.ts.cnt < 4 then
        if Touch.penUp level then obs.stamps
        else Function.update obs.stamps ⟨obs.ts.cnt, inBounds⟩ obs.clock
      else obs.stamps
  | .penIrq _ | .timer _ => obs.stamps

/-- A call that finds the pen up is noted. -/
def upsAfter (obs : Observed) (event : TsEvent) : List Nat :=
  if event.penUp then obs.ups ++ [obs.clock] else obs.ups

/-- A call of a handler, observed. -/
def step : Step Observed TsEvent
  | obs, event =>
      (handle obs.ts event).map fun ts =>
        { ts := ts
          clock := obs.clock + 1
          stamps := obs.stampsAfter event
          ups := obs.upsAfter event }

end Observed

/-- No lift lies between two of the four samples. -/
def Observed.OneContact (obs : Observed) : Prop :=
  ∀ first last : Fin 4, ∀ up ∈ obs.ups, ¬ (obs.stamps first < up ∧ up < obs.stamps last)

instance (obs : Observed) : Decidable obs.OneContact :=
  inferInstanceAs (Decidable (∀ _ _ : Fin 4, ∀ up ∈ obs.ups, ¬ (_ ∧ _)))

/-- A position that the call reports comes from one contact. -/
def CleanReport (obs : Observed) (event : TsEvent) : Prop :=
  ∀ next ∈ Observed.step obs event, reportsPosition obs.ts next.ts = true → next.OneContact

instance (obs : Observed) (event : TsEvent) : Decidable (CleanReport obs event) :=
  inferInstanceAs (Decidable (∀ next ∈ Observed.step obs event, _ → _))

/-! ## Samples and lifts in time -/

namespace Observed

variable {obs next : Observed} {event : TsEvent}

/-- What the call does to the driver and to what is observed. -/
structure Stepped (obs : Observed) (event : TsEvent) (next : Observed) : Prop where
  effect : Effect obs.ts event next.ts
  clock : next.clock = obs.clock + 1
  stamps : next.stamps = obs.stampsAfter event
  ups : next.ups = obs.upsAfter event

theorem stepped_of_step (taken : step obs event = some next) : Stepped obs event next := by
  obtain ⟨ts, handled, rfl⟩ := Option.map_eq_some_iff.mp taken
  exact ⟨handle_effect handled, rfl, rfl, rfl⟩

theorem stampsAfter_of_notAdc (notAdc : ∀ a b c, event ≠ .adcIrq a b c) :
    obs.stampsAfter event = obs.stamps := by
  cases event with
  | adcIrq a b c => exact absurd rfl (notAdc a b c)
  | penIrq | timer => rfl

section AdcDown

variable {adcdat0 adcdat1 level : UInt32}

theorem stampsAfter_here (down : penUp level = false) {slot : Fin 4}
    (here : slot.val = obs.ts.cnt) :
    obs.stampsAfter (.adcIrq adcdat0 adcdat1 level) slot = obs.clock := by
  simp [stampsAfter, down, ← here]

theorem stampsAfter_other {slot : Fin 4} (other : slot.val ≠ obs.ts.cnt) :
    obs.stampsAfter (.adcIrq adcdat0 adcdat1 level) slot = obs.stamps slot := by
  simp only [stampsAfter]
  split
  · split
    · rfl
    · exact Function.update_of_ne (fun same => other (congrArg Fin.val same)) _ _
  · rfl

theorem upsAfter_adc (down : penUp level = false) :
    obs.upsAfter (.adcIrq adcdat0 adcdat1 level) = obs.ups := by
  simp [upsAfter, TsEvent.penUp, down]

end AdcDown

theorem mem_upsAfter {up : Nat} :
    up ∈ obs.upsAfter event ↔ up ∈ obs.ups ∨ event.penUp = true ∧ up = obs.clock := by
  cases seen : event.penUp <;> simp [upsAfter, seen]

/-- `cnt` is inside the arrays, the samples are in the range of the converter, and
everything recorded is in the past. -/
structure WellFormed (obs : Observed) : Prop where
  counted : obs.ts.cnt < 4
  range : obs.ts.SamplesInRange
  stampPast : ∀ slot : Fin 4, slot.val < obs.ts.cnt → obs.stamps slot < obs.clock
  upPast : ∀ up ∈ obs.ups, up < obs.clock

theorem initial_wellFormed : initial.WellFormed := by
  constructor <;> simp [initial, s3cTsInit, Ts.enterWaitPenDownMode, Ts.SamplesInRange]

theorem step_wellFormed : step.Preserves (fun _ _ => True) WellFormed := by
  intro obs event next wellFormed _ taken
  obtain ⟨effect, clock, stamps, ups⟩ := stepped_of_step taken
  have upPast : ∀ up ∈ next.ups, up < next.clock := by
    intro up member
    rw [clock]
    rcases mem_upsAfter.mp (ups ▸ member) with earlier | ⟨-, rfl⟩
    · exact Nat.lt_succ_of_lt (wellFormed.upPast up earlier)
    · exact Nat.lt_succ_self _
  have range := effect.samplesInRange wellFormed.range
  cases effect with
  | keep notAdc cnt x y silent =>
      refine ⟨cnt ▸ wellFormed.counted, range, ?_, upPast⟩
      intro slot written
      rw [stamps, clock, stampsAfter_of_notAdc notAdc]
      exact Nat.lt_succ_of_lt (wellFormed.stampPast slot (cnt ▸ written))
  | discard adcdat0 adcdat1 level up cnt x y silent =>
      refine ⟨by simp [cnt], range, ?_, upPast⟩
      intro slot written
      simp [cnt] at written
  | collect adcdat0 adcdat1 level down inBounds more cnt x y converting silent =>
      refine ⟨by rw [cnt]; exact Nat.succ_lt_succ more, range, ?_, upPast⟩
      intro slot written
      rw [stamps, clock]
      rcases Nat.lt_or_eq_of_le (Nat.le_of_lt_succ (cnt ▸ written)) with earlier | here
      · rw [stampsAfter_other (Nat.ne_of_lt earlier)]
        exact Nat.lt_succ_of_lt (wellFormed.stampPast slot earlier)
      · rw [stampsAfter_here down here]
        exact Nat.lt_succ_self _
  | complete adcdat0 adcdat1 level down last cnt x y filtered =>
      refine ⟨by simp [cnt], range, ?_, upPast⟩
      intro slot written
      simp [cnt] at written

/-- Every slot that a report can still use was written after the last lift. -/
def Unmixed (obs : Observed) : Prop :=
  obs.ts.OpenBlock → ∀ slot : Fin 4, slot.val < obs.ts.cnt →
    ∀ up ∈ obs.ups, up < obs.stamps slot

end Observed

/-- A lift that is seen by another handler than `adc_irq` falls outside an open block. -/
def LiftOutsideBlock (obs : Observed) : TsEvent → Prop
  | .penIrq adcdat0 | .timer adcdat0 => penUp adcdat0 = true → ¬ obs.ts.OpenBlock
  | .adcIrq .. => True

namespace Observed

theorem upsAfter_of_down {obs : Observed} {event : TsEvent} (down : event.penUp = false) :
    obs.upsAfter event = obs.ups := by
  simp [upsAfter, down]

theorem step_unmixed :
    step.Preserves LiftOutsideBlock fun obs => obs.WellFormed ∧ obs.Unmixed := by
  rintro obs event next ⟨wellFormed, unmixed⟩ outside taken
  refine ⟨step_wellFormed obs event next wellFormed trivial taken, ?_⟩
  obtain ⟨effect, clock, stamps, ups⟩ := stepped_of_step taken
  intro openBlock slot written
  rw [stamps, ups]
  cases effect with
  | keep notAdc cnt x y silent =>
      have openBefore : obs.ts.OpenBlock := by
        simpa only [Ts.OpenBlock, cnt, x, y] using openBlock
      have down : event.penUp = false := by
        rw [Bool.eq_false_iff]
        intro up
        cases event with
        | adcIrq a b c => exact notAdc a b c rfl
        | penIrq | timer => exact outside up openBefore
      rw [upsAfter_of_down down, stampsAfter_of_notAdc notAdc]
      exact unmixed openBefore slot (cnt ▸ written)
  | discard adcdat0 adcdat1 level up cnt x y silent => simp [cnt] at written
  | collect adcdat0 adcdat1 level down inBounds more cnt x y converting silent =>
      rw [upsAfter_adc down]
      rcases Nat.lt_or_eq_of_le (Nat.le_of_lt_succ (cnt ▸ written)) with earlier | here
      · rw [stampsAfter_other (Nat.ne_of_lt earlier)]
        have openBefore : obs.ts.OpenBlock :=
          ⟨Nat.zero_lt_of_lt earlier, fun full => absurd full (Nat.ne_of_lt more)⟩
        exact unmixed openBefore slot earlier
      · rw [stampsAfter_here down here]
        exact wellFormed.upPast
  | complete adcdat0 adcdat1 level down last cnt x y filtered => simp [cnt] at written

/-- A block that is reported was open, and its fourth sample is newer than any lift. -/
theorem cleanReport_of_unmixed {obs : Observed} (wellFormed : obs.WellFormed)
    (unmixed : obs.Unmixed) (event : TsEvent) : CleanReport obs event := by
  intro next taken reports
  obtain ⟨effect, clock, stamps, ups⟩ := stepped_of_step taken
  have range := effect.samplesInRange wellFormed.range
  cases effect with
  | keep notAdc cnt x y silent => simp [silent] at reports
  | discard adcdat0 adcdat1 level up cnt x y silent => simp [silent] at reports
  | collect adcdat0 adcdat1 level down inBounds more cnt x y converting silent =>
      simp [silent] at reports
  | complete adcdat0 adcdat1 level down last cnt x y filtered =>
      rw [filtered, range.s3cFilterTs_iff, x, y] at reports
      have openBlock : obs.ts.OpenBlock := by
        refine ⟨by simp [last], fun _ => ?_⟩
        simpa [Function.update_apply] using And.intro reports.1.1 reports.2.1
      intro first _ up member inside
      rw [ups, upsAfter_adc down] at member
      rw [stamps] at inside
      have newer : up < obs.stampsAfter (.adcIrq adcdat0 adcdat1 level) first := by
        rcases Nat.lt_or_eq_of_le (Nat.le_of_lt_succ first.isLt) with earlier | here
        · rw [stampsAfter_other (Nat.ne_of_lt (last.symm ▸ earlier))]
          exact unmixed openBlock first (last.symm ▸ earlier) up member
        · rw [stampsAfter_here down (here.trans last.symm)]
          exact wellFormed.upPast up member
      exact Nat.lt_asymm newer inside.1

theorem step_total {obs : Observed} (wellFormed : obs.WellFormed) (event : TsEvent) :
    ∃ next, step obs event = some next := by
  obtain ⟨ts, handled⟩ := handle_total wellFormed.counted event
  exact ⟨_, by rw [step, handled, Option.map_some]⟩

/-- An open block with a lift after its first sample can be completed and reported. -/
theorem exists_mixed {obs : Observed} (wellFormed : obs.WellFormed)
    (openBlock : obs.ts.OpenBlock) (converting : obs.ts.converting = true) {up : Nat}
    (member : up ∈ obs.ups) (older : obs.stamps 0 < up) :
    ∃ more, step.Along (fun obs => Enabled obs.ts) obs more ∧
      ¬ step.Along CleanReport obs more := by
  induction missing : 3 - obs.ts.cnt generalizing obs with
  | zero =>
      have last : obs.ts.cnt = 3 := by
        have := wellFormed.counted
        omega
      obtain ⟨nearX, nearY⟩ := openBlock.2 last
      obtain ⟨adcdat0, meanX⟩ := exists_mean wellFormed.range.1 1 2
      obtain ⟨adcdat1, meanY⟩ := exists_mean wellFormed.range.2 1 2
      obtain ⟨next, taken⟩ := step_total wellFormed (.adcIrq adcdat0 adcdat1 0)
      refine ⟨[.adcIrq adcdat0 adcdat1 0], ?_, ?_⟩
      · exact (Step.along_cons taken).mpr ⟨converting, trivial⟩
      · intro along
        obtain ⟨effect, clock, stamps, ups⟩ := stepped_of_step taken
        have range := effect.samplesInRange wellFormed.range
        cases effect with
        | keep notAdc => exact notAdc _ _ _ rfl
        | discard _ _ _ up => simp [penUp] at up
        | collect _ _ _ down inBounds more => omega
        | complete _ _ _ down _ cnt x y filtered =>
            have accepted : s3cFilterTs next.ts.x next.ts.y = true := by
              rw [range.s3cFilterTs_iff, x, y]
              simp [NearInTurn, nearX, nearY, meanX, meanY, near_mean]
            have oneContact := along.1 next taken (filtered.trans accepted)
            refine oneContact 0 3 up ?_ ⟨?_, ?_⟩
            · rw [ups, upsAfter_adc down]
              exact member
            · rw [stamps, stampsAfter_other (by simp [last])]
              exact older
            · rw [stamps, stampsAfter_here down last.symm]
              exact wellFormed.upPast up member
  | succ missing' ih =>
      obtain ⟨adcdat0, meanX⟩ := exists_mean wellFormed.range.1 0 1
      obtain ⟨adcdat1, meanY⟩ := exists_mean wellFormed.range.2 0 1
      obtain ⟨next, taken⟩ := step_total wellFormed (.adcIrq adcdat0 adcdat1 0)
      have wellFormed' := step_wellFormed _ _ _ wellFormed trivial taken
      obtain ⟨effect, clock, stamps, ups⟩ := stepped_of_step taken
      cases effect with
      | keep notAdc => exact absurd rfl (notAdc _ _ _)
      | discard _ _ _ up => simp [penUp] at up
      | complete _ _ _ down last => omega
      | collect _ _ _ down inBounds more cnt x y converting' silent =>
          have openBlock' : next.ts.OpenBlock := by
            refine ⟨by omega, fun last => ?_⟩
            have slot : (⟨obs.ts.cnt, inBounds⟩ : Fin 4) = 2 := by
              apply Fin.ext
              simp only [Fin.val_two]
              omega
            rw [x, y, slot, meanX, meanY]
            simp [near_mean]
          have older' : next.stamps 0 < up := by
            rw [stamps, stampsAfter_other (Nat.ne_of_lt openBlock.1)]
            exact older
          have member' : up ∈ next.ups := by
            rw [ups, upsAfter_adc down]
            exact member
          obtain ⟨rest, enabled, mixed⟩ :=
            ih wellFormed' openBlock' converting' member' older' (by omega)
          refine ⟨.adcIrq adcdat0 adcdat1 0 :: rest, ?_, ?_⟩
          · exact (Step.along_cons taken).mpr ⟨converting, enabled⟩
          · intro along
            exact mixed ((Step.along_cons taken).mp along).2

/-- The pen interrupt and the timer leave an open block open. -/
theorem Stepped.keeps {obs next : Observed} {event : TsEvent}
    (stepped : Stepped obs event next) (notAdc : ∀ a b c, event ≠ .adcIrq a b c)
    (openBlock : obs.ts.OpenBlock) : next.ts.OpenBlock ∧ next.stamps = obs.stamps := by
  refine ⟨?_, stepped.stamps.trans (stampsAfter_of_notAdc notAdc)⟩
  cases stepped.effect with
  | keep _ cnt x y silent => simpa only [Ts.OpenBlock, cnt, x, y] using openBlock
  | discard | collect | complete => exact absurd rfl (notAdc _ _ _)

/-- After a lift inside an open block that `adc_irq` does not see, the next contact ends
in a mixed report. -/
theorem exists_mixed_of_lift {obs : Observed} {event : TsEvent}
    (wellFormed : obs.WellFormed) (inside : ¬ LiftOutsideBlock obs event) :
    ∃ more, (Enabled obs.ts event →
        step.Along (fun obs => Enabled obs.ts) obs (event :: more)) ∧
      ¬ step.Along CleanReport obs (event :: more) := by
  obtain ⟨notAdc, up, openBlock⟩ : (∀ a b c, event ≠ .adcIrq a b c) ∧
      event.penUp = true ∧ obs.ts.OpenBlock := by
    cases event with
    | adcIrq => exact absurd trivial inside
    | penIrq | timer => simpa [LiftOutsideBlock, TsEvent.penUp] using inside
  obtain ⟨lifted, taken⟩ := step_total wellFormed event
  have wellFormed' := step_wellFormed _ _ _ wellFormed trivial taken
  have stepped := stepped_of_step taken
  obtain ⟨openBlock', stamps⟩ := stepped.keeps notAdc openBlock
  obtain ⟨down, taken'⟩ := step_total wellFormed' (.penIrq 0)
  have wellFormed'' := step_wellFormed _ _ _ wellFormed' trivial taken'
  have stepped' := stepped_of_step taken'
  obtain ⟨openBlock'', stamps'⟩ := stepped'.keeps (by simp) openBlock'
  have converting : down.ts.converting = true := by
    obtain rfl := Option.some.inj taken'
    rfl
  have member : obs.clock ∈ down.ups := by
    rw [stepped'.ups, mem_upsAfter, stepped.ups, mem_upsAfter]
    exact .inl (.inr ⟨up, rfl⟩)
  have older : down.stamps 0 < obs.clock := by
    rw [stamps', stamps]
    exact wellFormed.stampPast 0 openBlock.1
  obtain ⟨rest, enabled, mixed⟩ :=
    exists_mixed wellFormed'' openBlock'' converting member older
  refine ⟨.penIrq 0 :: rest, ?_, ?_⟩
  · intro possible
    rw [Step.along_cons taken, Step.along_cons taken']
    exact ⟨possible, trivial, enabled⟩
  · rw [Step.along_cons taken, Step.along_cons taken']
    exact fun along => mixed along.2.2

end Observed

/-- Only `adc_irq` restarts the block of samples when it finds the pen up.  In every run
in which no other handler sees the pen up inside an open block, each position that is
reported comes from one contact; any other run has such a lift, after which the next
contact can end in a position with samples of both. -/
theorem position_one_contact (events : List TsEvent) :
    (Observed.step.Along LiftOutsideBlock Observed.initial events →
      Observed.step.Along CleanReport Observed.initial events) ∧
    (¬ Observed.step.Along LiftOutsideBlock Observed.initial events →
      ∃ first event rest obs more, events = first ++ event :: rest ∧
        Observed.step.run Observed.initial first = some obs ∧ ¬ LiftOutsideBlock obs event ∧
        (Observed.step.Along (fun obs => Enabled obs.ts) Observed.initial events →
          Observed.step.Along (fun obs => Enabled obs.ts) Observed.initial
            (first ++ event :: more)) ∧
        ¬ Observed.step.Along CleanReport obs (event :: more)) := by
  constructor
  · refine Observed.step_unmixed.strengthen ?_ ⟨Observed.initial_wellFormed, ?_⟩
    · intro obs event unmixed _
      exact Observed.cleanReport_of_unmixed unmixed.1 unmixed.2 event
    · intro openBlock
      exact absurd openBlock.1 (Nat.lt_irrefl 0)
  · intro broken
    obtain ⟨first, event, rest, obs, events_eq, reached, inside⟩ :=
      Step.exists_of_not_along broken
    have wellFormed := Observed.step_wellFormed.reachable Observed.initial_wellFormed
      ⟨first, reached⟩
    obtain ⟨more, enabled, mixed⟩ := Observed.exists_mixed_of_lift wellFormed inside
    refine ⟨first, event, rest, obs, more, events_eq, reached, inside, ?_, mixed⟩
    rw [events_eq, Step.along_append reached, Step.along_append reached]
    intro possible
    exact ⟨possible.1, enabled possible.2.1⟩

/-- A contact that is reported, a lift that the pen interrupt sees, one sample of a second
contact, a lift that the timer of the first one sees, and a third contact. -/
def twoContacts : List TsEvent :=
  [.penIrq 0, .adcIrq 100 100 0, .adcIrq 100 100 0, .adcIrq 100 100 0, .adcIrq 100 100 0,
    .penIrq 0x8000, .penIrq 0, .adcIrq 500 500 0, .timer 0x8000, .penIrq 0,
    .adcIrq 512 512 0, .adcIrq 508 508 0, .adcIrq 511 511 0]

theorem twoContacts_mixed :
    Observed.step.Along (fun obs => Enabled obs.ts) Observed.initial twoContacts ∧
      ¬ Observed.step.Along CleanReport Observed.initial twoContacts := by
  decide

end Mini2440.Touch
