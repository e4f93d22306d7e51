import Mini2440.Lib.Transition
import Mini2440.Touch.Block

/-!
# The modes of the touch screen

Each handler ends in one of three ways: the pen is up and the driver waits for the next
contact, a sample is being measured, or a block is complete and the timer will look at
the pen again.  In none of them is the driver left without an event that takes it on, and
the last of `BTN_TOUCH` that the input core has seen fits the mode.
-/

namespace Mini2440.Touch

open Transition

/-! ## The modes -/

/-- ADCTSC as `enter_wait_pen_down_mode` leaves it. -/
def Ts.WaitPenDown (ts : Ts) : Prop := ts.adctsc = 0xd3

/-- ADCTSC as `enter_wait_pen_up_mode` leaves it. -/
def Ts.WaitPenUp (ts : Ts) : Prop := ts.adctsc = 0x1d3

/-- ADCTSC as `enter_measure_xy_mode` leaves it. -/
def Ts.MeasureXy (ts : Ts) : Prop := ts.adctsc = ((1 : UInt32) <<< 2) ||| ((1 : UInt32) <<< 3)

/-- The value of `BTN_TOUCH`. -/
def InputEvent.touch? : InputEvent → Option Int
  | .btnTouch value => some value
  | .abs .. | .sync => none

/-- The value of `ABS_PRESSURE`. -/
def InputEvent.pressure? : InputEvent → Option Int
  | .abs .pressure value => some value
  | .abs .x _ | .abs .y _ | .btnTouch _ | .sync => none

/-- The last `BTN_TOUCH` that was reported. -/
def lastTouch (reported : List InputEvent) : Option Int :=
  (reported.filterMap InputEvent.touch?).getLast?

/-- Between two handlers the driver waits for something that will happen: a contact, with
no touch reported, the timer, or a conversion. -/
inductive Ts.Live (ts : Ts) : Prop
  | waitPenDown (mode : ts.WaitPenDown)
      (released : lastTouch ts.reported = none ∨ lastTouch ts.reported = some 0)
  | waitPenUp (mode : ts.WaitPenUp) (timer : ts.timer = true)
  | measureXy (mode : ts.MeasureXy) (converting : ts.converting = true)

/-! ## The reports -/

/-- The reports in what follows the unsynced events `pending`. -/
def reportsAfter (pending : List InputEvent) : List InputEvent → List (List InputEvent)
  | [] => []
  | .sync :: rest => pending :: reportsAfter [] rest
  | .abs code value :: rest => reportsAfter (pending ++ [.abs code value]) rest
  | .btnTouch value :: rest => reportsAfter (pending ++ [.btnTouch value]) rest

/-- The groups of events that `input_sync` ends. -/
def syncedReports (reported : List InputEvent) : List (List InputEvent) :=
  reportsAfter [] reported

/-- A report gives `ABS_PRESSURE` and `BTN_TOUCH` once each, with one value. -/
def Agrees (report : List InputEvent) : Prop :=
  ∃ value, report.filterMap InputEvent.pressure? = [value] ∧
    report.filterMap InputEvent.touch? = [value]

/-- Nothing was reported since the last `input_sync`. -/
def Synced (reported : List InputEvent) : Prop :=
  reported = [] ∨ ∃ earlier, reported = earlier ++ [.sync]

theorem reportsAfter_sync (pending first second : List InputEvent) :
    reportsAfter pending (first ++ .sync :: second) =
      reportsAfter pending (first ++ [.sync]) ++ reportsAfter [] second := by
  induction first generalizing pending with
  | nil => rfl
  | cons event first ih =>
      cases event with
      | sync =>
          exact congrArg (List.cons pending) (ih [])
      | abs code value => exact ih _
      | btnTouch value => exact ih _

/-- Where nothing is pending, later events make reports of their own. -/
theorem syncedReports_append {reported : List InputEvent} (synced : Synced reported)
    (new : List InputEvent) :
    syncedReports (reported ++ new) = syncedReports reported ++ syncedReports new := by
  rcases synced with rfl | ⟨earlier, rfl⟩
  · rfl
  · rw [List.append_assoc]
    exact reportsAfter_sync [] earlier new

/-! ## How a handler ends -/

/-- The report of a lifted pen. -/
def liftReport : List InputEvent := [.abs .pressure 0, .btnTouch 0, .sync]

/-- The report of a position. -/
def positionReport (x y : Int) : List InputEvent :=
  [.abs .x x, .abs .y y, .abs .pressure 1, .btnTouch 1, .sync]

/-- The three ways in which a handler ends. -/
inductive Ending (before after : Ts) : Prop
  | lifted (mode : after.WaitPenDown) (reported : after.reported = before.reported ++ liftReport)
  | measuring (mode : after.MeasureXy) (converting : after.converting = true)
      (reported : after.reported = before.reported)
  | completed (mode : after.WaitPenUp) (timer : after.timer = true) (new : List InputEvent)
      (reported : after.reported = before.reported ++ new)
      (position : new = [] ∨ ∃ x y, new = positionReport x y)

theorem ending_liftPen {before middle : Ts} (reported : middle.reported = before.reported) :
    Ending before middle.liftPen := by
  refine .lifted rfl ?_
  simp [Ts.liftPen, Ts.inputReportAbs, Ts.inputReportKey, Ts.inputSync,
    Ts.enterWaitPenDownMode, liftReport, reported]

/-- The pen interrupt and the timer run the same code. -/
theorem ending_check {before middle : Ts} (adcdat0 : UInt32)
    (reported : middle.reported = before.reported) :
    Ending before (if penUp adcdat0 then middle.liftPen else middle.measure) := by
  split
  · exact ending_liftPen reported
  · exact .measuring rfl rfl reported

theorem reported_reportMean (ts : Ts) :
    ∃ x y, ts.reportMean.reported = ts.reported ++ positionReport x y := by
  refine ⟨truncatedMean ts.x, truncatedMean ts.y, ?_⟩
  simp only [Ts.reportMean, Ts.inputReportAbs, Ts.inputReportKey, Ts.inputSync,
    List.append_assoc]
  rfl

theorem handle_ending {before after : Ts} {event : TsEvent}
    (handled : handle before event = some after) : Ending before after := by
  cases event with
  | penIrq adcdat0 =>
      obtain rfl := Option.some.inj handled
      exact ending_check adcdat0 rfl
  | timer adcdat0 =>
      obtain rfl := Option.some.inj handled
      exact ending_check adcdat0 rfl
  | adcIrq adcdat0 adcdat1 level =>
      simp only [handle, adcIrq] at handled
      split at handled
      next up =>
          obtain rfl := Option.some.inj handled
          exact ending_liftPen rfl
      next down =>
          obtain ⟨stored, storing, handled⟩ := Option.bind_eq_some_iff.mp handled
          have silent : stored.reported = before.reported := by
            simp only [Ts.store] at storing
            split at storing
            · obtain rfl := Option.some.inj storing
              rfl
            · contradiction
          split at handled
          next full =>
              obtain rfl := Option.some.inj handled
              split
              next accepted =>
                  obtain ⟨x, y, reported⟩ := reported_reportMean stored
                  rw [silent] at reported
                  exact .completed rfl rfl _ reported (.inr ⟨x, y, rfl⟩)
              next rejected =>
                  refine .completed rfl rfl [] ?_ (.inl rfl)
                  rw [List.append_nil]
                  exact silent
          next notFull =>
              obtain rfl := Option.some.inj handled
              exact .measuring rfl rfl silent

/-- A handler leaves the driver live, whatever mode it was called in. -/
theorem Ending.live {before after : Ts} (ending : Ending before after) : after.Live := by
  cases ending with
  | lifted mode reported =>
      refine .waitPenDown mode (.inr ?_)
      rw [lastTouch, reported, List.filterMap_append]
      exact List.getLast?_concat
  | measuring mode converting => exact .measureXy mode converting
  | completed mode timer => exact .waitPenUp mode timer

/-- What a handler reports is nothing or one report that agrees. -/
theorem Ending.reports {before after : Ts} (ending : Ending before after) :
    ∃ new, after.reported = before.reported ++ new ∧ Synced new ∧
      ∀ report ∈ syncedReports new, Agrees report := by
  cases ending with
  | lifted mode reported =>
      refine ⟨_, reported, .inr ⟨[.abs .pressure 0, .btnTouch 0], rfl⟩, ?_⟩
      intro report member
      obtain rfl := List.mem_singleton.mp member
      exact ⟨0, rfl, rfl⟩
  | measuring mode converting reported =>
      refine ⟨[], by rw [reported, List.append_nil], .inl rfl, ?_⟩
      intro report member
      exact absurd member List.not_mem_nil
  | completed mode timer new reported position =>
      refine ⟨new, reported, ?_⟩
      rcases position with rfl | ⟨x, y, rfl⟩
      · exact ⟨.inl rfl, fun report member => absurd member List.not_mem_nil⟩
      · refine ⟨.inr ⟨[.abs .x x, .abs .y y, .abs .pressure 1, .btnTouch 1], rfl⟩, ?_⟩
        intro report member
        obtain rfl := List.mem_singleton.mp member
        exact ⟨1, rfl, rfl⟩

/-! ## The runs -/

/-- What holds between two handlers. -/
structure Ts.Between (ts : Ts) : Prop where
  counted : ts.cnt < 4
  live : ts.Live
  synced : Synced ts.reported
  agree : ∀ report ∈ syncedReports ts.reported, Agrees report

theorem Synced.append {reported new : List InputEvent} (synced : Synced reported)
    (newSynced : Synced new) : Synced (reported ++ new) := by
  rcases newSynced with rfl | ⟨earlier, rfl⟩
  · rwa [List.append_nil]
  · exact .inr ⟨reported ++ earlier, by rw [List.append_assoc]⟩

theorem between_s3cTsInit : s3cTsInit.Between where
  counted := Nat.zero_lt_succ 3
  live := .waitPenDown rfl (.inl rfl)
  synced := .inl rfl
  agree := by
    intro report member
    exact absurd member List.not_mem_nil

theorem handle_between {before after : Ts} {event : TsEvent} (between : before.Between)
    (handled : handle before event = some after) : after.Between := by
  have ending := handle_ending handled
  obtain ⟨new, reported, synced, agree⟩ := ending.reports
  have counted : after.cnt < 4 := by
    have counted := between.counted
    cases handle_effect handled with
    | keep _ cnt => omega
    | discard _ _ _ _ cnt => omega
    | collect _ _ _ _ _ more cnt => omega
    | complete _ _ _ _ _ cnt => omega
  refine ⟨counted, ending.live, ?_, ?_⟩
  · rw [reported]
    exact between.synced.append synced
  · rw [reported, syncedReports_append between.synced]
    intro report member
    rcases List.mem_append.mp member with earlier | here
    · exact between.agree report earlier
    · exact agree report here

theorem run_between {ts : Ts} (between : ts.Between) (events : List TsEvent) :
    ∃ final, Step.run handle ts events = some final ∧ final.Between := by
  induction events generalizing ts with
  | nil => exact ⟨ts, rfl, between⟩
  | cons event rest ih =>
      obtain ⟨after, handled⟩ := handle_total between.counted event
      obtain ⟨final, reached, finalBetween⟩ := ih (handle_between between handled)
      refine ⟨final, ?_, finalBetween⟩
      rw [Step.run_cons_of_eq handled, reached]

/-- After `s3c_ts_init` no order of pen interrupts, ADC interrupts and timer expiries
fails, wedges the driver or leaves a touch behind, and every report gives one value as
`ABS_PRESSURE` and as `BTN_TOUCH`.  The calls need not even be possible ones: a handler
leaves the driver live in whatever state it finds it. -/
theorem run_live (events : List TsEvent) :
    ∃ final, Step.run handle s3cTsInit events = some final ∧ final.Live ∧
      ∀ report ∈ syncedReports final.reported, Agrees report := by
  obtain ⟨final, reached, between⟩ := run_between between_s3cTsInit events
  exact ⟨final, reached, between.live, between.agree⟩

end Mini2440.Touch
