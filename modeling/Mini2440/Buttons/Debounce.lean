import Mini2440.Lib.Transition
import Mini2440.Lib.Debounce
import Mini2440.Buttons.InputSub
import Mini2440.Buttons.CharDev

/-!
# The debounce timer on the clock

`input_sub.c` and `7th-chr_dev_drv_all/buttons_all.c` report a button from `buttons_timer`,
which each interrupt sets to `jiffies+HZ/100`.  Here the jiffies go by, and everything may
come late: an interrupt any time after its change, and the timer any time after it expires.
A call of a handler is one event; an interrupt within the timer function, which has read
`irq_pd` before, is one that comes right after it.

The timer of both drivers is the library's, so a pin that bounces is reported once, and a
report tells a level that the pin has had for `HZ/100` jiffies, unless a change of it was
still to be noticed.
-/

namespace Mini2440.Buttons

open Debounce Transition

/-! ## The drivers -/

/-- The variables of a driver with the `expires` of `buttons_timer`, which counts while the
timer is pending. -/
structure Timed (Dev : Type*) where
  dev : Dev
  expires : Nat
  deriving DecidableEq, Repr

/-- A driver whose timer function reports the level of the button that `irq_pd` points at,
and whose interrupts set the timer to `HZ/100` jiffies from then. -/
structure Debounced (Dev Out : Type*) where
  loaded : Dev
  irqPd : Dev → Option (Fin 6)
  pending : Dev → Bool
  out : Dev → Out
  buttonsIrq : (hz jiffies : Nat) → Fin 6 → (Fin 6 → Bool) → Timed Dev → Timed Dev
  expire : (Fin 6 → Bool) → Dev → Dev
  report : Fin 6 → Bool → Out → Out
  irqPd_loaded : irqPd loaded = none
  irqPd_irq : ∀ hz jiffies button level timed,
    irqPd (buttonsIrq hz jiffies button level timed).dev = some button
  pending_irq : ∀ hz jiffies button level timed,
    pending (buttonsIrq hz jiffies button level timed).dev = true
  expires_irq : ∀ hz jiffies button level timed,
    (buttonsIrq hz jiffies button level timed).expires = jiffies + hz / 100
  out_irq : ∀ hz jiffies button level timed,
    out (buttonsIrq hz jiffies button level timed).dev = out timed.dev
  irqPd_expire : ∀ level dev, irqPd (expire level dev) = irqPd dev
  pending_expire : ∀ level dev, pending (expire level dev) = false
  out_expire : ∀ level dev, out (expire level dev) =
    match irqPd dev with
    | none => out dev
    | some button => report button (level button) (out dev)

/-- When the timer is due, if it is pending. -/
def Debounced.due {Dev Out : Type*} (driver : Debounced Dev Out) (timed : Timed Dev) :
    Option Nat :=
  if driver.pending timed.dev then some timed.expires else none

namespace InputSub

/-- `buttons_irq`: `irq_pd`, then `mod_timer(&buttons_timer, jiffies+HZ/100)`, which leaves the
timer pending. -/
def buttonsIrq (hz jiffies : Nat) (devId : Fin 6) (timed : Timed Driver) : Timed Driver where
  dev := timed.dev.buttonsIrq devId
  expires := jiffies + hz / 100

/-- The kernel takes the timer off its list and calls `buttons_timerout_function`. -/
def expire (level : Fin 6 → Bool) (driver : Driver) : Driver :=
  { driver with timer := false }.buttonsTimeroutFunction level

/-- `input_sub.c` reports the key with its value. -/
def debounced : Debounced Driver (List InputEvent) where
  loaded := .inputSubInit
  irqPd := Driver.irqPd
  pending := Driver.timer
  out := Driver.reported
  buttonsIrq hz jiffies devId _ := buttonsIrq hz jiffies devId
  expire := expire
  report button high reported :=
    reported ++ [.key (pinDesc button).keyVal (if high then 0 else 1), .sync]
  irqPd_loaded := rfl
  irqPd_irq _ _ _ _ _ := rfl
  pending_irq _ _ _ _ _ := rfl
  expires_irq _ _ _ _ _ := rfl
  out_irq _ _ _ _ _ := rfl
  irqPd_expire _ _ := Board.buttonsTimeroutFunction_irqPd _ _
  pending_expire _ _ := Board.buttonsTimeroutFunction_timer _ _
  out_expire level driver := by
    cases pointed : driver.irqPd with
    | none => simp only [expire, Driver.buttonsTimeroutFunction, pointed]
    | some button =>
        simp only [expire, Driver.buttonsTimeroutFunction, pointed, gpioGetpin_ne_zero]
        cases level button <;> rfl

end InputSub

namespace CharDev

/-- `buttons_irq` of `buttons_all.c`: `irq_pd`, then
`mod_timer(&buttons_timer, jiffies+HZ/100)`. -/
def buttonsIrq (hz jiffies : Nat) (devId : Fin 6) (level : Fin 6 → Bool)
    (timed : Timed Dev) : Timed Dev where
  dev := Driver.buttonsAll.buttonsIrq devId level timed.dev
  expires := jiffies + hz / 100

/-- The kernel takes the timer off its list and calls `buttons_timerout_function`. -/
def expire (level : Fin 6 → Bool) (dev : Dev) : Dev :=
  { dev with timer := false }.buttonsTimeroutFunction level

/-- `buttons_all.c` saves the value of the key and sets `ev_press`; nobody reads here, which would
clear it. -/
def debounced : Debounced Dev (Bool × UInt8) where
  loaded := ⟨false, 0, none, true⟩
  irqPd := Dev.irqPd
  pending := Dev.timer
  out dev := (dev.evPress, dev.gSaveKeyVal)
  buttonsIrq := buttonsIrq
  expire := expire
  report button high _ := (true, keyValue button high)
  irqPd_loaded := rfl
  irqPd_irq _ _ _ _ _ := rfl
  pending_irq _ _ _ _ _ := rfl
  expires_irq _ _ _ _ _ := rfl
  out_irq _ _ _ _ _ := rfl
  irqPd_expire level dev := by
    cases pointed : dev.irqPd with
    | none => simp only [expire, Dev.buttonsTimeroutFunction, pointed]
    | some button => simp only [expire, Dev.buttonsTimeroutFunction, pointed, Dev.raise_eq]
  pending_expire level dev := by
    cases pointed : dev.irqPd with
    | none => simp only [expire, Dev.buttonsTimeroutFunction, pointed]
    | some button => simp only [expire, Dev.buttonsTimeroutFunction, pointed, Dev.raise_eq]
  out_expire level dev := by
    cases pointed : dev.irqPd with
    | none => simp only [expire, Dev.buttonsTimeroutFunction, pointed]
    | some button => simp only [expire, Dev.buttonsTimeroutFunction, pointed, Dev.raise_eq]

end CharDev

/-! ## The board on the clock -/

/-- What the timer function found: the button, its level, the time, since when the pin has had
that level, and whether the interrupt of a change of it was outstanding. -/
structure Report where
  button : Fin 6
  high : Bool
  time : Nat
  since : Nat
  raised : Bool
  deriving DecidableEq, Repr

/-- The driver, the jiffies since it was loaded, the pins with the time of the last change of
each, the interrupts that are outstanding, those that have been handled with the runs of the
timer, and what these have found. -/
structure Clocked (Dev : Type*) where
  timed : Timed Dev
  jiffies : Nat
  level : Fin 6 → Bool
  changed : Fin 6 → Nat
  outstanding : Fin 6 → Bool
  log : List (Entry (Fin 6))
  reports : List Report

/-- A pin changes, its interrupt is handled, the timer runs, or a jiffy ends. -/
inductive ClockedEvent where
  | change (button : Fin 6)
  | irq (button : Fin 6)
  | expire
  | tick
  deriving DecidableEq, Repr

section

variable {Dev Out : Type*} (driver : Debounced Dev Out) (hz expires : Nat)

namespace Clocked

/-- The module has been loaded, by `add_timer` with any `expires`. -/
def initial : Clocked Dev where
  timed := ⟨driver.loaded, expires⟩
  jiffies := 0
  level := fun _ => true
  changed := fun _ => 0
  outstanding := fun _ => false
  log := []
  reports := []

/-- The timer with what it has done. -/
def timer (board : Clocked Dev) : Timer (Fin 6) where
  now := board.jiffies
  due := driver.due board.timed
  source := driver.irqPd board.timed.dev
  log := board.log

/-- A pin may change and a jiffy may end at any time. -/
def step : Step (Clocked Dev) ClockedEvent
  | board, .change button =>
      some { board with
        level := Function.update board.level button (!board.level button)
        changed := Function.update board.changed button board.jiffies
        outstanding := Function.update board.outstanding button true }
  | board, .irq button =>
      if board.outstanding button then
        some { board with
          timed := driver.buttonsIrq hz board.jiffies button board.level board.timed
          outstanding := Function.update board.outstanding button false
          log := board.log ++ [.edge button board.jiffies] }
      else none
  | board, .expire =>
      if (board.timer driver).ready then
        let found := driver.irqPd board.timed.dev
        some { board with
          timed := { board.timed with dev := driver.expire board.level board.timed.dev }
          log := board.log ++ (found.map fun button => .fired button board.jiffies).toList
          reports := board.reports ++ (found.map fun button =>
            ⟨button, board.level button, board.jiffies, board.changed button,
              board.outstanding button⟩).toList }
      else none
  | board, .tick => some { board with jiffies := board.jiffies + 1 }

/-- What the timer function has reported is what it has found, one finding for each firing,
and a level was `HZ/100` jiffies old, unless the pin had changed since its last interrupt. -/
structure Reported (board : Clocked Dev) : Prop where
  out : driver.out board.timed.dev =
    board.reports.foldl (fun out report => driver.report report.button report.high out)
      (driver.out driver.loaded)
  fired : board.reports.map (fun report => Entry.fired report.button report.time) =
    board.log.filter Entry.isFired
  stable : ∀ report ∈ board.reports, report.raised = false →
    report.since + hz / 100 ≤ report.time

/-- The invariant: beside the timer, an interrupt that has been handled is in the log. -/
structure WellTimed (board : Clocked Dev) : Prop where
  kept : Kept (hz / 100) (board.timer driver)
  past : ∀ button, board.changed button ≤ board.jiffies
  seen : ∀ button, board.outstanding button = false →
    board.changed button ≤ (board.timer driver).lastTime
  reported : board.Reported driver hz

variable {driver hz expires} {board next : Clocked Dev}

/-! ## The timer is the library's -/

theorem timer_initial : (initial driver expires).timer driver =
    ⟨0, driver.due ⟨driver.loaded, expires⟩, none, []⟩ := by
  rw [← driver.irqPd_loaded]
  rfl

/-- The `mod_timer` of an interrupt is an edge of the timer. -/
theorem timer_irq (button : Fin 6)
    (taken : step driver hz board (.irq button) = some next) :
    next.timer driver = (board.timer driver).edge (hz / 100) button := by
  obtain ⟨raised, taken⟩ := Option.ite_none_right_eq_some.mp taken
  obtain rfl := Option.some.inj taken
  simp only [timer, Timer.edge, Debounced.due, driver.pending_irq, driver.expires_irq,
    driver.irqPd_irq, if_pos]

theorem timer_expire (taken : step driver hz board .expire = some next) :
    next.timer driver = (board.timer driver).fire := by
  obtain ⟨ready, taken⟩ := Option.ite_none_right_eq_some.mp taken
  obtain rfl := Option.some.inj taken
  simp only [timer, Timer.fire, Debounced.due, driver.pending_expire, driver.irqPd_expire,
    Bool.false_eq_true, if_false]

/-! ## The invariant -/

theorem wellTimed_initial : (initial driver expires).WellTimed driver hz where
  kept := by
    rw [timer_initial]
    exact kept_start _
  past _ := Nat.le_refl 0
  seen _ _ := Nat.le_refl 0
  reported := ⟨rfl, rfl, fun _ member => absurd member List.not_mem_nil⟩

theorem WellTimed.change (wellTimed : board.WellTimed driver hz) (button : Fin 6)
    (taken : step driver hz board (.change button) = some next) :
    next.WellTimed driver hz := by
  obtain rfl := Option.some.inj taken
  have reported := wellTimed.reported
  refine ⟨wellTimed.kept, ?_, ?_, reported.out, reported.fired, reported.stable⟩
  · intro other
    by_cases same : other = button
    · simp [same]
    · simp only [Function.update_of_ne same]
      exact wellTimed.past other
  · intro other handled
    by_cases same : other = button
    · simp [same] at handled
    · simp only [Function.update_of_ne same] at handled ⊢
      exact wellTimed.seen other handled

theorem WellTimed.irq (wellTimed : board.WellTimed driver hz) (button : Fin 6)
    (taken : step driver hz board (.irq button) = some next) :
    next.WellTimed driver hz := by
  have armed := timer_irq button taken
  obtain ⟨raised, taken⟩ := Option.ite_none_right_eq_some.mp taken
  obtain rfl := Option.some.inj taken
  refine ⟨?_, wellTimed.past, ?_, ?_⟩
  · rw [armed]
    exact wellTimed.kept.edge button
  · intro other handled
    rw [armed, Timer.lastTime_edge]
    exact wellTimed.past other
  · refine ⟨(driver.out_irq ..).trans wellTimed.reported.out, ?_, wellTimed.reported.stable⟩
    rw [wellTimed.reported.fired, List.filter_append]
    exact (List.append_nil _).symm

theorem WellTimed.expire (wellTimed : board.WellTimed driver hz)
    (taken : step driver hz board .expire = some next) : next.WellTimed driver hz := by
  have fired := timer_expire taken
  obtain ⟨ready, taken⟩ := Option.ite_none_right_eq_some.mp taken
  obtain rfl := Option.some.inj taken
  refine ⟨?_, wellTimed.past, ?_, ?_⟩
  · rw [fired]
    exact wellTimed.kept.fire ready
  · intro button handled
    rw [fired]
    exact (wellTimed.seen button handled).trans wellTimed.kept.lastTime_fire
  · have reported := wellTimed.reported
    have out := driver.out_expire board.level board.timed.dev
    cases pointed : driver.irqPd board.timed.dev with
    | none =>
        rw [pointed] at out
        refine ⟨?_, ?_, ?_⟩
        · simpa [out] using reported.out
        · simpa using reported.fired
        · simpa using reported.stable
    | some button =>
        rw [pointed] at out
        refine ⟨?_, ?_, ?_⟩
        · simp [out, List.foldl_append, reported.out]
        · simp only [Option.map_some, Option.toList_some, List.map_append, List.filter_append,
            reported.fired, List.map_singleton]
          rfl
        · intro report member noticed
          rcases List.mem_append.mp member with earlier | last
          · exact reported.stable report earlier noticed
          · obtain rfl := List.mem_singleton.mp last
            have settled := wellTimed.kept.lastTime_of_ready ready pointed
            exact (Nat.add_le_add_right (wellTimed.seen button noticed) _).trans settled

theorem WellTimed.tick (wellTimed : board.WellTimed driver hz)
    (taken : step driver hz board .tick = some next) : next.WellTimed driver hz := by
  obtain rfl := Option.some.inj taken
  have reported := wellTimed.reported
  exact ⟨wellTimed.kept.tick, fun button => Nat.le_succ_of_le (wellTimed.past button),
    wellTimed.seen, reported.out, reported.fired, reported.stable⟩

theorem step_wellTimed :
    (step driver hz).Preserves (fun _ _ => True) (WellTimed driver hz) := by
  intro board event next wellTimed _ taken
  cases event with
  | change button => exact wellTimed.change button taken
  | irq button => exact wellTimed.irq button taken
  | expire => exact wellTimed.expire taken
  | tick => exact wellTimed.tick taken

/-! ## A timer that is not very late -/

variable (driver) in
/-- The timer is never more than `late` jiffies late. -/
def Punctual (late : Nat) (board : Clocked Dev) : ClockedEvent → Prop
  | .tick => (board.timer driver).HasTime late
  | .change _ | .irq _ | .expire => True

instance (late : Nat) (board : Clocked Dev) :
    (event : ClockedEvent) → Decidable (Punctual driver late board event)
  | .tick => inferInstanceAs (Decidable (Timer.HasTime late _))
  | .change _ | .irq _ | .expire => inferInstanceAs (Decidable True)

variable (driver hz) in
/-- The invariant of a board with such a timer. -/
structure Prompt (late : Nat) (board : Clocked Dev) : Prop where
  wellTimed : board.WellTimed driver hz
  inTime : InTime (hz / 100) late (board.timer driver)

variable {late : Nat}

theorem prompt_initial : (initial driver expires).Prompt driver hz late where
  wellTimed := wellTimed_initial
  inTime := by
    rw [timer_initial]
    exact inTime_start _

theorem step_prompt :
    (step driver hz).Preserves (Punctual driver late) (Prompt driver hz late) := by
  intro board event next prompt punctual taken
  have kept := prompt.wellTimed.kept
  refine ⟨step_wellTimed board event next prompt.wellTimed trivial taken, ?_⟩
  cases event with
  | change button =>
      obtain rfl := Option.some.inj taken
      exact prompt.inTime
  | irq button =>
      rw [timer_irq button taken]
      exact prompt.inTime.edge kept button
  | expire =>
      rw [timer_expire taken]
      exact prompt.inTime.fire kept
  | tick =>
      obtain rfl := Option.some.inj taken
      exact prompt.inTime.tick punctual

/-! ## Time goes on -/

theorem run_ticks (count : Nat) (board : Clocked Dev) :
    (step driver hz).run board (List.replicate count .tick) =
      some { board with jiffies := board.jiffies + count } := by
  induction count generalizing board with
  | zero => rfl
  | succ count ih =>
      have taken : step driver hz board .tick =
          some { board with jiffies := board.jiffies + 1 } := rfl
      rw [List.replicate_succ, Step.run_cons_of_eq taken, ih, Nat.add_right_comm]
      rfl

/-- An edge that is not answered yet still can be. -/
theorem WellTimed.exists_fired (wellTimed : board.WellTimed driver hz)
    {before : List (Entry (Fin 6))} {button : Fin 6} {time : Nat}
    (log : board.log = before ++ [.edge button time]) :
    ∃ count next, (step driver hz).run board (List.replicate count .tick ++ [.expire]) =
        some next ∧
      board.jiffies + count = max board.jiffies (time + hz / 100) ∧
      next.log = board.log ++ [.fired button (board.jiffies + count)] := by
  have isLast : (board.timer driver).log.getLast? = some (.edge button time) :=
    (congrArg List.getLast? log).trans List.getLast?_concat
  obtain ⟨armedBy, due⟩ := wellTimed.kept.armed_of_last isLast
  let count := time + hz / 100 - board.jiffies
  let waited := { board with jiffies := board.jiffies + count }
  have reached : time + hz / 100 ≤ board.jiffies + count := by omega
  have ready : (waited.timer driver).ready = true := by
    rw [Timer.ready, show (waited.timer driver).due = _ from due]
    exact decide_eq_true reached
  obtain ⟨next, taken⟩ : ∃ next, step driver hz waited .expire = some next :=
    ⟨_, if_pos ready⟩
  refine ⟨count, next, ?_, by omega, ?_⟩
  · rw [Step.run_append_of_eq (run_ticks count board), Step.run_singleton]
    exact taken
  · have armed : (waited.timer driver).source = some button := armedBy
    exact (congrArg Timer.log (timer_expire taken)).trans (Timer.log_fire_of_some armed)

end Clocked

end

/-- What holds before any event, however late the interrupts and the timer are: which edge
each firing answers, what becomes of each edge, that the last one still can be answered, what
has been reported, and how far the reports are apart. -/
structure Correct {Dev Out : Type*} (driver : Debounced Dev Out) (hz : Nat)
    (board : Clocked Dev) : Prop where
  answers : ∀ before button time after,
    board.log = before ++ .fired button time :: after →
      ∃ first edge, before = first ++ [.edge button edge] ∧ edge + hz / 100 ≤ time
  answered : ∀ before button time after,
    board.log = before ++ .edge button time :: after →
      after = [] ∨
        (∃ button' time' rest, after = .edge button' time' :: rest ∧ time ≤ time') ∨
        ∃ time' rest, after = .fired button time' :: rest ∧ time + hz / 100 ≤ time'
  answerable : ∀ before button time, board.log = before ++ [.edge button time] →
    ∃ count next, (Clocked.step driver hz).run board (List.replicate count .tick ++ [.expire]) =
        some next ∧
      board.jiffies + count = max board.jiffies (time + hz / 100) ∧
      next.log = board.log ++ [.fired button (board.jiffies + count)]
  reported : board.Reported driver hz
  spaced : board.reports.Pairwise fun report later => report.time + hz / 100 ≤ later.time

/-- What holds besides where the timer is never more than `late` jiffies late: no edge waits
for longer than that. -/
def AnsweredInTime {Dev : Type*} (hz late : Nat) (board : Clocked Dev) : Prop :=
  ∀ before button time next after,
    board.log = before ++ .edge button time :: next :: after →
      next.time ≤ time + (hz / 100 + late)

namespace Clocked

variable {Dev Out : Type*} {driver : Debounced Dev Out} {hz late : Nat} {board : Clocked Dev}

theorem WellTimed.correct (wellTimed : board.WellTimed driver hz) :
    Correct driver hz board := by
  have bursts : Bursts (hz / 100) board.log := wellTimed.kept.bursts
  constructor
  case answers =>
    intro before button time after log
    rw [log] at bursts
    exact bursts.fired
  case answered =>
    intro before button time after log
    rw [log] at bursts
    exact bursts.edge
  case answerable => exact fun before button time log => wellTimed.exists_fired log
  case reported => exact wellTimed.reported
  case spaced =>
    have spaced := bursts.spaced
    rw [← wellTimed.reported.fired] at spaced
    exact List.pairwise_map.mp spaced

theorem Prompt.answeredInTime (prompt : board.Prompt driver hz late) :
    AnsweredInTime hz late board :=
  fun _ _ _ _ _ log => prompt.inTime.next_le log

end Clocked

/-- What a run of the board tells of the driver. -/
structure Debounces {Dev Out : Type*} (driver : Debounced Dev Out) (hz expires : Nat)
    (events : List ClockedEvent) : Prop where
  correct : (Clocked.step driver hz).Along (fun board _ => Correct driver hz board)
    (Clocked.initial driver expires) events
  answeredInTime : ∀ late,
    (Clocked.step driver hz).Along (Clocked.Punctual driver late)
        (Clocked.initial driver expires) events →
      (Clocked.step driver hz).Along (fun board _ => AnsweredInTime hz late board)
        (Clocked.initial driver expires) events

theorem debounced_along {Dev Out : Type*} (driver : Debounced Dev Out) (hz expires : Nat)
    (events : List ClockedEvent) : Debounces driver hz expires events := by
  constructor
  case correct =>
    refine Clocked.step_wellTimed.strengthen ?_ Clocked.wellTimed_initial
      (Step.along_of_splits fun _ _ _ _ _ _ => trivial)
    exact fun board _ wellTimed _ => wellTimed.correct
  case answeredInTime =>
    intro late
    refine Clocked.step_prompt.strengthen ?_ Clocked.prompt_initial
    exact fun board _ prompt _ => prompt.answeredInTime

/-- For every `HZ`, whatever `expires` the timer has at first, and every order of changes,
interrupts, timer runs and jiffies, in both drivers: a report is of the button whose interrupt
came last, no sooner than `HZ/100` after it, so that edges less than `HZ/100` apart lead to
one report; no edge goes without one; the level is one that the pin has kept for `HZ/100`
jiffies, unless the pin has changed and its interrupt is outstanding; and the driver has
reported these and nothing else.  Where the timer is never more than `late` jiffies late,
each edge is answered, or followed by another, within `HZ/100` and these. -/
theorem debounced_reports (hz expires : Nat) (events : List ClockedEvent) :
    Debounces InputSub.debounced hz expires events ∧
      Debounces CharDev.debounced hz expires events :=
  ⟨debounced_along InputSub.debounced hz expires events,
    debounced_along CharDev.debounced hz expires events⟩

/-- K6 is pressed and bounces, and the timer runs at its time, two jiffies after the last
edge. -/
def bounce : List ClockedEvent :=
  [.change (Fin.last 5), .irq (Fin.last 5), .change (Fin.last 5), .irq (Fin.last 5), .tick,
    .change (Fin.last 5), .irq (Fin.last 5), .tick, .tick, .expire, .tick]

theorem bounce_reportedOnce :
    ((Clocked.step InputSub.debounced 200).run (Clocked.initial InputSub.debounced 0)
        bounce).map (fun board => (board.timed.dev.reported, board.reports)) =
      some ([.key .s 1, .sync], [⟨Fin.last 5, false, 3, 1, false⟩]) ∧
    (Clocked.step InputSub.debounced 200).Along (fun board _ => AnsweredInTime 200 0 board)
      (Clocked.initial InputSub.debounced 0) bounce :=
  ⟨by decide, (debounced_reports 200 0 bounce).1.answeredInTime 0 (by decide)⟩

end Mini2440.Buttons
