import Mini2440.Lib.Transition
import Mini2440.Buttons.Pins
import Mathlib.Logic.Function.Basic
import Mathlib.Data.Fin.VecNotation
import Mathlib.Data.List.FinRange

/-!
# The buttons in the input subsystem

The driver `8th-input_sub_sys/input_sub.c`: six buttons that share one debounce timer and
one pointer `irq_pd` to the button whose interrupt came last.  The board around it has six
pins, and an interrupt that stays outstanding from the change of its pin until the handler
runs.  The results say exactly when a button's last report is out of date once the board
is at rest.
-/

namespace Mini2440.Buttons.InputSub

open Transition

/-! ## The driver -/

/-- The key codes of the table. -/
inductive Key where
  | l
  | s
  | enter
  | leftshift
  | p
  deriving DecidableEq, Repr

/-- `struct pin_desc`: the bit of the pin in GPGDAT, and the key. -/
structure PinDesc where
  pin : UInt32
  keyVal : Key
  deriving DecidableEq, Repr

/-- `pin_desc[6]`; K2 and K6 are the same key. -/
def pinDesc : Fin 6 → PinDesc :=
  ![⟨0, .l⟩, ⟨3, .s⟩, ⟨5, .enter⟩, ⟨6, .leftshift⟩, ⟨7, .p⟩, ⟨11, .s⟩]

/-- What goes to the input core. -/
inductive InputEvent where
  | key (code : Key) (value : Int)
  | sync
  deriving DecidableEq, Repr

/-- `irq_pd`, whether `buttons_timer` is pending, and everything reported so far. -/
structure Driver where
  irqPd : Option (Fin 6)
  timer : Bool
  reported : List InputEvent
  deriving DecidableEq, Repr

namespace Driver

/-- `buttons_irq`: the button is noted, and `mod_timer` leaves the timer pending. -/
def buttonsIrq (devId : Fin 6) (driver : Driver) : Driver :=
  { driver with irqPd := some devId, timer := true }

/-- `input_event(buttons_dev, EV_KEY, code, value)`, then `input_sync`. -/
def report (driver : Driver) (code : Key) (value : Int) : Driver :=
  { driver with reported := driver.reported ++ [.key code value, .sync] }

/-- `buttons_timerout_function`: a high level is reported as released. -/
def buttonsTimeroutFunction (level : Fin 6 → Bool) (driver : Driver) : Driver :=
  match driver.irqPd with
  | none => driver
  | some pindesc =>
      if gpioGetpin (pinDesc pindesc).pin (level pindesc) ≠ 0 then
        driver.report (pinDesc pindesc).keyVal 0
      else
        driver.report (pinDesc pindesc).keyVal 1

/-- After `input_sub_init`: the timer is on the list, no interrupt has come. -/
def inputSubInit : Driver := ⟨none, true, []⟩

end Driver

/-! ## The board -/

/-- The driver, the level of each pin, the interrupts that are outstanding, and the value
last reported on behalf of each button. -/
structure Board where
  driver : Driver
  level : Fin 6 → Bool
  outstanding : Fin 6 → Bool
  last : Fin 6 → Int

/-- A pin changes, its interrupt is handled, or the timer runs. -/
inductive BoardEvent where
  | change (button : Fin 6)
  | irq (button : Fin 6)
  | expire
  deriving DecidableEq, Repr

/-- The value of a key event. -/
def InputEvent.value : InputEvent → Option Int
  | .key _ value => some value
  | .sync => none

namespace Board

/-- All buttons are released: the pins are high. -/
def initial : Board := ⟨.inputSubInit, fun _ => true, fun _ => false, fun _ => 0⟩

/-- What `before` and `after` a call of the timer function say about the button it looked
at. -/
def lastAfter (last : Fin 6 → Int) (before after : Driver) : Fin 6 → Int :=
  match before.irqPd, (after.reported.drop before.reported.length).findSome? (·.value) with
  | some button, some value => Function.update last button value
  | _, _ => last

/-- The pins, their interrupts and the timer, in any order. -/
def step : Step Board BoardEvent
  | board, .change button =>
      some { board with
        level := Function.update board.level button (!board.level button)
        outstanding := Function.update board.outstanding button true }
  | board, .irq button =>
      if board.outstanding button then
        some { board with
          driver := board.driver.buttonsIrq button
          outstanding := Function.update board.outstanding button false }
      else none
  | board, .expire =>
      if board.driver.timer then
        let driver :=
          { board.driver with timer := false }.buttonsTimeroutFunction board.level
        some { board with
          driver := driver
          last := lastAfter board.last board.driver driver }
      else none

/-- The value that stands for the level of a button's pin. -/
def expected (board : Board) (button : Fin 6) : Int := if board.level button then 0 else 1

/-- The timer is not pending and no interrupt is outstanding. -/
def AtRest (board : Board) : Prop :=
  board.driver.timer = false ∧ ∀ button, board.outstanding button = false

instance (board : Board) : Decidable board.AtRest := inferInstanceAs (Decidable (_ ∧ _))

/-- The last report on behalf of the button is the level of its pin. -/
def UpToDate (board : Board) (button : Fin 6) : Prop :=
  board.last button = board.expected button

instance (board : Board) (button : Fin 6) : Decidable (board.UpToDate button) :=
  inferInstanceAs (Decidable (_ = _))

end Board

/-- An interrupt does not take the timer away from another button that still needs it: one
whose last report is out of date and which has no interrupt to come. -/
def NoOverwrite (board : Board) : BoardEvent → Prop
  | .irq button => board.outstanding button = true → board.driver.timer = true →
      ∀ other, board.driver.irqPd = some other → other ≠ button →
        board.outstanding other = true ∨ board.UpToDate other
  | .change _ | .expire => True

/-! ## What the timer reports -/

namespace Board

variable {board next : Board}

theorem lastAfter_of_none (idle : board.driver.irqPd = none) (after : Driver) :
    lastAfter board.last board.driver after = board.last := by
  simp [lastAfter, idle]

/-- The timer function brings the button that `irq_pd` points at up to date. -/
theorem lastAfter_of_some {button : Fin 6} (pointed : board.driver.irqPd = some button) :
    lastAfter board.last board.driver
        ({ board.driver with timer := false }.buttonsTimeroutFunction board.level) =
      Function.update board.last button (board.expected button) := by
  simp only [lastAfter, Driver.buttonsTimeroutFunction, pointed, gpioGetpin_ne_zero]
  by_cases high : board.level button = true
  · simp [Driver.report, InputEvent.value, expected, high]
  · simp [Driver.report, InputEvent.value, expected, high]

@[simp] theorem buttonsTimeroutFunction_irqPd (level : Fin 6 → Bool) (driver : Driver) :
    (driver.buttonsTimeroutFunction level).irqPd = driver.irqPd := by
  unfold Driver.buttonsTimeroutFunction
  split
  · rfl
  · split <;> rfl

@[simp] theorem buttonsTimeroutFunction_timer (level : Fin 6 → Bool) (driver : Driver) :
    (driver.buttonsTimeroutFunction level).timer = driver.timer := by
  unfold Driver.buttonsTimeroutFunction
  split
  · rfl
  · split <;> rfl

/-- What each event does. -/
inductive Stepped (board : Board) : BoardEvent → Board → Prop
  | change (button : Fin 6) {next : Board} (driver : next.driver = board.driver)
      (level : next.level = Function.update board.level button (!board.level button))
      (outstanding : next.outstanding = Function.update board.outstanding button true)
      (last : next.last = board.last) : Stepped board (.change button) next
  | irq (button : Fin 6) {next : Board} (raised : board.outstanding button = true)
      (irqPd : next.driver.irqPd = some button) (timer : next.driver.timer = true)
      (level : next.level = board.level)
      (outstanding : next.outstanding = Function.update board.outstanding button false)
      (last : next.last = board.last) : Stepped board (.irq button) next
  | expire {next : Board} (pending : board.driver.timer = true)
      (irqPd : next.driver.irqPd = board.driver.irqPd) (timer : next.driver.timer = false)
      (level : next.level = board.level) (outstanding : next.outstanding = board.outstanding)
      (last : ∀ button, next.last button =
        if board.driver.irqPd = some button then board.expected button
        else board.last button) : Stepped board .expire next

theorem stepped_of_step {event : BoardEvent} (taken : step board event = some next) :
    Stepped board event next := by
  cases event with
  | change button =>
      obtain rfl := Option.some.inj taken
      exact .change button rfl rfl rfl rfl
  | irq button =>
      simp only [step] at taken
      split at taken
      next raised =>
          obtain rfl := Option.some.inj taken
          exact .irq button raised rfl rfl rfl rfl rfl
      next => contradiction
  | expire =>
      simp only [step] at taken
      split at taken
      next pending =>
          obtain rfl := Option.some.inj taken
          refine .expire pending (by simp) (by simp) rfl rfl ?_
          intro button
          rcases Option.eq_none_or_eq_some board.driver.irqPd with idle | ⟨other, pointed⟩
          · simp [lastAfter_of_none idle, idle]
          · refine (congrFun (lastAfter_of_some pointed) button).trans ?_
            rw [pointed, Function.update_apply]
            by_cases same : button = other
            · simp [same]
            · simp [same, Ne.symm same]
      next => contradiction

/-! ## Every change is reported -/

/-- The last change of the button has been reported, or still will be. -/
def Tracked (board : Board) (button : Fin 6) : Prop :=
  board.outstanding button = true ∨
    (board.driver.timer = true ∧ board.driver.irqPd = some button) ∨ board.UpToDate button

theorem step_tracked : step.Preserves NoOverwrite fun board => ∀ button, board.Tracked button := by
  intro board event next tracked alone taken button
  cases stepped_of_step taken with
  | change changed driver level outstanding last =>
      by_cases same : button = changed
      · left
        simp [outstanding, same]
      · rw [Tracked, UpToDate, expected, driver, level, outstanding, last]
        rw [Function.update_of_ne same, Function.update_of_ne same]
        exact tracked button
  | irq handled raised irqPd timer level outstanding last =>
      by_cases same : button = handled
      · right
        left
        exact ⟨timer, by rw [irqPd, same]⟩
      · have kept : board.outstanding button = true ∨ board.UpToDate button := by
          rcases tracked button with raised' | ⟨pending, pointed⟩ | upToDate
          · exact .inl raised'
          · exact alone raised pending button pointed same
          · exact .inr upToDate
        rcases kept with raised' | upToDate
        · left
          rw [outstanding, Function.update_of_ne same]
          exact raised'
        · right
          right
          rw [UpToDate, expected, last, level]
          exact upToDate
  | expire pending irqPd timer level outstanding last =>
      rw [Tracked, UpToDate, expected, last, outstanding, level]
      by_cases pointed : board.driver.irqPd = some button
      · right
        right
        simp [pointed, expected]
      · rcases tracked button with raised | ⟨-, pointed'⟩ | upToDate
        · exact .inl raised
        · exact absurd pointed' pointed
        · right
          right
          rw [if_neg pointed]
          exact upToDate

theorem upToDate_of_tracked (tracked : ∀ button, board.Tracked button)
    (atRest : board.AtRest) (button : Fin 6) : board.UpToDate button := by
  rcases tracked button with raised | ⟨pending, -⟩ | upToDate
  · rw [atRest.2 button] at raised
    contradiction
  · rw [atRest.1] at pending
    contradiction
  · exact upToDate

/-! ## A change that is lost -/

/-- The button is out of date and nothing will report it; the timer runs for another. -/
structure Lost (board : Board) (button : Fin 6) : Prop where
  quiet : board.outstanding button = false
  outOfDate : ¬ board.UpToDate button
  timer : board.driver.timer = true
  other : board.driver.irqPd ≠ some button

/-- The outstanding interrupts of any buttons can be handled while the button stays
lost. -/
theorem Lost.handle_all {button : Fin 6} (lost : board.Lost button)
    (buttons : List (Fin 6)) :
    ∃ more final, step.run board more = some final ∧ final.Lost button ∧
      (∀ handled ∈ buttons, final.outstanding handled = false) ∧
      ∀ other, board.outstanding other = false → final.outstanding other = false := by
  induction buttons generalizing board with
  | nil => exact ⟨[], board, rfl, lost, by simp, fun _ quiet => quiet⟩
  | cons first rest ih =>
      cases raised : board.outstanding first with
      | false =>
          obtain ⟨more, final, ran, lost', handled, quiet⟩ := ih lost
          refine ⟨more, final, ran, lost', ?_, quiet⟩
          intro handled' member
          rcases List.mem_cons.mp member with rfl | later
          · exact quiet handled' raised
          · exact handled handled' later
      | true =>
          have different : button ≠ first := by
            rintro rfl
            rw [lost.quiet] at raised
            contradiction
          obtain ⟨next, taken⟩ : ∃ next, step board (.irq first) = some next :=
            ⟨_, if_pos raised⟩
          cases stepped_of_step taken with
          | irq _ _ irqPd timer level outstanding last =>
              have lost' : next.Lost button := by
                refine ⟨?_, ?_, timer, ?_⟩
                · rw [outstanding, Function.update_of_ne different]
                  exact lost.quiet
                · rw [UpToDate, expected, last, level]
                  exact lost.outOfDate
                · rw [irqPd]
                  exact fun same => different (Option.some.inj same).symm
              have quietNext : ∀ other, board.outstanding other = false →
                  next.outstanding other = false := by
                intro other quiet
                rw [outstanding, Function.update_apply]
                split
                · rfl
                · exact quiet
              obtain ⟨more, final, ran, lostFinal, handled, quiet⟩ := ih lost'
              refine ⟨.irq first :: more, final, ?_, lostFinal, ?_, ?_⟩
              · rw [Step.run_cons_of_eq taken, ran]
              · intro handled' member
                rcases List.mem_cons.mp member with rfl | later
                · exact quiet handled' (by rw [outstanding, Function.update_self])
                · exact handled handled' later
              · exact fun other quiet' => quiet other (quietNext other quiet')

/-- An interrupt that takes the timer away loses the other button. -/
theorem exists_lost {event : BoardEvent} (overwrites : ¬ NoOverwrite board event) :
    ∃ next button, step board event = some next ∧ next.Lost button := by
  cases event with
  | change | expire => exact absurd trivial overwrites
  | irq handled =>
      simp only [NoOverwrite, Classical.not_forall, not_or, Bool.not_eq_true] at overwrites
      obtain ⟨raised, pending, other, pointed, different, quiet, outOfDate⟩ := overwrites
      obtain ⟨next, taken⟩ : ∃ next, step board (.irq handled) = some next :=
        ⟨_, if_pos raised⟩
      refine ⟨next, other, taken, ?_⟩
      cases stepped_of_step taken with
      | irq _ _ irqPd timer level outstanding last =>
          refine ⟨?_, ?_, timer, ?_⟩
          · rw [outstanding, Function.update_of_ne different]
            exact quiet
          · rw [UpToDate, last, expected, level]
            exact outOfDate
          · rw [irqPd]
            exact fun same => different (Option.some.inj same).symm

/-- Then the board comes to rest with that button out of date. -/
theorem Lost.exists_rest {button : Fin 6} (lost : board.Lost button) :
    ∃ more final, step.run board more = some final ∧ final.AtRest ∧
      ¬ final.UpToDate button := by
  obtain ⟨more, settled, ran, lost', handled, -⟩ := lost.handle_all (List.finRange 6)
  obtain ⟨final, taken⟩ : ∃ final, step settled .expire = some final :=
    ⟨_, if_pos lost'.timer⟩
  refine ⟨more ++ [.expire], final, ?_, ?_⟩
  · rw [Step.run_append_of_eq ran, Step.run_singleton, taken]
  · cases stepped_of_step taken with
    | expire _ irqPd timer level outstanding last =>
        refine ⟨⟨timer, ?_⟩, ?_⟩
        · intro other
          rw [outstanding]
          exact handled other (List.mem_finRange other)
        · rw [UpToDate, last, if_neg lost'.other, expected, level]
          exact lost'.outOfDate

end Board

/-- All buttons share the timer and `irq_pd`.  In every run in which no interrupt takes the
timer away from a button that still needs it, each button's last report is the level of
its pin whenever the board is at rest; any other run has such an interrupt, from which on it
can be brought to rest with a button whose report is out of date. -/
theorem upToDate_at_rest (events : List BoardEvent) :
    (Board.step.Along NoOverwrite Board.initial events → ∀ final,
      Board.step.run Board.initial events = some final → final.AtRest →
        ∀ button, final.UpToDate button) ∧
    (¬ Board.step.Along NoOverwrite Board.initial events →
      ∃ first event rest board more final, events = first ++ event :: rest ∧
        Board.step.run Board.initial first = some board ∧ ¬ NoOverwrite board event ∧
        Board.step.run board (event :: more) = some final ∧ final.AtRest ∧
        ∃ button, ¬ final.UpToDate button) := by
  constructor
  · intro alone final reached atRest
    have initially : ∀ button, Board.initial.Tracked button := fun _ => .inr (.inr rfl)
    exact Board.upToDate_of_tracked (Board.step_tracked.run initially alone reached) atRest
  · apply Step.exists_run_of_not_along
    intro board event overwrites
    obtain ⟨next, button, taken, lost⟩ := Board.exists_lost overwrites
    obtain ⟨more, final, ran, atRest, outOfDate⟩ := lost.exists_rest
    exact ⟨more, final, by rw [Step.run_cons_of_eq taken, ran], atRest, button, outOfDate⟩

/-- One button is pressed and reported; then its release and the press of another fall
into one debounce period. -/
def releaseAndPress (button other : Fin 6) : List BoardEvent :=
  [.change button, .irq button, .expire, .change button, .irq button, .change other,
    .irq other, .expire]

theorem releaseAndPress_loses_release :
    ∃ final, Board.step.run Board.initial (releaseAndPress 0 1) = some final ∧
      final.AtRest ∧ ¬ final.UpToDate 0 :=
  ⟨_, rfl, by decide, by decide⟩

end Mini2440.Buttons.InputSub
