import Mini2440.Touch.Block
import Mini2440.Buttons.CharDev
import Mini2440.Buttons.ExclusiveOpen
import Mathlib.Data.Finset.Erase
import Mathlib.Data.Finset.Insert

/-!
# Unloading a driver

The exit functions of `11th-ts/touch.c` and `7th-chr_dev_drv_all/buttons_all.c`, step by
step, with the handlers that are still registered running between any two steps.  The
first driver deletes its timer before it frees the interrupt that arms it, the second one
never deletes it.  The results say when the timer is not pending once the exit function
has returned.
-/

namespace Mini2440.Unload

open Transition

/-! ## The touch screen -/

section Screen

open Touch (Ts TsEvent handle penUp s3cTsInit)

/-- The calls of `s3c_ts_exit`. -/
inductive TsExit where
  | delTimer
  | freeIrqTc
  | freeIrqAdc
  | iounmap
  | inputUnregisterDevice
  | inputFreeDevice
  deriving DecidableEq, Repr

/-- In the order in which they are made. -/
def s3cTsExit : List TsExit :=
  [.delTimer, .freeIrqTc, .freeIrqAdc, .iounmap, .inputUnregisterDevice, .inputFreeDevice]

/-- The driver, whether its two interrupts are registered, and the calls that the exit
function has still to make, if it is running or has returned. -/
structure Screen where
  ts : Ts
  irqTc : Bool
  irqAdc : Bool
  exit : Option (List TsExit)

/-- A handler is called, the exit function is called, or makes its next call. -/
inductive ScreenEvent where
  | handler (event : TsEvent)
  | callExit
  | exitStep
  deriving DecidableEq, Repr

namespace Screen

/-- `s3c_ts_init` has returned. -/
def initial : Screen := ⟨s3cTsInit, true, true, none⟩

/-- The interrupt of the handler is registered. -/
def registered (screen : Screen) : TsEvent → Bool
  | .penIrq _ => screen.irqTc
  | .adcIrq .. => screen.irqAdc
  | .timer _ => true

/-- A call of the exit function. -/
def perform (screen : Screen) : TsExit → Screen
  | .delTimer => { screen with ts.timer := false }
  | .freeIrqTc => { screen with irqTc := false }
  | .freeIrqAdc => { screen with irqAdc := false }
  | .iounmap | .inputUnregisterDevice | .inputFreeDevice => screen

/-- The handlers and the exit function, in any order. -/
def step : Step Screen ScreenEvent
  | screen, .handler event =>
      if screen.registered event ∧ Touch.Enabled screen.ts event then
        (handle screen.ts event).map fun ts => { screen with ts := ts }
      else
        none
  | screen, .callExit =>
      if screen.exit = none then some { screen with exit := some s3cTsExit } else none
  | screen, .exitStep =>
      match screen.exit with
      | some (call :: rest) => some { screen.perform call with exit := some rest }
      | some [] | none => none

/-- `del_timer` is behind the exit function. -/
def timerDeleted (screen : Screen) : Bool :=
  screen.exit.any fun rest => !rest.contains .delTimer

end Screen

/-- No ADC interrupt completes a block of samples once the timer is deleted. -/
def NotRearmed (screen : Screen) : ScreenEvent → Prop
  | .handler (.adcIrq _ _ level) =>
      screen.irqAdc = true → screen.ts.converting = true → screen.timerDeleted = true →
        penUp level = false → screen.ts.cnt ≠ 3
  | .handler (.penIrq _) | .handler (.timer _) | .callExit | .exitStep => True

/-- An ADC interrupt arms the timer when it completes a block. -/
theorem adcIrq_timer {before after : Ts} {adcdat0 adcdat1 level : UInt32}
    (handled : Touch.adcIrq adcdat0 adcdat1 level before = some after) :
    after.timer = true ↔ before.timer = true ∨ (penUp level = false ∧ before.cnt = 3) := by
  simp only [Touch.adcIrq] at handled
  split at handled
  next up =>
      obtain rfl := Option.some.inj handled
      simp [up, Ts.liftPen, Ts.inputReportAbs, Ts.inputReportKey, Ts.inputSync,
        Ts.enterWaitPenDownMode]
  next down =>
      obtain ⟨stored, storing, handled⟩ := Option.bind_eq_some_iff.mp handled
      simp only [Ts.store] at storing
      split at storing
      next inBounds =>
          obtain rfl := Option.some.inj storing
          split at handled
          next full =>
              obtain rfl := Option.some.inj handled
              have last : before.cnt = 3 := Nat.succ.inj full
              simp [down, last, Ts.modTimer]
          next notFull =>
              obtain rfl := Option.some.inj handled
              have notLast : before.cnt ≠ 3 := fun last => notFull (congrArg Nat.succ last)
              simp [notLast, Ts.measure, Ts.startAdc, Ts.enterMeasureXyMode]
      next => contradiction

/-- The pen interrupt leaves the timer alone, and an expiry does not arm it again. -/
theorem handle_timer {before after : Ts} {event : TsEvent}
    (handled : handle before event = some after) (armed : after.timer = true) :
    before.timer = true ∨
      ∃ adcdat0 adcdat1 level, event = .adcIrq adcdat0 adcdat1 level ∧
        penUp level = false ∧ before.cnt = 3 := by
  cases event with
  | penIrq adcdat0 =>
      obtain rfl := Option.some.inj handled
      left
      unfold Touch.penDownUpIrq at armed
      split at armed <;> exact armed
  | timer adcdat0 =>
      obtain rfl := Option.some.inj handled
      unfold Touch.s3cTsTimerFunction at armed
      split at armed <;> contradiction
  | adcIrq adcdat0 adcdat1 level =>
      rcases (adcIrq_timer handled).mp armed with still | completed
      · exact .inl still
      · exact .inr ⟨_, _, _, rfl, completed⟩

namespace Screen

theorem step_handler {screen next : Screen} {event : TsEvent}
    (taken : screen.step (.handler event) = some next) :
    (screen.registered event = true ∧ Touch.Enabled screen.ts event) ∧
      ∃ ts, handle screen.ts event = some ts ∧ next = { screen with ts := ts } := by
  simp only [step] at taken
  split at taken
  next possible =>
      obtain ⟨ts, handled, rfl⟩ := Option.map_eq_some_iff.mp taken
      exact ⟨possible, ts, handled, rfl⟩
  next => contradiction

theorem step_exitStep {screen next : Screen} (taken : screen.step .exitStep = some next) :
    ∃ call rest, screen.exit = some (call :: rest) ∧
      next = { screen.perform call with exit := some rest } := by
  simp only [step] at taken
  split at taken
  next call rest running => exact ⟨call, rest, running, (Option.some.inj taken).symm⟩
  next => contradiction
  next => contradiction

theorem timerDeleted_of_exit {screen : Screen} {rest : List TsExit}
    (exit : screen.exit = some rest) :
    screen.timerDeleted = true ↔ .delTimer ∉ rest := by
  simp [timerDeleted, exit]

/-- Once deleted, the timer is not pending. -/
def Disarmed (screen : Screen) : Prop :=
  screen.timerDeleted = true → screen.ts.timer = false

theorem step_disarmed : step.Preserves NotRearmed Disarmed := by
  intro screen event next disarmed notRearmed taken
  cases event with
  | handler event =>
      obtain ⟨⟨registered, enabled⟩, ts, handled, rfl⟩ := step_handler taken
      intro deleted
      rw [Bool.eq_false_iff]
      intro armed
      rcases handle_timer handled armed with still | ⟨_, _, level, rfl, down, last⟩
      · rw [disarmed deleted] at still
        contradiction
      · exact notRearmed registered enabled deleted down last
  | callExit =>
      simp only [step] at taken
      split at taken
      · obtain rfl := Option.some.inj taken
        intro deleted
        contradiction
      · contradiction
  | exitStep =>
      obtain ⟨call, rest, exit, rfl⟩ := step_exitStep taken
      intro deleted
      rw [timerDeleted_of_exit rfl] at deleted
      cases call with
      | delTimer => rfl
      | freeIrqTc | freeIrqAdc | iounmap | inputUnregisterDevice | inputFreeDevice =>
          exact disarmed ((timerDeleted_of_exit exit).mpr (by simp [deleted]))

/-- The rest of the exit function, with no handler in between. -/
theorem run_exitSteps {screen : Screen} {rest : List TsExit} (exit : screen.exit = some rest)
    (deleted : .delTimer ∉ rest) :
    ∃ final, step.run screen (List.replicate rest.length .exitStep) = some final ∧
      final.exit = some [] ∧ final.ts.timer = screen.ts.timer := by
  induction rest generalizing screen with
  | nil => exact ⟨screen, rfl, exit, rfl⟩
  | cons call rest ih =>
      obtain ⟨other, deleted⟩ := not_or.mp (mt List.mem_cons.mpr deleted)
      obtain ⟨final, ran, returned, timer⟩ :=
        @ih { screen.perform call with exit := some rest } rfl deleted
      refine ⟨final, ?_, returned, timer.trans ?_⟩
      · rw [List.length_cons, List.replicate_succ, Step.run_cons]
        simp only [step, exit, Option.bind_some]
        exact ran
      · cases call with
        | delTimer => exact absurd rfl other
        | freeIrqTc | freeIrqAdc | iounmap | inputUnregisterDevice | inputFreeDevice => rfl

/-- A block that is completed behind `del_timer` leaves the timer to the end. -/
theorem exists_pending {screen : Screen} {event : ScreenEvent}
    (rearmed : ¬ NotRearmed screen event) :
    ∃ more final, step.run screen (event :: more) = some final ∧ final.exit = some [] ∧
      final.ts.timer = true := by
  cases event with
  | callExit | exitStep => exact absurd trivial rearmed
  | handler event =>
      cases event with
      | penIrq | timer => exact absurd trivial rearmed
      | adcIrq adcdat0 adcdat1 level =>
          simp only [NotRearmed, not_forall, ne_eq, not_not] at rearmed
          obtain ⟨registered, converting, deleted, down, last⟩ := rearmed
          obtain ⟨rest, exit, -⟩ := (Option.any_eq_true _ _).mp deleted
          have counted : screen.ts.cnt < 4 := by omega
          obtain ⟨ts, handled⟩ := Touch.handle_total counted (.adcIrq adcdat0 adcdat1 level)
          have armed : ts.timer = true := (adcIrq_timer handled).mpr (.inr ⟨down, last⟩)
          obtain ⟨final, ran, returned, timer⟩ := @run_exitSteps { screen with ts := ts } rest
            exit ((timerDeleted_of_exit exit).mp deleted)
          refine ⟨List.replicate rest.length .exitStep, final, ?_, returned,
            timer.trans armed⟩
          have taken : screen.step (.handler (.adcIrq adcdat0 adcdat1 level)) =
              some { screen with ts := ts } := by
            rw [step, if_pos ⟨registered, converting⟩, handled, Option.map_some]
          rw [Step.run_cons_of_eq taken, ran]

end Screen

theorem screen_timer (events : List ScreenEvent) :
    (Screen.step.Along NotRearmed Screen.initial events →
      ∀ final, Screen.step.run Screen.initial events = some final → final.exit = some [] →
        final.ts.timer = false) ∧
    (¬ Screen.step.Along NotRearmed Screen.initial events →
      ∃ first event rest screen more final, events = first ++ event :: rest ∧
        Screen.step.run Screen.initial first = some screen ∧ ¬ NotRearmed screen event ∧
        Screen.step.run screen (event :: more) = some final ∧
        final.exit = some [] ∧ final.ts.timer = true) := by
  constructor
  · intro along final reached returned
    have initially : Screen.initial.Disarmed := by
      intro deleted
      contradiction
    refine Screen.step_disarmed.run initially along reached ?_
    exact (Screen.timerDeleted_of_exit returned).mpr List.not_mem_nil
  · apply Step.exists_run_of_not_along
    intro screen event rearmed
    exact Screen.exists_pending rearmed

end Screen

/-! ## The buttons -/

section Buttons

open Buttons.CharDev (Dev Driver Handler)
open Buttons.ExclusiveOpen (Line Pc lines mem_lines nodup_lines)

theorem idxOf_lines_lt (line : Line) : lines.idxOf line < 6 := by cases line <;> decide

/-- The entry of `pin_desc` that is registered for the line. -/
def devId (line : Line) : Fin 6 := ⟨lines.idxOf line, idxOf_lines_lt line⟩

/-- The calls of `sixth_drv_exit`, none of which has to do with the timer. -/
inductive DrvExit where
  | unregisterChrdev
  | deviceDestroy
  | classDestroy
  deriving DecidableEq, Repr

/-- In the order in which they are made. -/
def sixthDrvExit : List DrvExit := [.unregisterChrdev, .deviceDestroy, .classDestroy]

/-- The processes with the semaphore and the interrupt lines, those that hold a reference
to the module, the static variables, and the calls that the exit function has still to
make. -/
structure SixthDrv (Pid : Type*) where
  files : Buttons.ExclusiveOpen.System Pid
  users : Finset Pid
  dev : Dev
  exit : Option (List DrvExit)

/-- A step of a file, of a handler, or of the exit function. -/
inductive SixthDrvEvent (Pid : Type*) where
  | file (event : Buttons.ExclusiveOpen.Event Pid)
  | irq (line : Line) (level : Fin 6 → Bool)
  | expire (level : Fin 6 → Bool)
  | callExit
  | exitStep

/-- The process that makes the call. -/
def caller {Pid : Type*} : Buttons.ExclusiveOpen.Event Pid → Pid
  | .openFile pid _ | .down pid | .request pid | .closeFile pid | .free pid => pid

variable {Pid : Type*} [DecidableEq Pid]

namespace SixthDrv

/-- `sixth_drv_init` has returned. -/
def initial : SixthDrv Pid := ⟨.initial, ∅, ⟨false, 0, none, true⟩, none⟩

/-- A process refers to the module while it is in open, has the file open or is in close;
the exit function is called when no process does. -/
def step : Step (SixthDrv Pid) (SixthDrvEvent Pid)
  | drv, .file event =>
      if drv.exit = none then
        (Buttons.ExclusiveOpen.System.step drv.files event).map fun files =>
          { drv with
            files := files
            users :=
              if files.pc (caller event) = .idle then drv.users.erase (caller event)
              else insert (caller event) drv.users }
      else
        none
  | drv, .irq line level =>
      if drv.files.held line then
        (Driver.buttonsAll.handle drv.dev (.irq (devId line) level)).map fun dev =>
          { drv with dev := dev }
      else
        none
  | drv, .expire level =>
      (Driver.buttonsAll.handle drv.dev (.expire level)).map fun dev =>
        { drv with dev := dev }
  | drv, .callExit =>
      if drv.exit = none ∧ drv.users = ∅ then
        some { drv with exit := some sixthDrvExit }
      else
        none
  | drv, .exitStep =>
      match drv.exit with
      | some (_ :: rest) => some { drv with exit := some rest }
      | some [] | none => none

end SixthDrv

/-- The exit function is called when the timer is not pending. -/
def UnloadedAtRest (drv : SixthDrv Pid) : SixthDrvEvent Pid → Prop
  | .callExit => drv.exit = none → drv.users = ∅ → drv.dev.timer = false
  | .file _ | .irq .. | .expire _ | .exitStep => True

/-! ### The lines of idle processes -/

open Buttons.ExclusiveOpen (System Event Effect effect_of_step)

/-- A line that is held belongs to a process that will free it. -/
structure Owned (system : System Pid) : Prop where
  nodup : ∀ pid, (system.pc pid).remaining.Nodup
  owner : ∀ line, system.held line = true → ∃ pid, (system.pc pid).registered line = true

omit [DecidableEq Pid] in
theorem initial_owned : Owned (System.initial : System Pid) := by
  constructor <;> simp [System.initial, Pc.remaining]

/-- A step of one process: each line that is held then is its own, or was held before and
is not among those it gives up. -/
theorem Owned.update {system next : System Pid} (owned : Owned system) {pid : Pid} {pc' : Pc}
    (pc : next.pc = Function.update system.pc pid pc') (nodup : pc'.remaining.Nodup)
    (held : ∀ line, next.held line = true → pc'.registered line = true ∨
      (system.held line = true ∧ (system.pc pid).registered line = false)) : Owned next := by
  constructor
  · intro other
    rw [pc, Function.update_apply]
    split
    · exact nodup
    · exact owned.nodup other
  · intro line isHeld
    rcases held line isHeld with own | ⟨before, notOwn⟩
    · exact ⟨pid, by rw [pc, Function.update_self, own]⟩
    · obtain ⟨owner, registered⟩ := owned.owner line before
      have different : owner ≠ pid := by
        rintro rfl
        rw [notOwn] at registered
        contradiction
      exact ⟨owner, by rw [pc, Function.update_of_ne different, registered]⟩

theorem step_owned : (System.step : Step (System Pid) (Event Pid)).Preserves
    (fun _ _ => True) Owned := by
  intro system event next owned _ taken
  cases effect_of_step taken with
  | outside pid nonblock lock held pc =>
      constructor
      · intro other
        rcases pc other with same | ⟨-, waiting⟩
        · rw [same]
          exact owned.nodup other
        · rw [waiting]
          exact List.nodup_nil
      · intro line isHeld
        rw [held] at isHeld
        obtain ⟨owner, registered⟩ := owned.owner line isHeld
        rcases pc owner with same | ⟨idle, -⟩
        · exact ⟨owner, by rw [same, registered]⟩
        · rw [idle] at registered
          contradiction
  | take pid event_eq available after_eq =>
      subst after_eq
      have outside : ∀ line, (system.pc pid).registered line = false := by
        rcases event_eq with ⟨-, idle⟩ | ⟨-, waiting⟩
        · rw [idle]
          exact fun _ => rfl
        · rw [waiting]
          exact fun _ => rfl
      refine owned.update rfl (by simpa using nodup_lines) ?_
      intro line isHeld
      exact .inr ⟨isHeld, outside line⟩
  | request pid line rest requesting lock held pc =>
      have nodup := owned.nodup pid
      rw [requesting] at nodup
      obtain ⟨fresh, nodup⟩ := List.nodup_cons.mp nodup
      refine owned.update pc (by simpa using nodup) ?_
      intro other isHeld
      rw [Pc.registered_afterRequest, requesting]
      by_cases later : other ∈ rest
      · have different : other ≠ line := fun same => fresh (same ▸ later)
        rw [held, Function.update_of_ne different] at isHeld
        exact .inr ⟨isHeld, by simp [Pc.registered, later]⟩
      · exact .inl (decide_eq_true later)
  | close pid opened lock held pc =>
      refine owned.update pc (by simpa using nodup_lines) ?_
      intro line _
      left
      simp [mem_lines]
  | free pid line rest freeing lock held pc =>
      have nodup := owned.nodup pid
      rw [freeing] at nodup
      refine owned.update pc (by simpa using (List.nodup_cons.mp nodup).2) ?_
      intro other isHeld
      have different : other ≠ line := by
        rintro rfl
        rw [held, Function.update_self] at isHeld
        contradiction
      rw [held, Function.update_of_ne different] at isHeld
      rw [Pc.registered_afterFree, freeing]
      by_cases later : other ∈ rest
      · exact .inl (decide_eq_true later)
      · exact .inr ⟨isHeld, by simp [Pc.registered, different, later]⟩

/-! ### The runs of the module -/

namespace SixthDrv

/-- What holds between two steps. -/
structure Tidy (drv : SixthDrv Pid) : Prop where
  owned : Owned drv.files
  users : ∀ pid, pid ∉ drv.users → drv.files.pc pid = .idle
  exited : drv.exit ≠ none → drv.users = ∅ ∧ drv.dev.timer = false

omit [DecidableEq Pid] in
/-- Without a process in the driver no interrupt is registered. -/
theorem Tidy.unheld {drv : SixthDrv Pid} (tidy : drv.Tidy) (unused : drv.users = ∅)
    (line : Line) : drv.files.held line = false := by
  rw [Bool.eq_false_iff]
  intro held
  obtain ⟨owner, registered⟩ := tidy.owned.owner line held
  rw [tidy.users owner (by simp [unused])] at registered
  contradiction

omit [DecidableEq Pid] in
theorem initial_tidy : (initial : SixthDrv Pid).Tidy where
  owned := initial_owned
  users := fun _ _ => rfl
  exited := by
    intro exited
    contradiction

/-- A step of a process changes the place of no other. -/
theorem pc_of_step {system next : System Pid} {event : Event Pid}
    (taken : System.step system event = some next) (other : Pid)
    (different : other ≠ caller event) : next.pc other = system.pc other := by
  cases event with
  | openFile pid nonblock =>
      simp only [System.step] at taken
      split at taken
      next =>
          split at taken
          · split at taken
            · obtain rfl := Option.some.inj taken
              rfl
            · obtain rfl := Option.some.inj taken
              exact Function.update_of_ne different _ _
          · obtain rfl := Option.some.inj taken
            exact Function.update_of_ne different _ _
      next => contradiction
  | down pid =>
      simp only [System.step] at taken
      split at taken
      next =>
          split at taken
          · contradiction
          · obtain rfl := Option.some.inj taken
            exact Function.update_of_ne different _ _
      next => contradiction
  | request pid | closeFile pid | free pid =>
      simp only [System.step] at taken
      split at taken
      · obtain rfl := Option.some.inj taken
        exact Function.update_of_ne different _ _
      · contradiction

theorem step_tidy : (step : Step (SixthDrv Pid) (SixthDrvEvent Pid)).Preserves
    UnloadedAtRest Tidy := by
  intro drv event next tidy atRest taken
  cases event with
  | file event =>
      simp only [step] at taken
      split at taken
      next running =>
          obtain ⟨files, moved, rfl⟩ := Option.map_eq_some_iff.mp taken
          refine ⟨step_owned _ _ _ tidy.owned trivial moved, ?_,
            fun exited => absurd running exited⟩
          intro pid notUser
          simp only at notUser ⊢
          by_cases same : pid = caller event
          · rw [← same] at notUser
            split at notUser
            next idle => exact idle
            next => exact absurd (Finset.mem_insert_self _ _) notUser
          · rw [pc_of_step moved pid same]
            apply tidy.users
            intro user
            apply notUser
            split
            · exact Finset.mem_erase.mpr ⟨same, user⟩
            · exact Finset.mem_insert_of_mem user
      next => contradiction
  | irq line level =>
      simp only [step] at taken
      split at taken
      next held =>
          obtain ⟨dev, handled, rfl⟩ := Option.map_eq_some_iff.mp taken
          refine ⟨tidy.owned, tidy.users, fun exited => ?_⟩
          rw [tidy.unheld (tidy.exited exited).1 line] at held
          contradiction
      next => contradiction
  | expire level =>
      obtain ⟨dev, handled, rfl⟩ := Option.map_eq_some_iff.mp taken
      refine ⟨tidy.owned, tidy.users, fun exited => ⟨(tidy.exited exited).1, ?_⟩⟩
      have pending := (tidy.exited exited).2
      simp [Driver.handle, pending] at handled
  | callExit =>
      simp only [step] at taken
      split at taken
      next possible =>
          obtain rfl := Option.some.inj taken
          exact ⟨tidy.owned, tidy.users, fun _ => ⟨possible.2, atRest possible.1 possible.2⟩⟩
      next => contradiction
  | exitStep =>
      simp only [step] at taken
      split at taken
      next call rest running =>
          obtain rfl := Option.some.inj taken
          exact ⟨tidy.owned, tidy.users, fun _ => tidy.exited (by simp [running])⟩
      next => contradiction
      next => contradiction

/-- The whole exit function, with no handler in between. -/
theorem run_exitSteps {drv : SixthDrv Pid} {rest : List DrvExit} (exit : drv.exit = some rest) :
    step.run drv (List.replicate rest.length .exitStep) = some { drv with exit := some [] } := by
  induction rest generalizing drv with
  | nil => rw [← exit]; rfl
  | cons call rest ih =>
      rw [List.length_cons, List.replicate_succ, Step.run_cons]
      simp only [step, exit, Option.bind_some]
      exact @ih { drv with exit := some rest } rfl

end SixthDrv

theorem sixthDrv_timer (events : List (SixthDrvEvent Pid)) :
    (SixthDrv.step.Along UnloadedAtRest SixthDrv.initial events →
      ∀ final, SixthDrv.step.run SixthDrv.initial events = some final →
        final.exit = some [] → final.dev.timer = false) ∧
    (¬ SixthDrv.step.Along UnloadedAtRest SixthDrv.initial events →
      ∃ first event rest drv more final, events = first ++ event :: rest ∧
        SixthDrv.step.run SixthDrv.initial first = some drv ∧ ¬ UnloadedAtRest drv event ∧
        SixthDrv.step.run drv (event :: more) = some final ∧
        final.exit = some [] ∧ final.dev.timer = true) := by
  constructor
  · intro along final reached returned
    have tidy := SixthDrv.step_tidy.run SixthDrv.initial_tidy along reached
    exact (tidy.exited (by simp [returned])).2
  · apply Step.exists_run_of_not_along
    intro drv event pending
    cases event with
    | file | irq | expire | exitStep => exact absurd trivial pending
    | callExit =>
        simp only [UnloadedAtRest, not_forall, Bool.not_eq_false] at pending
        obtain ⟨running, unused, pending⟩ := pending
        refine ⟨List.replicate 3 .exitStep, { drv with exit := some [] }, ?_, rfl, pending⟩
        have taken : SixthDrv.step drv .callExit =
            some { drv with exit := some sixthDrvExit } := by
          rw [SixthDrv.step, if_pos ⟨running, unused⟩]
        rw [Step.run_cons_of_eq taken]
        exact @SixthDrv.run_exitSteps _ _ { drv with exit := some sixthDrvExit } _ rfl

end Buttons

/-! ## Both drivers -/

/-- For every run of handlers, opens and closes, and every interleaving of the handlers
with the exit function: the timer of the touch screen is not pending at its end if no ADC
interrupt completes a block of samples behind `del_timer`, the timer of the buttons if it
was not pending when `sixth_drv_exit` was called.  Any other run has a step from which the
exit function can return with the timer pending. -/
theorem exit_leaves_no_timer {Pid : Type*} [DecidableEq Pid]
    (screenEvents : List ScreenEvent) (drvEvents : List (SixthDrvEvent Pid)) :
    ((Screen.step.Along NotRearmed Screen.initial screenEvents →
        ∀ final, Screen.step.run Screen.initial screenEvents = some final →
          final.exit = some [] → final.ts.timer = false) ∧
      (¬ Screen.step.Along NotRearmed Screen.initial screenEvents →
        ∃ first event rest screen more final, screenEvents = first ++ event :: rest ∧
          Screen.step.run Screen.initial first = some screen ∧ ¬ NotRearmed screen event ∧
          Screen.step.run screen (event :: more) = some final ∧
          final.exit = some [] ∧ final.ts.timer = true)) ∧
    ((SixthDrv.step.Along UnloadedAtRest SixthDrv.initial drvEvents →
        ∀ final, SixthDrv.step.run SixthDrv.initial drvEvents = some final →
          final.exit = some [] → final.dev.timer = false) ∧
      (¬ SixthDrv.step.Along UnloadedAtRest SixthDrv.initial drvEvents →
        ∃ first event rest drv more final, drvEvents = first ++ event :: rest ∧
          SixthDrv.step.run SixthDrv.initial first = some drv ∧ ¬ UnloadedAtRest drv event ∧
          SixthDrv.step.run drv (event :: more) = some final ∧
          final.exit = some [] ∧ final.dev.timer = true)) :=
  ⟨screen_timer screenEvents, sixthDrv_timer drvEvents⟩

/-- The fourth sample of a contact comes between `del_timer` and `free_irq`. -/
def sampledDuringExit : List ScreenEvent :=
  [.handler (.penIrq 0), .handler (.adcIrq 100 100 0), .handler (.adcIrq 100 100 0),
    .handler (.adcIrq 100 100 0), .callExit, .exitStep, .handler (.adcIrq 100 100 0),
    .exitStep, .exitStep, .exitStep, .exitStep, .exitStep]

/-- A key interrupt is taken, and the file is closed and the module unloaded before the
10 ms are over. -/
def unloadedAfterKey : List (SixthDrvEvent Unit) :=
  [.expire fun _ => true, .file (.openFile () false), .file (.down ())] ++
    List.replicate 6 (.file (.request ())) ++
    [.irq .eint8 fun _ => false, .file (.closeFile ())] ++
    List.replicate 6 (.file (.free ())) ++
    [.callExit, .exitStep, .exitStep, .exitStep]

theorem timers_outlive_exit :
    (∃ final, Screen.step.run Screen.initial sampledDuringExit = some final ∧
      final.exit = some [] ∧ final.ts.timer = true) ∧
    ∃ final, SixthDrv.step.run SixthDrv.initial unloadedAfterKey = some final ∧
      final.exit = some [] ∧ final.dev.timer = true :=
  ⟨⟨_, rfl, rfl, rfl⟩, ⟨_, rfl, rfl, rfl⟩⟩

end Mini2440.Unload
