import Mini2440.Lib.Transition
import Mathlib.Logic.Function.Basic
import Mathlib.Data.List.Nodup

/-!
# Exclusive open

`sixth_drv_open` and `sixth_drv_close` of `sixth_drv.c` and `buttons_all.c`, run by any
number of processes.  Open takes the semaphore `button_lock` and then requests six
interrupt lines without looking at the results; close releases the semaphore first and
frees the lines after that.  Each of these is a step of its own.
-/

namespace Mini2440.Buttons.ExclusiveOpen

open Transition

/-- The error number of an open that does not wait. -/
def EBUSY : Int := 16

/-! ## Interrupt lines -/

/-- The interrupt lines of the six buttons. -/
inductive Line where
  | eint8
  | eint11
  | eint13
  | eint14
  | eint15
  | eint19
  deriving DecidableEq, Repr

/-- In the order in which they are requested and freed. -/
def lines : List Line := [.eint8, .eint11, .eint13, .eint14, .eint15, .eint19]

theorem mem_lines (line : Line) : line ∈ lines := by cases line <;> decide

theorem nodup_lines : lines.Nodup := by decide

/-- `request_irq` without `IRQF_SHARED`: a line that is held stays as it is. -/
def requestIrq (held : Line → Bool) (line : Line) : Line → Bool :=
  if held line then held else Function.update held line true

/-- `free_irq`. -/
def freeIrq (held : Line → Bool) (line : Line) : Line → Bool :=
  Function.update held line false

theorem requestIrq_eq (held : Line → Bool) (line : Line) :
    requestIrq held line = Function.update held line true := by
  unfold requestIrq
  split
  next already => rw [← already, Function.update_eq_self]
  next => rfl

/-! ## Processes -/

/-- Where a process is: not in the driver, asleep in `down`, in open or in close with some
lines still to go, or between the two. -/
inductive Pc where
  | idle
  | waiting
  | requesting (line : Line) (rest : List Line)
  | opened
  | freeing (line : Line) (rest : List Line)
  deriving DecidableEq, Repr

/-- After a `request_irq` of open. -/
def Pc.afterRequest : List Line → Pc
  | [] => .opened
  | line :: rest => .requesting line rest

/-- After a `free_irq` of close. -/
def Pc.afterFree : List Line → Pc
  | [] => .idle
  | line :: rest => .freeing line rest

/-- The semaphore, the lines that are held, the processes, and what open has returned. -/
structure System (Pid : Type*) where
  buttonLock : Nat
  held : Line → Bool
  pc : Pid → Pc
  returned : List (Pid × Int)

/-- The steps of open and close. -/
inductive Event (Pid : Type*) where
  /-- The call of open, up to `down_trylock` or to `down`. -/
  | openFile (pid : Pid) (nonblock : Bool)
  /-- `down` gets the semaphore. -/
  | down (pid : Pid)
  | request (pid : Pid)
  /-- The call of close, up to and with `up`. -/
  | closeFile (pid : Pid)
  | free (pid : Pid)

namespace System

variable {Pid : Type*} [DecidableEq Pid]

/-- The semaphore is free and nothing is requested. -/
def initial : System Pid := ⟨1, fun _ => false, fun _ => .idle, []⟩

/-- One process goes on. -/
def setPc (system : System Pid) (pid : Pid) (pc : Pc) : System Pid :=
  { system with pc := Function.update system.pc pid pc }

/-- The semaphore is taken, the requests come next. -/
def take (system : System Pid) (pid : Pid) : System Pid :=
  { system.setPc pid (.afterRequest lines) with buttonLock := system.buttonLock - 1 }

/-- Any number of processes in open and close, one step at a time. -/
def step : Step (System Pid) (Event Pid)
  | system, .openFile pid nonblock =>
      match system.pc pid with
      | .idle =>
          if nonblock then
            if system.buttonLock = 0 then
              some { system with returned := system.returned ++ [(pid, -EBUSY)] }
            else some (system.take pid)
          else some (system.setPc pid .waiting)
      | _ => none
  | system, .down pid =>
      match system.pc pid with
      | .waiting => if system.buttonLock = 0 then none else some (system.take pid)
      | _ => none
  | system, .request pid =>
      match system.pc pid with
      | .requesting line rest =>
          some { system.setPc pid (.afterRequest rest) with
            held := requestIrq system.held line
            returned :=
              if rest = [] then system.returned ++ [(pid, 0)] else system.returned }
      | _ => none
  | system, .closeFile pid =>
      match system.pc pid with
      | .opened =>
          some { system.setPc pid (.afterFree lines) with
            buttonLock := system.buttonLock + 1 }
      | _ => none
  | system, .free pid =>
      match system.pc pid with
      | .freeing line rest =>
          some { system.setPc pid (.afterFree rest) with held := freeIrq system.held line }
      | _ => none

/-- A process whose open returned 0 and whose close has not begun has all six lines. -/
def OpenHasLines (system : System Pid) : Prop :=
  ∀ pid, system.pc pid = .opened → ∀ line, system.held line = true

end System

/-- `free_irq` is called on a registered line. -/
def FreesHeld {Pid : Type*} (system : System Pid) : Event Pid → Prop
  | .free pid => ∀ line rest, system.pc pid = .freeing line rest → system.held line = true
  | .openFile .. | .down _ | .request _ | .closeFile _ => True

/-- The semaphore is not taken while a close still has lines to free. -/
def TakesAfterClose {Pid : Type*} (system : System Pid) : Event Pid → Prop
  | .openFile pid nonblock => system.pc pid = .idle → nonblock = true → system.buttonLock ≠ 0 →
      ∀ other line rest, system.pc other ≠ .freeing line rest
  | .down pid => system.pc pid = .waiting → system.buttonLock ≠ 0 →
      ∀ other line rest, system.pc other ≠ .freeing line rest
  | .request _ | .closeFile _ | .free _ => True

/-! ## What a step does -/

section Steps

variable {Pid : Type*} [DecidableEq Pid]

/-- What each event does to the semaphore, the lines and the processes. -/
inductive Effect (before : System Pid) : Event Pid → System Pid → Prop
  /-- An open that fails or goes to sleep. -/
  | outside (pid : Pid) (nonblock : Bool) {after : System Pid}
      (lock : after.buttonLock = before.buttonLock) (held : after.held = before.held)
      (pc : ∀ other, after.pc other = before.pc other ∨
        before.pc other = .idle ∧ after.pc other = .waiting) :
      Effect before (.openFile pid nonblock) after
  | take (pid : Pid) {event : Event Pid} {after : System Pid}
      (event_eq : (event = .openFile pid true ∧ before.pc pid = .idle) ∨
        event = .down pid ∧ before.pc pid = .waiting)
      (available : before.buttonLock ≠ 0) (after_eq : after = before.take pid) :
      Effect before event after
  | request (pid : Pid) (line : Line) (rest : List Line) {after : System Pid}
      (requesting : before.pc pid = .requesting line rest)
      (lock : after.buttonLock = before.buttonLock)
      (held : after.held = Function.update before.held line true)
      (pc : after.pc = Function.update before.pc pid (.afterRequest rest)) :
      Effect before (.request pid) after
  | close (pid : Pid) {after : System Pid} (opened : before.pc pid = .opened)
      (lock : after.buttonLock = before.buttonLock + 1) (held : after.held = before.held)
      (pc : after.pc = Function.update before.pc pid (.afterFree lines)) :
      Effect before (.closeFile pid) after
  | free (pid : Pid) (line : Line) (rest : List Line) {after : System Pid}
      (freeing : before.pc pid = .freeing line rest)
      (lock : after.buttonLock = before.buttonLock)
      (held : after.held = Function.update before.held line false)
      (pc : after.pc = Function.update before.pc pid (.afterFree rest)) :
      Effect before (.free pid) after

theorem effect_of_step {system next : System Pid} {event : Event Pid}
    (taken : System.step system event = some next) : Effect system event next := by
  cases event with
  | openFile pid nonblock =>
      simp only [System.step] at taken
      split at taken
      next idle =>
          split at taken
          next isNonblock =>
              subst isNonblock
              split at taken
              next busy =>
                  obtain rfl := Option.some.inj taken
                  exact .outside pid true rfl rfl (fun _ => .inl rfl)
              next available =>
                  exact .take pid (.inl ⟨rfl, idle⟩) available (Option.some.inj taken).symm
          next =>
              obtain rfl := Option.some.inj taken
              refine .outside pid nonblock rfl rfl ?_
              intro other
              by_cases same : other = pid
              · right
                simp [System.setPc, same, idle]
              · left
                simp [System.setPc, same]
      next => contradiction
  | down pid =>
      simp only [System.step] at taken
      split at taken
      next waiting =>
          split at taken
          next => contradiction
          next available =>
              exact .take pid (.inr ⟨rfl, waiting⟩) available (Option.some.inj taken).symm
      next => contradiction
  | request pid =>
      simp only [System.step] at taken
      split at taken
      next line rest requesting =>
          obtain rfl := Option.some.inj taken
          exact .request pid line rest requesting rfl (requestIrq_eq _ _) rfl
      next => contradiction
  | closeFile pid =>
      simp only [System.step] at taken
      split at taken
      next opened =>
          obtain rfl := Option.some.inj taken
          exact .close pid opened rfl rfl rfl
      next => contradiction
  | free pid =>
      simp only [System.step] at taken
      split at taken
      next line rest freeing =>
          obtain rfl := Option.some.inj taken
          exact .free pid line rest freeing rfl rfl rfl
      next => contradiction

end Steps

/-! ## One process at a time -/

namespace Pc

/-- Between the `down` of open and the last `free_irq` of close. -/
def busy : Pc → Bool
  | .requesting .. | .opened | .freeing .. => true
  | .idle | .waiting => false

/-- Between `down` and `up`. -/
def holdsLock : Pc → Bool
  | .requesting .. | .opened => true
  | .idle | .waiting | .freeing .. => false

/-- The lines that a process which is alone has registered. -/
def registered : Pc → Line → Bool
  | .requesting line rest, other => decide (other ∉ line :: rest)
  | .opened, _ => true
  | .freeing line rest, other => decide (other ∈ line :: rest)
  | .idle, _ | .waiting, _ => false

/-- The lines that the process has still to request or to free. -/
def remaining : Pc → List Line
  | .requesting line rest | .freeing line rest => line :: rest
  | .idle | .waiting | .opened => []

theorem busy_of_holdsLock {pc : Pc} (holds : pc.holdsLock = true) : pc.busy = true := by
  cases pc with
  | idle | waiting | freeing => contradiction
  | requesting | opened => rfl

theorem registered_of_not_busy {pc : Pc} (free : pc.busy = false) (line : Line) :
    pc.registered line = false := by
  cases pc with
  | idle | waiting => rfl
  | requesting | opened | freeing => contradiction

@[simp] theorem registered_afterRequest (rest : List Line) (line : Line) :
    (afterRequest rest).registered line = decide (line ∉ rest) := by
  cases rest <;> simp [afterRequest, registered]

@[simp] theorem registered_afterFree (rest : List Line) (line : Line) :
    (afterFree rest).registered line = decide (line ∈ rest) := by
  cases rest <;> simp [afterFree, registered]

@[simp] theorem remaining_afterRequest (rest : List Line) :
    (afterRequest rest).remaining = rest := by
  cases rest <;> rfl

@[simp] theorem remaining_afterFree (rest : List Line) : (afterFree rest).remaining = rest := by
  cases rest <;> rfl

@[simp] theorem holdsLock_afterFree (rest : List Line) :
    (afterFree rest).holdsLock = false := by
  cases rest <;> rfl

end Pc

namespace System

variable {Pid : Type*}

/-- At most one process is busy, and the lines and the semaphore are as it has left
them. -/
structure Orderly (system : System Pid) : Prop where
  single : ∀ first second, (system.pc first).busy = true → (system.pc second).busy = true →
    first = second
  binary : system.buttonLock ≤ 1
  locked : ∀ pid, (system.pc pid).holdsLock = true → system.buttonLock = 0
  lines : ∀ pid, (system.pc pid).busy = true → ∀ line,
    system.held line = (system.pc pid).registered line
  unused : (∀ pid, (system.pc pid).busy = false) → ∀ line, system.held line = false
  nodup : ∀ pid, (system.pc pid).remaining.Nodup

theorem initial_orderly : (initial : System Pid).Orderly := by
  constructor <;> simp [initial, Pc.busy, Pc.holdsLock, Pc.remaining]

theorem Orderly.openHasLines {system : System Pid} (orderly : system.Orderly) :
    system.OpenHasLines := by
  intro pid opened line
  rw [orderly.lines pid (by rw [opened]; rfl), opened]
  rfl

theorem Orderly.freesHeld {system : System Pid} (orderly : system.Orderly)
    (event : Event Pid) : FreesHeld system event := by
  cases event with
  | free pid =>
      intro line rest freeing
      rw [orderly.lines pid (by rw [freeing]; rfl), freeing]
      simp [Pc.registered]
  | openFile | down | request | closeFile => trivial

/-- An open that fails or goes to sleep changes nothing. -/
theorem Orderly.outside {system next : System Pid} (orderly : system.Orderly)
    (lock : next.buttonLock = system.buttonLock) (held : next.held = system.held)
    (pc : ∀ other, next.pc other = system.pc other ∨
      system.pc other = .idle ∧ next.pc other = .waiting) : next.Orderly := by
  have busy (pid : Pid) : (next.pc pid).busy = (system.pc pid).busy := by
    rcases pc pid with same | ⟨idle, waiting⟩
    · rw [same]
    · rw [idle, waiting]
      rfl
  have holdsLock (pid : Pid) : (next.pc pid).holdsLock = (system.pc pid).holdsLock := by
    rcases pc pid with same | ⟨idle, waiting⟩
    · rw [same]
    · rw [idle, waiting]
      rfl
  constructor
  case single => simpa only [busy] using orderly.single
  case binary => exact lock ▸ orderly.binary
  case locked => simpa only [holdsLock, lock] using orderly.locked
  case lines =>
    intro pid isBusy line
    rw [busy] at isBusy
    rcases pc pid with same | ⟨idle, -⟩
    · rw [held, same]
      exact orderly.lines pid isBusy line
    · rw [idle] at isBusy
      contradiction
  case unused => simpa only [busy, held] using orderly.unused
  case nodup =>
    intro pid
    rcases pc pid with same | ⟨-, waiting⟩
    · rw [same]
      exact orderly.nodup pid
    · rw [waiting]
      exact List.nodup_nil

/-- No other process is busy while one is. -/
theorem Orderly.others {system : System Pid} (orderly : system.Orderly) {pid : Pid}
    (busy : (system.pc pid).busy = true) (other : Pid) (different : other ≠ pid) :
    (system.pc other).busy = false := by
  rw [Bool.eq_false_iff]
  exact fun busy' => different (orderly.single other pid busy' busy)

/-- The semaphore is free and no close is going on, so no process is busy. -/
theorem Orderly.free_of_available {system : System Pid} (orderly : system.Orderly)
    (available : system.buttonLock ≠ 0)
    (closed : ∀ other line rest, system.pc other ≠ .freeing line rest) (pid : Pid) :
    (system.pc pid).busy = false := by
  have notHolding := mt (orderly.locked pid) available
  have notFreeing := closed pid
  cases pc : system.pc pid with
  | idle | waiting => rfl
  | requesting | opened => simp [pc, Pc.holdsLock] at notHolding
  | freeing line rest => exact absurd pc (notFreeing line rest)

variable [DecidableEq Pid]

/-- A step of a process while no other is busy. -/
theorem Orderly.update {system next : System Pid} (orderly : system.Orderly) {pid : Pid}
    {pc' : Pc} (others : ∀ other, other ≠ pid → (system.pc other).busy = false)
    (pc : next.pc = Function.update system.pc pid pc') (binary : next.buttonLock ≤ 1)
    (locked : pc'.holdsLock = true → next.buttonLock = 0)
    (lines : ∀ line, next.held line = pc'.registered line)
    (nodup : pc'.remaining.Nodup) : next.Orderly := by
  have self : next.pc pid = pc' := by rw [pc, Function.update_self]
  have busy_eq {other : Pid} (busy : (next.pc other).busy = true) : other = pid := by
    by_contra different
    rw [pc, Function.update_of_ne different, others other different] at busy
    contradiction
  constructor
  case single =>
    intro first second busy busy'
    rw [busy_eq busy, busy_eq busy']
  case binary => exact binary
  case locked =>
    intro other holds
    obtain rfl := busy_eq (Pc.busy_of_holdsLock holds)
    exact locked (self ▸ holds)
  case lines =>
    intro other busy line
    obtain rfl := busy_eq busy
    rw [self]
    exact lines line
  case unused =>
    intro free line
    rw [lines line]
    exact Pc.registered_of_not_busy (self ▸ free pid) line
  case nodup =>
    intro other
    rw [pc, Function.update_apply]
    split
    · exact nodup
    · exact orderly.nodup other

theorem step_orderly :
    (step : Step (System Pid) (Event Pid)).Preserves TakesAfterClose Orderly := by
  intro system event next orderly closed taken
  cases effect_of_step taken with
  | outside pid nonblock lock held pc => exact orderly.outside lock held pc
  | take pid event_eq available after_eq =>
      subst after_eq
      have closed' : ∀ other line rest, system.pc other ≠ .freeing line rest := by
        rcases event_eq with ⟨rfl, idle⟩ | ⟨rfl, waiting⟩
        · exact closed idle rfl available
        · exact closed waiting available
      have free := orderly.free_of_available available closed'
      refine orderly.update (fun other _ => free other) rfl ?_ ?_ ?_ ?_
      · exact Nat.le_trans (Nat.sub_le _ _) orderly.binary
      · intro _
        exact Nat.sub_eq_zero_of_le orderly.binary
      · intro line
        have unused : system.held line = false := orderly.unused free line
        simpa [System.take, System.setPc, mem_lines] using unused
      · simpa using nodup_lines
  | request pid line rest requesting lock held pc =>
      have busy : (system.pc pid).busy = true := by rw [requesting]; rfl
      have distinct := orderly.nodup pid
      rw [requesting] at distinct
      obtain ⟨notIn, distinct⟩ := List.nodup_cons.mp distinct
      apply orderly.update (orderly.others busy) pc
      · exact lock ▸ orderly.binary
      · intro _
        rw [lock]
        exact orderly.locked pid (by rw [requesting]; rfl)
      · intro other
        rw [held, Function.update_apply, Pc.registered_afterRequest]
        split
        next same => simp [same, notIn]
        next different =>
            rw [orderly.lines pid busy, requesting]
            simp [Pc.registered, different]
      · simpa using distinct
  | close pid opened lock held pc =>
      have busy : (system.pc pid).busy = true := by rw [opened]; rfl
      apply orderly.update (orderly.others busy) pc
      · have taken : system.buttonLock = 0 := orderly.locked pid (by rw [opened]; rfl)
        simp [lock, taken]
      · simp
      · intro line
        rw [held, orderly.lines pid busy, opened, Pc.registered_afterFree]
        simp [Pc.registered, mem_lines]
      · simpa using nodup_lines
  | free pid line rest freeing lock held pc =>
      have busy : (system.pc pid).busy = true := by rw [freeing]; rfl
      have distinct := orderly.nodup pid
      rw [freeing] at distinct
      obtain ⟨notIn, distinct⟩ := List.nodup_cons.mp distinct
      apply orderly.update (orderly.others busy) pc
      · exact lock ▸ orderly.binary
      · simp
      · intro other
        rw [held, Function.update_apply, Pc.registered_afterFree]
        split
        next same => simp [same, notIn]
        next different =>
            rw [orderly.lines pid busy, freeing]
            simp [Pc.registered, different]
      · simpa using distinct

/-! ## An open during a close -/

theorem step_request {system : System Pid} {pid : Pid} {line : Line} {rest : List Line}
    (requesting : system.pc pid = .requesting line rest) :
    ∃ next, step system (.request pid) = some next ∧
      next.pc = Function.update system.pc pid (.afterRequest rest) := by
  simp [step, requesting, setPc]

theorem step_free {system : System Pid} {pid : Pid} {line : Line} {rest : List Line}
    (freeing : system.pc pid = .freeing line rest) :
    ∃ next, step system (.free pid) = some next ∧ next.held line = false ∧
      next.pc = Function.update system.pc pid (.afterFree rest) := by
  simp [step, freeing, setPc, freeIrq]

/-- A process can make its requests, whatever they give. -/
theorem run_requests {system : System Pid} {pid : Pid} {line : Line} {rest : List Line}
    (requesting : system.pc pid = .requesting line rest) :
    ∃ more final, step.run system more = some final ∧ final.pc pid = .opened ∧
      ∀ other, other ≠ pid → final.pc other = system.pc other := by
  induction rest generalizing system line with
  | nil =>
      obtain ⟨next, taken, pc⟩ := step_request requesting
      refine ⟨[.request pid], next, ?_, ?_, ?_⟩
      · rw [Step.run_singleton, taken]
      · rw [pc, Function.update_self]
        rfl
      · intro other different
        rw [pc, Function.update_of_ne different]
  | cons following rest ih =>
      obtain ⟨next, taken, pc⟩ := step_request requesting
      have self : next.pc pid = .requesting following rest := by
        rw [pc, Function.update_self]
        rfl
      obtain ⟨more, final, reached, opened, others⟩ := ih self
      refine ⟨.request pid :: more, final, ?_, opened, ?_⟩
      · rw [Step.run_cons_of_eq taken, reached]
      · intro other different
        rw [others other different, pc, Function.update_of_ne different]

/-- The semaphore is taken while another process has a line to free: the open can return 0
before that line is freed. -/
theorem take_during_close {system : System Pid} {pid other : Pid} {line : Line}
    {rest : List Line} (different : other ≠ pid)
    (freeing : system.pc other = .freeing line rest) :
    ∃ more final, step.run (system.take pid) more = some final ∧ ¬ final.OpenHasLines := by
  have requesting : (system.take pid).pc pid = .afterRequest lines := by
    simp [take, setPc]
  obtain ⟨more, between, reached, opened, unchanged⟩ := run_requests requesting
  have freeing' : between.pc other = .freeing line rest := by
    rw [unchanged other different, ← freeing]
    simp [take, setPc, different]
  obtain ⟨final, taken, freed, pc⟩ := step_free freeing'
  refine ⟨more ++ [.free other], final, ?_, ?_⟩
  · rw [Step.run_append_of_eq reached, Step.run_singleton, taken]
  · intro hasLines
    have stillOpened : final.pc pid = .opened := by
      rw [pc, Function.update_of_ne different.symm, opened]
    rw [hasLines pid stillOpened line] at freed
    contradiction

/-- A step that breaks the condition takes the semaphore next to a close. -/
theorem take_of_not_takesAfterClose {system : System Pid} {event : Event Pid}
    (broken : ¬ TakesAfterClose system event) :
    ∃ pid other line rest, other ≠ pid ∧ system.pc other = .freeing line rest ∧
      step system event = some (system.take pid) := by
  cases event with
  | openFile pid nonblock =>
      simp only [TakesAfterClose] at broken
      push Not at broken
      obtain ⟨idle, isNonblock, available, other, line, rest, freeing⟩ := broken
      refine ⟨pid, other, line, rest, ?_, freeing, ?_⟩
      · intro same
        rw [same, idle] at freeing
        contradiction
      · simp [step, idle, isNonblock, available]
  | down pid =>
      simp only [TakesAfterClose] at broken
      push Not at broken
      obtain ⟨waiting, available, other, line, rest, freeing⟩ := broken
      refine ⟨pid, other, line, rest, ?_, freeing, ?_⟩
      · intro same
        rw [same, waiting] at freeing
        contradiction
      · simp [step, waiting, available]
  | request | closeFile | free => exact absurd trivial broken

/-! ## The law -/

/-- When the semaphore is only ever taken after the last close has freed its lines, every
open that returned 0 has all six lines until its close, and `free_irq` only meets
registered lines.  A run that takes it earlier can be continued, from that step on, to a
state in which an open that returned 0 lacks a line. -/
theorem open_has_lines (events : List (Event Pid)) :
    (step.Along TakesAfterClose initial events →
      (∀ final, step.run initial events = some final → final.OpenHasLines) ∧
        step.Along FreesHeld initial events) ∧
    (¬ step.Along TakesAfterClose initial events →
      ∃ first event rest system more final, events = first ++ event :: rest ∧
        step.run initial first = some system ∧ ¬ TakesAfterClose system event ∧
        step.run system (event :: more) = some final ∧ ¬ final.OpenHasLines) := by
  constructor
  · intro along
    constructor
    · intro final reached
      exact (step_orderly.run initial_orderly along reached).openHasLines
    · exact step_orderly.strengthen (fun _ event orderly _ => orderly.freesHeld event)
        initial_orderly along
  · apply Step.exists_run_of_not_along
    intro system event breaks
    obtain ⟨pid, other, line, rest', different, freeing, taken⟩ :=
      take_of_not_takesAfterClose breaks
    obtain ⟨more, final, continued, lacks⟩ := take_during_close different freeing
    exact ⟨more, final, by rw [Step.run_cons_of_eq taken, continued], lacks⟩

/-- Process `true` opens and begins to close; `false` opens, all of its requests fail, and
the close then frees the first line. -/
def openDuringClose : List (Event Bool) :=
  .openFile true true :: List.replicate 6 (.request true) ++
    .closeFile true :: .openFile false true :: List.replicate 6 (.request false) ++
    [.free true]

/-- Both opens returned 0, and the second has no EINT8. -/
theorem openDuringClose_lacks_line :
    ∃ final, step.run initial openDuringClose = some final ∧
      final.returned = [(true, 0), (false, 0)] ∧ ¬ final.OpenHasLines := by
  refine ⟨_, rfl, rfl, ?_⟩
  intro hasLines
  exact absurd (hasLines false rfl .eint8) (by decide)

end System

end Mini2440.Buttons.ExclusiveOpen
