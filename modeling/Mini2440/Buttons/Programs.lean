import Mini2440.Buttons.Sole
import Mini2440.Lib.History

/-!
# The programs that read the buttons

`forthdrvtest.c` asks with `poll` before it reads, `signal_test.c` reads in the handler of
`SIGIO`, and `thirddrvtest.c`, `sixthdrvtest.c` and `buttonsdrvtest.c` read in a loop, the
second of them with `O_NONBLOCK`.  Each has the device open alone and reads one byte into a
variable of its own, so that the copy does not fail.
-/

namespace Mini2440.Buttons.CharDev

open Transition

/-- What the C library's `read` returns. -/
def ReadResult.ret (result : ReadResult) : Int := if result.code < 0 then -1 else result.code

/-- The variable after the read. -/
def ReadResult.store : ReadResult → UInt8 → UInt8
  | .one value _, _ => value
  | .einval, keyVal | .eagain, keyVal | .efault, keyVal => keyVal

/-- The steps after the call of a read of one byte into a variable of the program, and those
of the handlers. -/
def Event.inRead : Event Unit → Bool
  | .read .. => false
  | .copy _ copied => copied
  | .handler _ | .test _ | .signal _ | .clear _ => true

/-- What the read has returned, if it has in this step. -/
def Sole.result (sole next : Sole) : Option ReadResult :=
  next.system.returned[sole.system.returned.length]?.map (·.2)

/-- A program that has the device open, its variable `key_val`, and the lines it has
printed. -/
structure Reader (Line : Type) where
  sole : Sole
  keyVal : UInt8
  printed : List Line

section

variable {Line : Type}

/-- A step of the device; a read that returns is followed by its line. -/
def Reader.device (driver : Driver) (line : UInt8 → Int → Line) (program : Reader Line)
    (event : Event Unit) : Option (Reader Line) :=
  (program.sole.step driver event).map fun next =>
    match program.sole.result next with
    | none => { program with sole := next }
    | some result =>
        let keyVal := result.store program.keyVal
        { sole := next, keyVal, printed := program.printed ++ [line keyVal result.ret] }

/-- What a step of the device adds to what has been handed over and printed. -/
inductive Told (line : UInt8 → Int → Line) (program : Reader Line) : Reader Line → Prop
  | silent {next : Reader Line} (heard : next.sole.system.heard = program.sole.system.heard)
      (keyVal : next.keyVal = program.keyVal) (printed : next.printed = program.printed) :
      Told line program next
  | one {next : Reader Line} (value : UInt8)
      (heard : next.sole.system.heard = program.sole.system.heard ++ [value])
      (keyVal : next.keyVal = value)
      (printed : next.printed = program.printed ++ [line value 1]) : Told line program next
  /-- `O_NONBLOCK`, and `ev_press` is 0. -/
  | again {next : Reader Line} (testing : program.sole.system.pc () = .testing true)
      (cleared : program.sole.system.dev.evPress = false)
      (heard : next.sole.system.heard = program.sole.system.heard)
      (keyVal : next.keyVal = program.keyVal)
      (printed : next.printed = program.printed ++ [line program.keyVal (-1)]) :
      Told line program next

/-- Where a step of its read, of one byte and with a copy that succeeds, takes the reader. -/
inductive Moved (system : System Unit) (event : Event Unit) (next : System Unit) : Prop
  | stayed (pc : next.pc () = system.pc ())
      (kept : system.dev.evPress = true → next.dev.evPress = true)
      (returned : next.returned = system.returned)
  | passed (nonblock : Bool) (testing : system.pc () = .testing nonblock)
      (pressed : event = .signal () ∨ system.dev.evPress = true)
      (copying : next.pc () = .copying)
      (returned : next.returned = system.returned)
  | copied (copying : system.pc () = .copying) (value : UInt8) (key : Nat)
      (clearing : next.pc () = .clearing value key)
      (returned : next.returned = system.returned)
  | cleared (value : UInt8) (key : Nat) (clearing : system.pc () = .clearing value key)
      (evPress : next.dev.evPress = false) (idle : next.pc () = .idle)
      (returned : next.returned = system.returned ++ [((), .one value key)])
  /-- `O_NONBLOCK`, and `ev_press` is 0. -/
  | again (testing : system.pc () = .testing true) (evPress : system.dev.evPress = false)
      (idle : next.pc () = .idle)
      (returned : next.returned = system.returned ++ [((), .eagain)])

/-- The read goes on, returns 1 or, with `O_NONBLOCK`, fails. -/
theorem Moved.returned_cases {system next : System Unit} {event : Event Unit}
    (moved : Moved system event next) :
    next.returned = system.returned ∨
      (∃ value key, next.returned = system.returned ++ [((), .one value key)]) ∨
      system.pc () = .testing true ∧ system.dev.evPress = false ∧
        next.returned = system.returned ++ [((), .eagain)] := by
  cases moved with
  | stayed _ _ returned => exact .inl returned
  | passed _ _ _ _ returned => exact .inl returned
  | copied _ _ _ _ returned => exact .inl returned
  | cleared value key _ _ _ returned => exact .inr (.inl ⟨value, key, returned⟩)
  | again testing cleared _ returned => exact .inr (.inr ⟨testing, cleared, returned⟩)

namespace Sole

variable {driver : Driver} {sole next : Sole} {event : Event Unit}

theorem moved_of_step (taken : sole.step driver event = some next)
    (called : event.inRead = true) : Moved sole.system event next.system := by
  obtain ⟨system, stepped, rfl⟩ := Option.map_eq_some_iff.mp taken
  cases event with
  | handler handler =>
      obtain ⟨dev, handled, rfl⟩ := Option.map_eq_some_iff.mp stepped
      refine .stayed rfl (fun pressed => ?_) rfl
      rcases handle_cases handled with ⟨-, set⟩ | ⟨-, same, -⟩
      · exact set
      · exact same.trans pressed
  | read pid size nonblock => contradiction
  | test pid =>
      simp only [System.step] at stepped
      split at stepped
      next nonblock testing =>
          split at stepped
          next pressed =>
              obtain rfl := Option.some.inj stepped
              exact .passed nonblock testing (.inr pressed) rfl rfl
          next cleared =>
              split at stepped
              next set =>
                  obtain rfl := Option.some.inj stepped
                  exact .again (set ▸ testing) (Bool.not_eq_true _ ▸ cleared) rfl rfl
              next =>
                  obtain rfl := Option.some.inj stepped
                  exact .stayed rfl id rfl
      next => contradiction
  | signal pid =>
      simp only [System.step] at stepped
      split at stepped
      next testing =>
          obtain rfl := Option.some.inj stepped
          exact .passed false testing (.inl rfl) rfl rfl
      next => contradiction
  | copy pid copied =>
      obtain rfl : copied = true := called
      simp only [System.step] at stepped
      split at stepped
      next copying =>
          obtain rfl := Option.some.inj stepped
          exact .copied copying _ _ rfl rfl
      next => contradiction
  | clear pid =>
      simp only [System.step] at stepped
      split at stepped
      next value key clearing =>
          obtain rfl := Option.some.inj stepped
          exact .cleared value key clearing rfl rfl rfl
      next => contradiction

/-- A read whose caller has found `ev_press` set does not sleep. -/
theorem awake_of_step (taken : sole.step driver event = some next)
    (called : event.inRead = true)
    (awake : ∀ nonblock, sole.system.pc () = .testing nonblock →
      sole.system.dev.evPress = true) (nonblock : Bool)
    (testing : next.system.pc () = .testing nonblock) : next.system.dev.evPress = true := by
  cases moved_of_step taken called with
  | stayed same kept _ => exact kept (awake nonblock (same ▸ testing))
  | passed _ _ _ copying _ => simp [copying] at testing
  | copied _ _ _ clearing _ => simp [clearing] at testing
  | cleared _ _ _ _ idle _ => simp [idle] at testing
  | again _ _ idle _ => simp [idle] at testing

/-- A step raises a key event, or leaves the events alone and does not set `ev_press`. -/
theorem raise_or_keep (taken : sole.step driver event = some next) :
    (∃ handler, event = .handler handler ∧ driver.raises sole.system.dev handler = true ∧
      next.system.dev.evPress = true ∧ next.system.pc = sole.system.pc ∧
      next.late = (sole.system.pc ()).isClearing) ∨
    ((∀ handler, event = .handler handler →
        driver.raises sole.system.dev handler = false) ∧
      next.system.raised = sole.system.raised ∧ next.late = sole.late ∧
      (next.system.dev.evPress = true → sole.system.dev.evPress = true)) := by
  obtain ⟨system, stepped, rfl⟩ := Option.map_eq_some_iff.mp taken
  have quiet (same : system.raised = sole.system.raised) (handler : Handler)
      (handled : event = .handler handler) :
      driver.raises sole.system.dev handler = false := by
    subst handled
    obtain ⟨dev, handled, rfl⟩ := Option.map_eq_some_iff.mp stepped
    by_contra raises
    simp [raises] at same
  cases System.effect_of_step stepped with
  | @raise handler _ handled raises evPress pc raised delivered =>
      refine .inl ⟨handler, rfl, raises, evPress, pc, if_neg fun same => ?_⟩
      simp [raised] at same
  | quiet evPress saved pc raised delivered =>
      exact .inr ⟨quiet raised, raised, if_pos raised, fun pressed => evPress ▸ pressed⟩
  | outside dev pc raised delivered =>
      exact .inr ⟨quiet raised, raised, if_pos raised, fun pressed => dev ▸ pressed⟩
  | pass reader passes dev pc raised delivered =>
      exact .inr ⟨quiet raised, raised, if_pos raised, fun pressed => dev ▸ pressed⟩
  | copied reader copying dev pc raised delivered =>
      exact .inr ⟨quiet raised, raised, if_pos raised, fun pressed => dev ▸ pressed⟩
  | cleared reader value event clearing dev pc raised delivered =>
      refine .inr ⟨quiet raised, raised, if_pos raised, fun pressed => ?_⟩
      simp [dev] at pressed

theorem call_orderly {nonblock : Bool} (orderly : sole.Orderly)
    (taken : sole.step driver (.read () 1 nonblock) = some next) : next.Orderly :=
  have undisturbed : sole.Undisturbed (.read () 1 nonblock) := trivial
  step_orderly driver sole _ next orderly undisturbed taken

theorem undisturbed_of_awake (taken : sole.step driver event = some next)
    (awake : ∀ nonblock, sole.system.pc () = .testing nonblock →
      sole.system.dev.evPress = true) : sole.Undisturbed event := by
  cases event with
  | signal pid =>
      obtain ⟨system, stepped, rfl⟩ := Option.map_eq_some_iff.mp taken
      simp only [System.step] at stepped
      split at stepped
      next testing => exact awake false testing
      next => contradiction
  | handler handler => trivial
  | read pid size nonblock => trivial
  | test pid => trivial
  | copy pid copied => trivial
  | clear pid => trivial

end Sole

theorem Reader.device_told {driver : Driver} {line : UInt8 → Int → Line}
    {program next : Reader Line} {event : Event Unit}
    (taken : program.device driver line event = some next) (called : event.inRead = true) :
    program.sole.step driver event = some next.sole ∧ Told line program next := by
  obtain ⟨sole, stepped, rfl⟩ := Option.map_eq_some_iff.mp taken
  rcases (Sole.moved_of_step stepped called).returned_cases with same | ⟨value, key, one⟩ |
    ⟨testing, cleared, again⟩
  · have result : program.sole.result sole = none := by simp [Sole.result, same]
    simp only [result]
    refine ⟨stepped, .silent ?_ rfl rfl⟩
    simp [System.heard, System.delivered, same]
  · have result : program.sole.result sole = some (.one value key) := by
      simp [Sole.result, one]
    simp only [result]
    refine ⟨stepped, .one value ?_ rfl rfl⟩
    simp [System.heard, System.delivered, one, ReadResult.delivery]
  · have result : program.sole.result sole = some .eagain := by simp [Sole.result, again]
    simp only [result]
    refine ⟨stepped, .again testing cleared ?_ rfl rfl⟩
    simp [System.heard, System.delivered, again, ReadResult.delivery]

/-- The call of a read. -/
theorem Reader.device_read {driver : Driver} {line : UInt8 → Int → Line}
    {program next : Reader Line} {nonblock : Bool}
    (taken : program.device driver line (.read () 1 nonblock) = some next) :
    program.sole.system.pc () = .idle ∧
      program.sole.step driver (.read () 1 nonblock) = some next.sole ∧
      next = { program with
        sole.system := program.sole.system.setPc ()
          (.testing (driver.honoursNonblock && nonblock)) } := by
  obtain ⟨sole, stepped, rfl⟩ := Option.map_eq_some_iff.mp taken
  obtain ⟨system, called, rfl⟩ := Option.map_eq_some_iff.mp stepped
  simp only [System.step] at called
  split at called
  next idle =>
      obtain rfl := Option.some.inj called
      have result (late : Bool) : program.sole.result ⟨program.sole.system.setPc ()
          (.testing (driver.honoursNonblock && nonblock)), late⟩ = none := by
        simp [Sole.result, System.setPc]
      simp only [result]
      refine ⟨idle, stepped, ?_⟩
      simp [System.setPc]
  next => contradiction

end

/-! ## `forthdrvtest.c` -/

/-- The events of `poll`, as `asm-generic/poll.h` has them. -/
def POLLIN : UInt32 := 0x1
def POLLERR : UInt32 := 0x8
def POLLHUP : UInt32 := 0x10
def POLLRDNORM : UInt32 := 0x40

/-- `forth_drv_poll`. -/
def Dev.forthDrvPoll (dev : Dev) : UInt32 :=
  let mask := 0
  if dev.evPress then mask ||| (POLLIN ||| POLLRDNORM) else mask

/-- The system call counts a file when the driver reports something that was asked for. -/
def Dev.poll (dev : Dev) (events : UInt32) : Nat :=
  if dev.forthDrvPoll &&& (events ||| POLLERR ||| POLLHUP) ≠ 0 then 1 else 0

theorem Dev.poll_eq_zero {dev : Dev} : dev.poll POLLIN = 0 ↔ dev.evPress = false := by
  cases pressed : dev.evPress with
  | false =>
      simp [poll, forthDrvPoll, pressed]
  | true =>
      have reported :
          (0 ||| (POLLIN ||| POLLRDNORM)) &&& (POLLIN ||| POLLERR ||| POLLHUP) ≠ 0 := by
        decide
      simp only [poll, forthDrvPoll, pressed, if_true, if_pos reported]
      simp

namespace Forthdrvtest

/-- What the program prints: `time out`, or a key. -/
inductive Line where
  | timeOut
  | keyVal (value : UInt8)
  deriving DecidableEq, Repr

/-- The key of a line. -/
def Line.value : Line → Option UInt8
  | .timeOut => none
  | .keyVal value => some value

/-- A step of the device, or of the loop of `main`. -/
inductive Label where
  /-- A handler, or a step of the read that is going on. -/
  | device (event : Event Unit)
  /-- The system call asks the driver, which happens at its start, after each wake-up and when
  the time is over. -/
  | poll
  | timeOut

/-- The line that follows a read, whatever it returned. -/
def printed (keyVal : UInt8) (_ : Int) : Line := .keyVal keyVal

/-- `main` after `open`: it polls, and reads when something is there. -/
def step : Step (Reader Line) Label
  | program, .device event =>
      if event.inRead then program.device .forthDrv printed event else none
  | program, .poll =>
      if program.sole.system.pc () = .idle then
        if program.sole.system.dev.poll POLLIN = 0 then some program
        else program.device .forthDrv printed (.read () 1 false)
      else none
  | program, .timeOut =>
      if program.sole.system.pc () = .idle ∧ program.sole.system.dev.poll POLLIN = 0 then
        some { program with printed := program.printed ++ [.timeOut] }
      else none

/-- `main` has opened the device; `key_val` holds anything. -/
def initial (keyVal : UInt8) : Reader Line := ⟨.initial, keyVal, []⟩

/-- What holds before each step: the keys printed, in their order, are values of distinct key
events, a read that has been called does not sleep, and while nothing is there to be read, the
latest key has been printed, unless its event was raised between the copy and the clearing of
a read. -/
structure Reports (program : Reader Line) : Prop where
  keys : (program.printed.filterMap Line.value).Sublist program.sole.system.raised
  awake : ∀ nonblock, program.sole.system.pc () = .testing nonblock →
    program.sole.system.dev.evPress = true
  latest : program.sole.system.dev.poll POLLIN = 0 → program.sole.late = true ∨
    (program.printed.filterMap Line.value).getLast? = program.sole.system.raised.getLast?

/-- The invariant behind the reports. -/
structure Kept (program : Reader Line) : Prop where
  orderly : program.sole.Orderly
  keys : program.printed.filterMap Line.value = program.sole.system.heard
  awake : ∀ nonblock, program.sole.system.pc () = .testing nonblock →
    program.sole.system.dev.evPress = true

theorem Kept.reports {program : Reader Line} (kept : Kept program) : Reports program := by
  refine ⟨?_, kept.awake, ?_⟩
  · rw [kept.keys]
    exact kept.orderly.sublist
  · intro nothing
    rw [kept.keys]
    exact kept.orderly.latest (Dev.poll_eq_zero.mp nothing)

theorem Kept.device {program next : Reader Line} {event : Event Unit} (kept : Kept program)
    (taken : program.device .forthDrv printed event = some next)
    (called : event.inRead = true) : Kept next := by
  obtain ⟨stepped, told⟩ := Reader.device_told taken called
  have undisturbed := Sole.undisturbed_of_awake stepped kept.awake
  refine ⟨Sole.step_orderly .forthDrv _ _ _ kept.orderly undisturbed stepped, ?_,
    Sole.awake_of_step stepped called kept.awake⟩
  cases told with
  | silent heard keyVal printed => rw [printed, heard, kept.keys]
  | one value heard keyVal printed =>
      rw [printed, heard, List.filterMap_append, kept.keys]
      rfl
  | again testing cleared heard keyVal printed =>
      have pressed := kept.awake true testing
      rw [cleared] at pressed
      contradiction

theorem step_kept : step.Preserves (fun _ _ => True) Kept := by
  intro program label next kept _ taken
  cases label with
  | device event =>
      simp only [step] at taken
      split at taken
      next called => exact kept.device taken called
      next => contradiction
  | poll =>
      simp only [step] at taken
      split at taken
      next =>
          split at taken
          next =>
              obtain rfl := Option.some.inj taken
              exact kept
          next something =>
              obtain ⟨-, stepped, rfl⟩ := Reader.device_read taken
              have pressed : program.sole.system.dev.evPress = true := by
                simpa using mt Dev.poll_eq_zero.mpr something
              exact ⟨Sole.call_orderly kept.orderly stepped, kept.keys, fun _ _ => pressed⟩
      next => contradiction
  | timeOut =>
      simp only [step] at taken
      split at taken
      next =>
          obtain rfl := Option.some.inj taken
          refine ⟨kept.orderly, ?_, kept.awake⟩
          rw [List.filterMap_append, kept.keys]
          exact List.append_nil _
      next => contradiction

theorem initial_kept (keyVal : UInt8) : Kept (initial keyVal) :=
  ⟨Sole.initial_orderly, rfl, fun _ testing => by contradiction⟩

end Forthdrvtest

/-- `forthdrvtest.c` on `forth_drv.c`, for every order of its own steps, the interrupts and
the signals: it prints the values of distinct key events in their order, no read of its own
sleeps or is broken off, and whenever `poll` can report that the time is over, the latest key
has been printed, unless its event was raised between the copy and the clearing of a read. -/
theorem forthdrvtest_reports (keyVal : UInt8) (labels : List Forthdrvtest.Label) :
    Forthdrvtest.step.Along (fun program _ => Forthdrvtest.Reports program)
      (Forthdrvtest.initial keyVal) labels := by
  refine Forthdrvtest.step_kept.strengthen ?_ (Forthdrvtest.initial_kept keyVal)
    (Step.along_of_splits fun _ _ _ _ _ _ => trivial)
  exact fun _ _ kept _ => kept.reports

/-! ## `signal_test.c` -/

namespace SignalTest

/-- The program, how many key events were raised when it set `FASYNC`, and whether `SIGIO` is
pending.  While its handler runs the signal is blocked. -/
structure State where
  reader : Reader UInt8
  fasync : Option Nat
  sigio : Bool

/-- A step of the device, of `main`, or of the signal. -/
inductive Label where
  /-- A handler of the driver, or a step of the read that is going on. -/
  | device (event : Event Unit)
  /-- `fcntl(fd, F_SETFL, Oflags | FASYNC)`, which calls `fifth_drv_fasync`. -/
  | setfl
  /-- `SIGIO` is delivered to `signal_fun`, which reads. -/
  | deliver

/-- The line that follows a read, whatever it returned. -/
def printed (keyVal : UInt8) (_ : Int) : UInt8 := keyVal

/-- `kill_fasync` stands behind the setting of `ev_press`. -/
def State.kill (program : State) : Event Unit → Bool
  | .handler handler =>
      program.sigio || (program.fasync.isSome &&
        Driver.fifthDrv.raises program.reader.sole.system.dev handler)
  | .read .. | .test _ | .signal _ | .copy .. | .clear _ => program.sigio

/-- `main` sleeps after `fcntl`, and `signal_fun` reads for each `SIGIO`. -/
def step : Step State Label
  | program, .device event =>
      if event.inRead then
        (program.reader.device .fifthDrv printed event).map fun reader =>
          { program with reader, sigio := program.kill event }
      else none
  | program, .setfl =>
      match program.fasync with
      | none => some { program with fasync := some program.reader.sole.system.raised.length }
      | some _ => none
  | program, .deliver =>
      if program.sigio = true ∧ program.reader.sole.system.pc () = .idle then
        (program.reader.device .fifthDrv printed (.read () 1 false)).map fun reader =>
          { program with reader, sigio := false }
      else none

/-- `main` has opened the device and installed `signal_fun`. -/
def initial (keyVal : UInt8) : State := ⟨⟨.initial, keyVal, []⟩, none, false⟩

/-- Only `SIGIO` comes while a read sleeps. -/
def Undisturbed (program : State) : Label → Prop
  | .device event => program.reader.sole.Undisturbed event
  | .setfl | .deliver => True

/-- What holds before each step: the keys printed, in their order, are values of distinct key
events; and no wake-up is lost, for while `main` sleeps with no `SIGIO` pending the latest key
has been printed, or no key event was raised since `FASYNC` was set.  While the read of
`signal_fun` sleeps, the latest key has been printed or its event came late. -/
structure Reports (program : State) : Prop where
  keys : program.reader.printed.Sublist program.reader.sole.system.raised
  woken : ∀ since, program.fasync = some since → program.reader.sole.system.pc () = .idle →
    program.sigio = false → program.reader.sole.system.raised.length = since ∨
      program.reader.printed.getLast? = program.reader.sole.system.raised.getLast?
  asleep : program.reader.sole.system.dev.evPress = false → program.reader.sole.late = true ∨
    program.reader.printed.getLast? = program.reader.sole.system.raised.getLast?

/-- The invariant behind the reports. -/
structure Kept (program : State) : Prop where
  orderly : program.reader.sole.Orderly
  keys : program.reader.printed = program.reader.sole.system.heard
  blocking : program.reader.sole.system.pc () ≠ .testing true
  reading : program.sigio = true ∨ program.reader.sole.system.pc () ≠ .idle →
    program.fasync.isSome = true
  woken : ∀ since, program.fasync = some since → program.reader.sole.system.pc () = .idle →
    program.sigio = false → program.reader.sole.system.dev.evPress = true →
      program.reader.sole.system.raised.length = since
  late : program.reader.sole.late = true → match program.reader.sole.system.pc () with
    | .idle => program.sigio = true ∧ program.reader.sole.system.dev.evPress = false
    | .testing _ => program.reader.sole.system.dev.evPress = false
    | .clearing .. => program.sigio = true
    | .copying => False

theorem Kept.reports {program : State} (kept : Kept program) : Reports program := by
  have asleep (cleared : program.reader.sole.system.dev.evPress = false) :
      program.reader.sole.late = true ∨
        program.reader.printed.getLast? = program.reader.sole.system.raised.getLast? := by
    rw [kept.keys]
    exact kept.orderly.latest cleared
  refine ⟨?_, ?_, asleep⟩
  · rw [kept.keys]
    exact kept.orderly.sublist
  · intro since set idle none_pending
    cases pressed : program.reader.sole.system.dev.evPress with
    | true => exact .inl (kept.woken since set idle none_pending pressed)
    | false =>
        refine .inr ((asleep pressed).resolve_left fun late => ?_)
        have pending := kept.late late
        rw [idle] at pending
        simp [none_pending] at pending

theorem initial_kept (keyVal : UInt8) : Kept (initial keyVal) := by
  refine ⟨Sole.initial_orderly, rfl, ?_, ?_, ?_, ?_⟩ <;>
    simp [initial, Sole.initial, System.initial]

theorem State.kill_of_raises {program : State} {handler : Handler}
    (raises : Driver.fifthDrv.raises program.reader.sole.system.dev handler = true)
    (set : program.fasync.isSome = true) : program.kill (.handler handler) = true := by
  simp [kill, raises, set]

theorem State.kill_eq {program : State} {event : Event Unit}
    (quiet : ∀ handler, event = .handler handler →
      Driver.fifthDrv.raises program.reader.sole.system.dev handler = false) :
    program.kill event = program.sigio := by
  cases event with
  | handler handler => simp [kill, quiet handler rfl]
  | read pid size nonblock => rfl
  | test pid => rfl
  | signal pid => rfl
  | copy pid copied => rfl
  | clear pid => rfl

section

variable {program : State} {reader : Reader UInt8}

/-- A key event is raised: the signal is sent. -/
theorem Kept.raised (kept : Kept program) {handler : Handler}
    (raises : Driver.fifthDrv.raises program.reader.sole.system.dev handler = true)
    (orderly : reader.sole.Orderly) (keys : reader.printed = reader.sole.system.heard)
    (pc : reader.sole.system.pc = program.reader.sole.system.pc)
    (late : reader.sole.late = (program.reader.sole.system.pc ()).isClearing) :
    Kept { program with reader, sigio := program.kill (.handler handler) } := by
  refine ⟨orderly, keys, pc ▸ kept.blocking, ?_, ?_, ?_⟩
  · rintro (pending | reading)
    · simp only [State.kill, Bool.or_eq_true, Bool.and_eq_true] at pending
      exact pending.elim (fun before => kept.reading (.inl before)) And.left
    · exact kept.reading (.inr (pc ▸ reading))
  · intro since set _ none_pending
    have pending := State.kill_of_raises raises (Option.isSome_of_mem set)
    rw [pending] at none_pending
    contradiction
  · intro isLate
    rw [late] at isLate
    cases place : program.reader.sole.system.pc () with
    | clearing value key =>
        have reading := kept.reading (.inr (by simp [place]))
        simpa only [pc, place] using State.kill_of_raises raises reading
    | idle => simp [place, Pc.isClearing] at isLate
    | testing nonblock => simp [place, Pc.isClearing] at isLate
    | copying => simp [place, Pc.isClearing] at isLate

/-- The read goes on, or nothing happens to it. -/
theorem Kept.moved (kept : Kept program) {event : Event Unit}
    (undisturbed : program.reader.sole.Undisturbed event)
    (moved : Moved program.reader.sole.system event reader.sole.system)
    (orderly : reader.sole.Orderly) (keys : reader.printed = reader.sole.system.heard)
    (raised : reader.sole.system.raised = program.reader.sole.system.raised)
    (late : reader.sole.late = program.reader.sole.late)
    (evPress : reader.sole.system.dev.evPress = true →
      program.reader.sole.system.dev.evPress = true) :
    Kept { program with reader } := by
  have cleared (before : program.reader.sole.system.dev.evPress = false) :
      reader.sole.system.dev.evPress = false := by
    by_contra set
    have set' := evPress (Bool.not_eq_false _ ▸ set)
    rw [before] at set'
    contradiction
  cases moved with
  | stayed same pressed _ =>
      refine ⟨orderly, keys, same ▸ kept.blocking, same ▸ kept.reading, ?_, ?_⟩
      · intro since set idle none_pending set'
        rw [raised]
        exact kept.woken since set (same ▸ idle) none_pending (evPress set')
      · intro isLate
        have before := kept.late (late ▸ isLate)
        simp only [same]
        cases place : program.reader.sole.system.pc () with
        | idle =>
            simp only [place] at before
            exact ⟨before.1, cleared before.2⟩
        | testing nonblock =>
            simp only [place] at before
            exact cleared before
        | clearing value key => simpa only [place] using before
        | copying => simp [place] at before
  | passed nonblock testing pressed copying _ =>
      refine ⟨orderly, keys, by simp [copying],
        fun _ => kept.reading (.inr (by simp [testing])),
        fun _ _ idle => by simp [copying] at idle, fun isLate => ?_⟩
      have before := kept.late (late ▸ isLate)
      simp only [testing] at before
      rcases pressed with rfl | pressed
      · have set : program.reader.sole.system.dev.evPress = true := undisturbed
        rw [before] at set
        contradiction
      · rw [before] at pressed
        contradiction
  | copied copying value key clearing _ =>
      refine ⟨orderly, keys, by simp [clearing],
        fun _ => kept.reading (.inr (by simp [copying])),
        fun _ _ idle => by simp [clearing] at idle, fun isLate => ?_⟩
      have before := kept.late (late ▸ isLate)
      simp [copying] at before
  | cleared value key clearing off idle _ =>
      refine ⟨orderly, keys, by simp [idle],
        fun _ => kept.reading (.inr (by simp [clearing])), ?_, ?_⟩
      · intro _ _ _ _ pressed
        rw [off] at pressed
        contradiction
      · intro isLate
        have before := kept.late (late ▸ isLate)
        simp only [clearing] at before
        simp only [idle]
        exact ⟨before, off⟩
  | again testing _ _ _ => exact absurd testing kept.blocking

theorem Kept.device (kept : Kept program) {event : Event Unit}
    (undisturbed : program.reader.sole.Undisturbed event) (called : event.inRead = true)
    (taken : program.reader.device .fifthDrv printed event = some reader) :
    Kept { program with reader, sigio := program.kill event } := by
  obtain ⟨stepped, told⟩ := Reader.device_told taken called
  have orderly := Sole.step_orderly .fifthDrv _ _ _ kept.orderly undisturbed stepped
  have keys : reader.printed = reader.sole.system.heard := by
    cases told with
    | silent heard keyVal printed => rw [printed, heard, kept.keys]
    | one value heard keyVal printed => rw [printed, heard, kept.keys]; rfl
    | again testing cleared heard keyVal printed => exact absurd testing kept.blocking
  rcases Sole.raise_or_keep stepped with
    ⟨handler, rfl, raises, -, pc, late⟩ | ⟨quiet, raised, late, evPress⟩
  · exact kept.raised raises orderly keys pc late
  · rw [State.kill_eq quiet]
    exact kept.moved undisturbed (Sole.moved_of_step stepped called) orderly keys raised late
      evPress

end

theorem step_kept : step.Preserves Undisturbed Kept := by
  intro program label next kept undisturbed taken
  cases label with
  | device event =>
      simp only [step] at taken
      split at taken
      next called =>
          obtain ⟨reader, stepped, rfl⟩ := Option.map_eq_some_iff.mp taken
          exact kept.device undisturbed called stepped
      next => contradiction
  | setfl =>
      simp only [step] at taken
      split at taken
      next unset =>
          obtain rfl := Option.some.inj taken
          refine ⟨kept.orderly, kept.keys, kept.blocking, fun _ => rfl, ?_, kept.late⟩
          intro since set _ _ _
          exact Option.some.inj set
      next => contradiction
  | deliver =>
      simp only [step] at taken
      split at taken
      next ready =>
          obtain ⟨reader, stepped, rfl⟩ := Option.map_eq_some_iff.mp taken
          obtain ⟨idle, stepped, rfl⟩ := Reader.device_read stepped
          refine ⟨Sole.call_orderly kept.orderly stepped, kept.keys, ?_,
            fun _ => kept.reading (.inl ready.1), ?_, fun isLate => ?_⟩
          · simp [System.setPc, Driver.honoursNonblock]
          · intro _ _ idle'
            simp [System.setPc] at idle'
          · have before := kept.late isLate
            simp only [idle] at before
            simpa [System.setPc] using before.2
      next => contradiction

end SignalTest

/-- `signal_test.c` on `asyn.c`, for every order of its own steps and the interrupts, with no
signal but `SIGIO` that breaks the sleep of a read: it prints the values of distinct key
events in their order, and no event that is raised once `FASYNC` is set is left without being
printed or overwritten by one that is, except one that comes between the copy and the clearing
of a read, and that only until the next. -/
theorem signalTest_reports (keyVal : UInt8) (labels : List SignalTest.Label)
    (undisturbed : SignalTest.step.Along SignalTest.Undisturbed (SignalTest.initial keyVal)
      labels) :
    SignalTest.step.Along (fun program _ => SignalTest.Reports program)
      (SignalTest.initial keyVal) labels :=
  SignalTest.step_kept.strengthen (fun _ _ kept _ => kept.reports)
    (SignalTest.initial_kept keyVal) undisturbed

/-- One press of K1 after `FASYNC` is set, and one run of `signal_fun`. -/
def pressAndSignal : List SignalTest.Label :=
  [.setfl, .device (.handler (.irq ⟨0, Nat.succ_pos 5⟩ fun _ => false)), .deliver,
    .device (.test ()), .device (.copy () true), .device (.clear ())]

theorem pressAndSignal_reports :
    SignalTest.step.Along (fun program _ => SignalTest.Reports program)
      (SignalTest.initial 0) pressAndSignal := by
  refine signalTest_reports 0 pressAndSignal ?_
  exact ⟨trivial, trivial, trivial, trivial, trivial, trivial, trivial⟩

/-! ## The loops -/

namespace Loop

/-- A step of the device, or the next read of the loop. -/
inductive Label where
  /-- A handler of the driver, or a step of the read that is going on. -/
  | device (event : Event Unit)
  | read

/-- The body of the loops; each line has the key and what `read` returned. -/
def step (driver : Driver) (nonblock : Bool) : Step (Reader (UInt8 × Int)) Label
  | program, .device event =>
      if event.inRead then program.device driver Prod.mk event else none
  | program, .read => program.device driver Prod.mk (.read () 1 nonblock)

/-- `thirddrvtest.c`, which does not print what `read` returned. -/
def thirddrvtest : Step (Reader (UInt8 × Int)) Label := step .thirdDrv false

/-- `sixthdrvtest.c`, which opens with `O_NONBLOCK`. -/
def sixthdrvtest : Step (Reader (UInt8 × Int)) Label := step .sixthDrv true

/-- `buttonsdrvtest.c`. -/
def buttonsdrvtest : Step (Reader (UInt8 × Int)) Label := step .buttonsAll false

/-- The device is open, and `key_val` holds anything. -/
def initial (keyVal : UInt8) : Reader (UInt8 × Int) := ⟨.initial, keyVal, []⟩

/-- No signal comes while a read sleeps. -/
def Undisturbed (program : Reader (UInt8 × Int)) : Label → Prop
  | .device event => program.sole.Undisturbed event
  | .read => True

/-- The keys of the lines whose read returned 1. -/
def keys (printed : List (UInt8 × Int)) : List UInt8 :=
  (printed.filter (·.2 = 1)).map (·.1)

/-- The key that the lines so far leave in the variable. -/
def shown (keyVal : UInt8) (printed : List (UInt8 × Int)) : UInt8 :=
  (printed.map (·.1)).getLast?.getD keyVal

/-- What holds before each step: the keys printed with 1, in their order, are values of
distinct key events, every other line has -1, the key of the line before it, and comes with
`O_NONBLOCK` only, and with `ev_press` 0 the latest key has been printed or its event came
late. -/
structure Reports (nonblock : Bool) (keyVal : UInt8) (program : Reader (UInt8 × Int)) :
    Prop where
  keys : (keys program.printed).Sublist program.sole.system.raised
  lines : History.Throughout
    (fun before line => line.2 = 1 ∨
      nonblock = true ∧ line = (shown keyVal before, -1)) program.printed
  latest : program.sole.system.dev.evPress = false → program.sole.late = true ∨
    (Loop.keys program.printed).getLast? = program.sole.system.raised.getLast?

/-- The invariant behind the reports. -/
structure Kept (nonblock : Bool) (keyVal : UInt8) (program : Reader (UInt8 × Int)) :
    Prop where
  orderly : program.sole.Orderly
  keys : Loop.keys program.printed = program.sole.system.heard
  variable_eq : program.keyVal = shown keyVal program.printed
  lines : History.Throughout
    (fun before line => line.2 = 1 ∨
      nonblock = true ∧ line = (shown keyVal before, -1)) program.printed
  blocking : program.sole.system.pc () = .testing true → nonblock = true

variable {driver : Driver} {nonblock : Bool} {keyVal : UInt8}

theorem keys_concat (printed : List (UInt8 × Int)) (line : UInt8 × Int) :
    keys (printed ++ [line]) = keys printed ++ if line.2 = 1 then [line.1] else [] := by
  by_cases returned : line.2 = 1 <;> simp [keys, returned]

theorem shown_concat (printed : List (UInt8 × Int)) (line : UInt8 × Int) :
    shown keyVal (printed ++ [line]) = line.1 := by
  simp [shown]

theorem Kept.reports {program : Reader (UInt8 × Int)} (kept : Kept nonblock keyVal program) :
    Reports nonblock keyVal program := by
  refine ⟨?_, kept.lines, ?_⟩
  · rw [kept.keys]
    exact kept.orderly.sublist
  · rw [kept.keys]
    exact kept.orderly.latest

theorem initial_kept : Kept nonblock keyVal (initial keyVal) :=
  ⟨Sole.initial_orderly, rfl, rfl, History.throughout_nil _, fun testing => by contradiction⟩

theorem Kept.device {program next : Reader (UInt8 × Int)} {event : Event Unit}
    (kept : Kept nonblock keyVal program)
    (undisturbed : program.sole.Undisturbed event) (called : event.inRead = true)
    (taken : program.device driver Prod.mk event = some next) : Kept nonblock keyVal next := by
  obtain ⟨stepped, told⟩ := Reader.device_told taken called
  have orderly := Sole.step_orderly driver _ _ _ kept.orderly undisturbed stepped
  have blocking (testing : next.sole.system.pc () = .testing true) : nonblock = true := by
    cases Sole.moved_of_step stepped called with
    | stayed same pressed _ => exact kept.blocking (same ▸ testing)
    | passed _ _ _ copying _ => simp [copying] at testing
    | copied _ _ _ clearing _ => simp [clearing] at testing
    | cleared _ _ _ _ idle _ => simp [idle] at testing
    | again _ _ idle _ => simp [idle] at testing
  cases told with
  | silent heard same printed =>
      refine ⟨orderly, ?_, ?_, ?_, blocking⟩
      · rw [printed, heard, kept.keys]
      · rw [printed, same, kept.variable_eq]
      · rw [printed]
        exact kept.lines
  | one value heard same printed =>
      refine ⟨orderly, ?_, ?_, ?_, blocking⟩
      · rw [printed, heard, keys_concat, if_pos rfl, kept.keys]
      · rw [printed, same, shown_concat]
      · rw [printed]
        exact History.throughout_concat kept.lines (.inl rfl)
  | again testing cleared heard same printed =>
      refine ⟨orderly, ?_, ?_, ?_, blocking⟩
      · rw [printed, heard, keys_concat, if_neg (by simp), List.append_nil, kept.keys]
      · rw [printed, same, shown_concat]
      · rw [printed]
        refine History.throughout_concat kept.lines (.inr ⟨kept.blocking testing, ?_⟩)
        rw [kept.variable_eq]

theorem step_kept : (step driver nonblock).Preserves Undisturbed (Kept nonblock keyVal) := by
  intro program label next kept undisturbed taken
  cases label with
  | device event =>
      simp only [step] at taken
      split at taken
      next called => exact kept.device undisturbed called taken
      next => contradiction
  | read =>
      obtain ⟨-, stepped, rfl⟩ := Reader.device_read taken
      refine ⟨Sole.call_orderly kept.orderly stepped, kept.keys, kept.variable_eq, kept.lines,
        ?_⟩
      intro testing
      have set : driver.honoursNonblock && nonblock := by simpa [System.setPc] using testing
      exact (Bool.and_eq_true_iff.mp set).2

theorem reports_along (labels : List Label)
    (undisturbed : (step driver nonblock).Along Undisturbed (initial keyVal) labels) :
    (step driver nonblock).Along (fun program _ => Reports nonblock keyVal program)
      (initial keyVal) labels :=
  step_kept.strengthen (fun _ _ kept _ => kept.reports) initial_kept undisturbed

end Loop

/-- The three loops, for every order of their steps and the handlers in which no signal breaks
the sleep of a read: the lines whose read returned 1 have the values of distinct key events in
their order.  With `O_NONBLOCK`, the other lines show the key of the line before them. -/
theorem loops_report (keyVal : UInt8) (labels : List Loop.Label) :
    (Loop.thirddrvtest.Along Loop.Undisturbed (Loop.initial keyVal) labels →
      Loop.thirddrvtest.Along (fun program _ => Loop.Reports false keyVal program)
        (Loop.initial keyVal) labels) ∧
    (Loop.sixthdrvtest.Along Loop.Undisturbed (Loop.initial keyVal) labels →
      Loop.sixthdrvtest.Along (fun program _ => Loop.Reports true keyVal program)
        (Loop.initial keyVal) labels) ∧
    (Loop.buttonsdrvtest.Along Loop.Undisturbed (Loop.initial keyVal) labels →
      Loop.buttonsdrvtest.Along (fun program _ => Loop.Reports false keyVal program)
        (Loop.initial keyVal) labels) :=
  ⟨Loop.reports_along labels, Loop.reports_along labels, Loop.reports_along labels⟩

/-- The read of one key. -/
def readKey : List Loop.Label :=
  [.read, .device (.test ()), .device (.copy () true), .device (.clear ())]

/-- One press of K1, and where the driver has a timer its run. -/
def pressThenRead (timer : List Loop.Label) : List Loop.Label :=
  .device (.handler (.irq ⟨0, Nat.succ_pos 5⟩ fun _ => false)) :: timer ++ readKey

theorem pressThenRead_reports :
    Loop.thirddrvtest.Along (fun program _ => Loop.Reports false 0 program) (Loop.initial 0)
      (pressThenRead []) ∧
    Loop.sixthdrvtest.Along (fun program _ => Loop.Reports true 0 program) (Loop.initial 0)
      (pressThenRead []) ∧
    Loop.buttonsdrvtest.Along (fun program _ => Loop.Reports false 0 program) (Loop.initial 0)
      (pressThenRead [.device (.handler (.expire fun _ => false))]) := by
  refine ⟨(loops_report 0 _).1 ?_, (loops_report 0 _).2.1 ?_, (loops_report 0 _).2.2 ?_⟩
  · exact ⟨trivial, trivial, trivial, trivial, trivial, trivial⟩
  · exact ⟨trivial, trivial, trivial, trivial, trivial, trivial⟩
  · exact ⟨trivial, trivial, trivial, trivial, trivial, trivial, trivial⟩

end Mini2440.Buttons.CharDev
