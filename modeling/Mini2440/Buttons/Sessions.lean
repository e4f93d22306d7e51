import Mini2440.Buttons.Delivery
import Mathlib.Data.Finset.Erase
import Mathlib.Data.Finset.Insert

/-!
# Sessions of the button device

`buttons_all.c` from one open to the next.  The static variables and the pending timer
outlive `sixth_drv_close`, so a session may start with a key event that was raised before
it, or with a timer that is going to raise one.  Two runs with different histories are
compared: the results say on which histories the reads and polls of a session depend on
nothing but the session.
-/

namespace Mini2440.Buttons.Sessions

open Transition CharDev

/-- What `poll` reports of a file that can be read. -/
def POLLIN : UInt32 := 0x0001
def POLLRDNORM : UInt32 := 0x0040

/-- `sixth_drv_poll`: the mask. -/
def sixthDrvPoll (dev : Dev) : UInt32 :=
  let mask : UInt32 := 0
  if dev.evPress then mask ||| (POLLIN ||| POLLRDNORM) else mask

/-- The device with its readers, the masks that the polls of the session have returned, the
processes that are inside a read, whether the file is open, and the keys whose interrupts
were taken since the open. -/
structure Device (Pid : Type*) where
  system : System Pid
  polls : List UInt32
  readers : Finset Pid
  isOpen : Bool
  irqs : List (Fin 6)

/-- What happens during the session that is looked at; a read takes its steps as in
`CharDev`, and no signal breaks its sleep. -/
inductive SessionEvent (Pid : Type*) where
  | irq (devId : Fin 6) (level : Fin 6 → Bool)
  | expire (level : Fin 6 → Bool)
  | read (pid : Pid) (size : Nat) (nonblock : Bool)
  | test (pid : Pid)
  | copy (pid : Pid) (copied : Bool)
  | clear (pid : Pid)
  | poll

/-- The key of an interrupt. -/
def SessionEvent.devId {Pid : Type*} : SessionEvent Pid → Option (Fin 6)
  | .irq devId _ => some devId
  | .expire _ | .read .. | .test _ | .copy .. | .clear _ | .poll => none

/-- In an earlier session a read may also be broken by a signal. -/
inductive DeviceEvent (Pid : Type*) where
  | openFile
  | session (event : SessionEvent Pid)
  | signal (pid : Pid)
  | closeFile

variable {Pid : Type*} [DecidableEq Pid]

namespace Device

/-- The module is loaded. -/
def loaded : Device Pid := ⟨.initial, [], ∅, false, []⟩

/-- A step of a read, while the file is open. -/
def readStep (device : Device Pid) (pid : Pid) (event : Event Pid) : Option (Device Pid) :=
  if device.isOpen then
    (System.step .buttonsAll device.system event).map fun system =>
      { device with
        system := system
        readers :=
          if system.pc pid = .idle then device.readers.erase pid
          else insert pid device.readers }
  else
    none

/-- The interrupts are registered while the file is open, the timer runs at any time. -/
def sessionStep : Step (Device Pid) (SessionEvent Pid)
  | device, .irq devId level =>
      if device.isOpen then
        (System.step .buttonsAll device.system (.handler (.irq devId level))).map
          fun system => { device with system := system, irqs := device.irqs ++ [devId] }
      else
        none
  | device, .expire level =>
      (System.step .buttonsAll device.system (.handler (.expire level))).map
        fun system => { device with system := system }
  | device, .read pid size nonblock => device.readStep pid (.read pid size nonblock)
  | device, .test pid => device.readStep pid (.test pid)
  | device, .copy pid copied => device.readStep pid (.copy pid copied)
  | device, .clear pid => device.readStep pid (.clear pid)
  | device, .poll =>
      if device.isOpen then
        some { device with polls := device.polls ++ [sixthDrvPoll device.system.dev] }
      else
        none

/-- A successful open; nothing is recorded yet of the session. -/
def openFile (device : Device Pid) : Device Pid where
  system := ⟨device.system.dev, fun _ => .idle, [], []⟩
  polls := []
  readers := ∅
  isOpen := true
  irqs := []

/-- One process has the file open, and closes it when no read is going on.  Close gives the
semaphore and the interrupts back, and leaves the variables and the timer alone. -/
def step : Step (Device Pid) (DeviceEvent Pid)
  | device, .openFile => if device.isOpen then none else some device.openFile
  | device, .session event => device.sessionStep event
  | device, .signal pid => device.readStep pid (.signal pid)
  | device, .closeFile =>
      if device.isOpen ∧ device.readers = ∅ then some { device with isOpen := false }
      else none

/-- What the session has returned so far: the reads with their values, and the polls. -/
def results (device : Device Pid) : List (Pid × ReadResult) × List UInt32 :=
  (device.system.returned, device.polls)

/-- No key event of an earlier session is waiting, and no interrupt of one has a timer that
is still to raise it. -/
def CleanOpen (device : Device Pid) : Prop :=
  device.system.dev.evPress = false ∧
    (device.system.dev.timer = true → device.system.dev.irqPd = none)

end Device

/-- The events of a session without the expiries of a timer that was armed before it: those
that come before its first key interrupt. -/
def withoutOldExpiries : List (SessionEvent Pid) → List (SessionEvent Pid)
  | [] => []
  | .irq devId level :: rest => .irq devId level :: rest
  | .expire _ :: rest => withoutOldExpiries rest
  | .read pid size nonblock :: rest => .read pid size nonblock :: withoutOldExpiries rest
  | .test pid :: rest => .test pid :: withoutOldExpiries rest
  | .copy pid copied :: rest => .copy pid copied :: withoutOldExpiries rest
  | .clear pid :: rest => .clear pid :: withoutOldExpiries rest
  | .poll :: rest => .poll :: withoutOldExpiries rest

/-! ## Values of keys -/

/-- The value is one of a key whose interrupt was taken. -/
def FromKey (irqs : List (Fin 6)) (value : UInt8) : Prop :=
  ∃ devId ∈ irqs, ∃ high, value = keyValue devId high

theorem FromKey.append {irqs : List (Fin 6)} {value : UInt8} (fromKey : FromKey irqs value)
    (more : List (Fin 6)) : FromKey (irqs ++ more) value := by
  obtain ⟨devId, taken, high, value_eq⟩ := fromKey
  exact ⟨devId, List.mem_append_left more taken, high, value_eq⟩

/-- Every value that a read of the session has returned comes from a key interrupt of the
session. -/
def Device.ReadsOwnKeys (device : Device Pid) : Prop :=
  ∀ entry ∈ device.system.delivered, FromKey device.irqs entry.1

/-! ## The handlers -/

theorem step_irq (system : System Pid) (devId : Fin 6) (level : Fin 6 → Bool) :
    System.step .buttonsAll system (.handler (.irq devId level)) =
      some { system with dev := { system.dev with irqPd := some devId, timer := true } } := by
  have quiet : Driver.raises .buttonsAll system.dev (.irq devId level) = false := rfl
  simp only [System.step, quiet]
  rfl

/-- A timer that no interrupt has armed. -/
theorem step_expire_unarmed {system : System Pid} (pending : system.dev.timer = true)
    (unarmed : system.dev.irqPd = none) (level : Fin 6 → Bool) :
    System.step .buttonsAll system (.handler (.expire level)) =
      some { system with dev := { system.dev with timer := false } } := by
  have quiet : Driver.raises .buttonsAll system.dev (.expire level) = false := by
    simp [Driver.raises, Driver.handle, pending, Dev.buttonsTimeroutFunction, unarmed]
  simp [System.step, quiet, Driver.handle, pending, Dev.buttonsTimeroutFunction, unarmed]

theorem step_expire_armed {system : System Pid} {devId : Fin 6}
    (pending : system.dev.timer = true) (armed : system.dev.irqPd = some devId)
    (level : Fin 6 → Bool) :
    System.step .buttonsAll system (.handler (.expire level)) =
      some { system with
        dev := ⟨true, keyValue devId (level devId), some devId, false⟩
        raised := system.raised ++ [keyValue devId (level devId)] } := by
  have raises : Driver.raises .buttonsAll system.dev (.expire level) = true := by
    simp [Driver.raises, Driver.handle, pending, Dev.buttonsTimeroutFunction, armed, Dev.raise_eq]
  simp [System.step, raises, Driver.handle, pending, Dev.buttonsTimeroutFunction, armed,
    Dev.raise_eq]

theorem pending_of_expire {system next : System Pid} {level : Fin 6 → Bool}
    (taken : System.step .buttonsAll system (.handler (.expire level)) = some next) :
    system.dev.timer = true := by
  obtain ⟨dev, handled, -⟩ := Option.map_eq_some_iff.mp taken
  simp only [Driver.handle] at handled
  split at handled
  next pending => exact pending
  next => contradiction

/-- A step of a read raises nothing, and of the variables it writes `ev_press` only. -/
theorem reader_frame {system next : System Pid} {event : Event Pid}
    (notHandler : ∀ handler, event ≠ .handler handler)
    (taken : System.step .buttonsAll system event = some next) :
    next.raised = system.raised ∧
      next.dev = { system.dev with evPress := next.dev.evPress } := by
  cases System.effect_of_step taken with
  | raise | quiet => exact absurd rfl (notHandler _)
  | outside dev pc raised => exact ⟨raised, by rw [dev]⟩
  | pass reader passes dev pc raised => exact ⟨raised, by rw [dev]⟩
  | copied reader copying dev pc raised => exact ⟨raised, by rw [dev]⟩
  | cleared reader value event clearing dev pc raised => exact ⟨raised, by rw [dev]⟩

/-! ## Where the values of a session come from -/

namespace Device

/-- Whatever a read of the session can see comes from a key interrupt of the session. -/
structure Traced (device : Device Pid) : Prop where
  pointed : device.irqs ≠ [] →
    ∃ devId ∈ device.irqs, device.system.dev.irqPd = some devId
  unarmed : device.irqs = [] → device.system.dev.timer = true →
    device.system.dev.irqPd = none
  silent : device.system.raised = [] →
    device.system.dev.evPress = false ∧ ∀ pid, device.system.pc pid ≠ .copying
  saved : device.system.raised ≠ [] → FromKey device.irqs device.system.dev.gSaveKeyVal
  reading : ∀ pid value event, device.system.pc pid = .clearing value event →
    FromKey device.irqs value
  delivered : device.ReadsOwnKeys

omit [DecidableEq Pid] in
theorem CleanOpen.traced {device : Device Pid} (clean : device.CleanOpen) :
    device.openFile.Traced where
  pointed := fun none => absurd rfl none
  unarmed := fun _ => clean.2
  silent := fun _ => ⟨clean.1, by simp [openFile]⟩
  saved := fun none => absurd rfl none
  reading := by simp [openFile]
  delivered := by simp [ReadsOwnKeys, openFile, System.delivered]

omit [DecidableEq Pid] in
theorem Traced.raised_of_evPress {device : Device Pid} (traced : device.Traced)
    (pressed : device.system.dev.evPress = true) : device.system.raised ≠ [] := by
  intro silent
  rw [(traced.silent silent).1] at pressed
  contradiction

omit [DecidableEq Pid] in
theorem Traced.raised_of_copying {device : Device Pid} (traced : device.Traced) {pid : Pid}
    (copying : device.system.pc pid = .copying) : device.system.raised ≠ [] :=
  fun silent => (traced.silent silent).2 pid copying

/-- A step of a read keeps it: of the variables only `ev_press` moves, and a value is copied
only once a key event was raised. -/
theorem Traced.readStep {device next : Device Pid} (traced : device.Traced) {pid : Pid}
    {event : Event Pid} (notHandler : ∀ handler, event ≠ .handler handler)
    (notSignal : ∀ reader, event ≠ .signal reader)
    (taken : device.readStep pid event = some next) : next.Traced := by
  unfold Device.readStep at taken
  split at taken
  next =>
      obtain ⟨system, stepped, rfl⟩ := Option.map_eq_some_iff.mp taken
      obtain ⟨sameRaised, frame⟩ := reader_frame notHandler stepped
      have pointed : device.irqs ≠ [] →
          ∃ devId ∈ device.irqs, system.dev.irqPd = some devId := by
        rw [frame]
        exact traced.pointed
      have unarmed : device.irqs = [] → system.dev.timer = true →
          system.dev.irqPd = none := by
        rw [frame]
        exact traced.unarmed
      have saved : system.raised ≠ [] → FromKey device.irqs system.dev.gSaveKeyVal := by
        rw [frame, sameRaised]
        exact traced.saved
      cases System.effect_of_step stepped with
      | raise | quiet => exact absurd rfl (notHandler _)
      | outside dev pc raised delivered =>
          refine { pointed, unarmed, saved, silent := ?silent, reading := ?reading,
                   delivered := ?delivered }
          case silent =>
            intro silent
            obtain ⟨released, none⟩ := traced.silent (raised ▸ silent)
            refine ⟨by rw [dev, released], fun reader copying => ?_⟩
            rcases pc reader with same | idle | ⟨nonblock, testing⟩
            · exact none reader (same ▸ copying)
            · simp [idle] at copying
            · simp [testing] at copying
          case reading =>
            intro reader value event clearing
            rcases pc reader with same | idle | ⟨nonblock, testing⟩
            · exact traced.reading reader value event (same ▸ clearing)
            · simp [idle] at clearing
            · simp [testing] at clearing
          case delivered => simpa only [ReadsOwnKeys, delivered] using traced.delivered
      | pass reader passes dev pc raised delivered =>
          have pressed : device.system.dev.evPress = true := by
            rcases passes with ⟨-, pressed⟩ | isSignal
            · exact pressed
            · exact absurd isSignal (notSignal reader)
          refine { pointed, unarmed, saved, silent := ?silent, reading := ?reading,
                   delivered := ?delivered }
          case silent =>
            intro silent
            exact absurd (raised ▸ silent) (traced.raised_of_evPress pressed)
          case reading =>
            intro other value event clearing
            simp only [pc] at clearing
            obtain ⟨-, clearing⟩ := of_update_eq clearing (by simp)
            exact traced.reading other value event clearing
          case delivered => simpa only [ReadsOwnKeys, delivered] using traced.delivered
      | copied reader copying dev pc raised delivered =>
          have someRaised := traced.raised_of_copying copying
          refine { pointed, unarmed, saved, silent := ?silent, reading := ?reading,
                   delivered := ?delivered }
          case silent =>
            intro silent
            exact absurd (raised ▸ silent) someRaised
          case reading =>
            intro other value event clearing
            simp only [pc, Function.update_apply] at clearing
            split at clearing
            · obtain ⟨rfl, -⟩ := Pc.clearing.inj clearing
              exact traced.saved someRaised
            · exact traced.reading other value event clearing
          case delivered => simpa only [ReadsOwnKeys, delivered] using traced.delivered
      | cleared reader value event clearing dev pc raised delivered =>
          refine { pointed, unarmed, saved, silent := ?silent, reading := ?reading,
                   delivered := ?delivered }
          case silent =>
            intro silent
            refine ⟨by rw [dev], fun other copying => ?_⟩
            simp only [pc] at copying
            obtain ⟨-, copying⟩ := of_update_eq copying (by simp)
            exact (traced.silent (raised ▸ silent)).2 other copying
          case reading =>
            intro other value' event' clearing'
            simp only [pc] at clearing'
            obtain ⟨-, clearing'⟩ := of_update_eq clearing' (by simp)
            exact traced.reading other value' event' clearing'
          case delivered =>
            intro entry member
            simp only [delivered] at member
            rcases List.mem_append.mp member with earlier | here
            · exact traced.delivered entry earlier
            · obtain rfl := List.mem_singleton.mp here
              exact traced.reading reader value event clearing
  next => contradiction

theorem sessionStep_traced : (sessionStep : Step (Device Pid) (SessionEvent Pid)).Preserves
    (fun _ _ => True) Traced := by
  intro device event next traced _ taken
  cases event with
  | irq devId level =>
      simp only [sessionStep, step_irq] at taken
      split at taken
      next =>
          obtain rfl := Option.some.inj taken
          constructor
          case pointed => exact fun _ => ⟨devId, by simp, rfl⟩
          case unarmed =>
            intro none
            simp at none
          case silent => exact traced.silent
          case saved => exact fun raised => (traced.saved raised).append _
          case reading =>
            exact fun pid value event clearing =>
              (traced.reading pid value event clearing).append _
          case delivered => exact fun entry member => (traced.delivered entry member).append _
      next => contradiction
  | expire level =>
      obtain ⟨system, stepped, rfl⟩ := Option.map_eq_some_iff.mp taken
      have pending := pending_of_expire stepped
      by_cases unarmed : device.irqs = []
      · rw [step_expire_unarmed pending (traced.unarmed unarmed pending)] at stepped
        obtain rfl := Option.some.inj stepped
        constructor
        case pointed => exact fun armed => absurd unarmed armed
        case unarmed => exact fun _ stillPending => by contradiction
        case silent => exact traced.silent
        case saved => exact traced.saved
        case reading => exact traced.reading
        case delivered => exact traced.delivered
      · obtain ⟨devId, taken', pointed⟩ := traced.pointed unarmed
        rw [step_expire_armed pending pointed] at stepped
        obtain rfl := Option.some.inj stepped
        constructor
        case pointed => exact fun _ => ⟨devId, taken', rfl⟩
        case unarmed => exact fun none => absurd none unarmed
        case silent =>
          intro silent
          simp at silent
        case saved => exact fun _ => ⟨devId, taken', level devId, rfl⟩
        case reading => exact traced.reading
        case delivered => exact traced.delivered
  | read | test | copy | clear =>
      exact traced.readStep (fun _ => by simp) (fun _ => by simp) taken
  | poll =>
      simp only [sessionStep] at taken
      split at taken
      · obtain rfl := Option.some.inj taken
        exact ⟨traced.pointed, traced.unarmed, traced.silent, traced.saved, traced.reading,
          traced.delivered⟩
      · contradiction

end Device

/-! ## Two devices -/

/-- A step of a read depends on `ev_press`, and on the saved value where one is copied. -/
theorem step_withDev {system : System Pid} {dev : Dev} {event : Event Pid}
    (notHandler : ∀ handler, event ≠ .handler handler)
    (evPress : dev.evPress = system.dev.evPress)
    (saved : ∀ pid, system.pc pid = .copying → dev.gSaveKeyVal = system.dev.gSaveKeyVal) :
    System.step .buttonsAll { system with dev := dev } event =
      (System.step .buttonsAll system event).map fun next =>
        { next with dev := { dev with evPress := next.dev.evPress } } := by
  have same : ({ dev with evPress := system.dev.evPress } : Dev) = dev := by rw [← evPress]
  cases event with
  | handler handler => exact absurd rfl (notHandler handler)
  | read pid size nonblock =>
      simp only [System.step]
      cases system.pc pid with
      | idle =>
          simp only [apply_ite (Option.map _), Option.map_some]
          simp [System.finish, System.setPc, same]
      | testing | copying | clearing => rfl
  | test pid =>
      simp only [System.step]
      cases system.pc pid with
      | testing nonblock =>
          simp only [apply_ite (Option.map _), Option.map_some, evPress]
          simp [System.finish, System.setPc, same]
      | idle | copying | clearing => rfl
  | signal pid =>
      simp only [System.step]
      cases system.pc pid with
      | testing nonblock => cases nonblock <;> simp [System.setPc, same]
      | idle | copying | clearing => rfl
  | copy pid copied =>
      simp only [System.step]
      cases pc : system.pc pid with
      | copying =>
          rw [saved pid pc] at same
          simp only [apply_ite (Option.map _), Option.map_some, saved pid pc]
          simp [System.finish, System.setPc, same]
      | idle | testing | clearing => rfl
  | clear pid =>
      simp only [System.step]
      cases system.pc pid with
      | clearing value event => rfl
      | idle | testing | copying => rfl

namespace Device

/-- The two devices differ in what the session cannot see: the saved value as long as no
key event was raised, and the timer and its pointer as long as no interrupt was taken. -/
structure Similar (first second : Device Pid) : Prop where
  traced : first.Traced
  alike : second = { first with system.dev := second.system.dev }
  evPress : second.system.dev.evPress = first.system.dev.evPress
  saved : first.system.raised ≠ [] →
    second.system.dev.gSaveKeyVal = first.system.dev.gSaveKeyVal
  armed : first.irqs ≠ [] → second.system.dev.irqPd = first.system.dev.irqPd ∧
    second.system.dev.timer = first.system.dev.timer

omit [DecidableEq Pid] in
/-- The second device is the first with other variables. -/
theorem Similar.exists_dev {first second : Device Pid} (similar : Similar first second) :
    ∃ dev, second = { first with system.dev := dev } := ⟨_, similar.alike⟩

theorem Similar.readStep {first second next : Device Pid} (similar : Similar first second)
    {pid : Pid} {event : Event Pid} (notHandler : ∀ handler, event ≠ .handler handler)
    (notSignal : ∀ reader, event ≠ .signal reader)
    (taken : first.readStep pid event = some next) :
    ∃ next', second.readStep pid event = some next' ∧ Similar next next' := by
  have traced := similar.traced.readStep notHandler notSignal taken
  obtain ⟨dev, rfl⟩ := similar.exists_dev
  unfold Device.readStep at taken ⊢
  split at taken
  next isOpen =>
      obtain ⟨system, stepped, rfl⟩ := Option.map_eq_some_iff.mp taken
      obtain ⟨raised, frame⟩ := reader_frame notHandler stepped
      have copied (reader : Pid) (copying : first.system.pc reader = .copying) :=
        similar.saved (similar.traced.raised_of_copying copying)
      have stepped' := step_withDev notHandler similar.evPress copied
      rw [stepped, Option.map_some] at stepped'
      refine ⟨{ first with
          system := { system with dev := { dev with evPress := system.dev.evPress } }
          readers :=
            if system.pc pid = .idle then first.readers.erase pid
            else insert pid first.readers }, ?_, traced, rfl, rfl, ?_, ?_⟩
      · rw [if_pos isOpen, stepped', Option.map_some]
      · intro someRaised
        rw [frame]
        exact similar.saved (raised ▸ someRaised)
      · intro armed
        rw [frame]
        exact similar.armed armed
  next => contradiction

/-- An event other than an old expiry is possible in both devices or in neither. -/
theorem Similar.sessionStep {first second next : Device Pid} (similar : Similar first second)
    {event : SessionEvent Pid}
    (notOld : first.irqs = [] → ∀ level, event ≠ .expire level)
    (taken : first.sessionStep event = some next) :
    ∃ next', second.sessionStep event = some next' ∧ Similar next next' := by
  have traced := sessionStep_traced first event next similar.traced trivial taken
  cases event with
  | read | test | copy | clear =>
      exact similar.readStep (fun _ => by simp) (fun _ => by simp) taken
  | irq devId level =>
      obtain ⟨dev, rfl⟩ := similar.exists_dev
      simp only [Device.sessionStep, step_irq, Option.map_some] at taken ⊢
      split at taken
      next isOpen =>
          obtain rfl := Option.some.inj taken
          rw [if_pos isOpen]
          exact ⟨_, rfl, traced, rfl, similar.evPress, similar.saved, fun _ => ⟨rfl, rfl⟩⟩
      next => contradiction
  | expire level =>
      have someIrq : first.irqs ≠ [] := fun none => notOld none level rfl
      obtain ⟨devId, -, pointed⟩ := similar.traced.pointed someIrq
      obtain ⟨irqPd, timer⟩ := similar.armed someIrq
      obtain ⟨dev, rfl⟩ := similar.exists_dev
      obtain ⟨system, stepped, rfl⟩ := Option.map_eq_some_iff.mp taken
      have pending := pending_of_expire stepped
      have stepped' := step_expire_armed (timer.trans pending) (irqPd.trans pointed) level
      rw [step_expire_armed pending pointed] at stepped
      obtain rfl := Option.some.inj stepped
      refine ⟨_, by rw [Device.sessionStep, stepped', Option.map_some], traced, rfl, rfl,
        ?_, ?_⟩
      · exact fun _ => rfl
      · exact fun _ => ⟨rfl, rfl⟩
  | poll =>
      obtain ⟨dev, rfl⟩ := similar.exists_dev
      simp only [Device.sessionStep] at taken ⊢
      split at taken
      next isOpen =>
          obtain rfl := Option.some.inj taken
          rw [if_pos isOpen]
          have mask : sixthDrvPoll dev = sixthDrvPoll first.system.dev := by
            rw [sixthDrvPoll, sixthDrvPoll, similar.evPress]
          refine ⟨_, rfl, traced, by rw [mask], similar.evPress, similar.saved, similar.armed⟩
      next => contradiction

/-- An old expiry raises nothing in a session that began clean. -/
theorem Similar.oldExpiry {first second next : Device Pid} (similar : Similar first second)
    (unarmed : first.irqs = []) {level : Fin 6 → Bool}
    (taken : first.sessionStep (.expire level) = some next) :
    next.irqs = [] ∧ Similar next second := by
  have traced := sessionStep_traced first _ next similar.traced trivial taken
  obtain ⟨system, stepped, rfl⟩ := Option.map_eq_some_iff.mp taken
  have pending := pending_of_expire stepped
  rw [step_expire_unarmed pending (similar.traced.unarmed unarmed pending)] at stepped
  obtain rfl := Option.some.inj stepped
  exact ⟨unarmed, traced, similar.alike, similar.evPress, similar.saved,
    fun armed => absurd unarmed armed⟩

/-- Only a key interrupt is recorded as one. -/
theorem irqs_of_sessionStep {device next : Device Pid} {event : SessionEvent Pid}
    (taken : device.sessionStep event = some next) :
    next.irqs = device.irqs ++ event.devId.toList := by
  cases event with
  | irq devId level =>
      simp only [sessionStep, step_irq] at taken
      split at taken
      · obtain rfl := Option.some.inj taken
        rfl
      · contradiction
  | expire level =>
      obtain ⟨system, -, rfl⟩ := Option.map_eq_some_iff.mp taken
      exact (List.append_nil _).symm
  | read | test | copy | clear =>
      simp only [sessionStep, Device.readStep] at taken
      split at taken
      · obtain ⟨system, -, rfl⟩ := Option.map_eq_some_iff.mp taken
        exact (List.append_nil _).symm
      · contradiction
  | poll =>
      simp only [sessionStep] at taken
      split at taken
      · obtain rfl := Option.some.inj taken
        exact (List.append_nil _).symm
      · contradiction

/-- Once an interrupt of the session was taken, the same events do the same. -/
theorem Similar.run_armed {first second final : Device Pid} (similar : Similar first second)
    (armed : first.irqs ≠ []) {events : List (SessionEvent Pid)}
    (ran : Device.sessionStep.run first events = some final) :
    ∃ final', Device.sessionStep.run second events = some final' ∧ Similar final final' := by
  induction events generalizing first second with
  | nil =>
      obtain rfl := Option.some.inj ran
      exact ⟨second, rfl, similar⟩
  | cons event rest ih =>
      obtain ⟨next, taken, ran⟩ := Option.bind_eq_some_iff.mp ran
      obtain ⟨next', taken', similar'⟩ :=
        similar.sessionStep (fun none => absurd none armed) taken
      have armed' : next.irqs ≠ [] := by
        rw [irqs_of_sessionStep taken]
        exact List.append_ne_nil_of_left_ne_nil armed _
      obtain ⟨final', ran', similarFinal⟩ := ih similar' armed' ran
      exact ⟨final', by rw [Step.run_cons_of_eq taken', ran'], similarFinal⟩

/-- The old expiries of the first device need no counterpart in the second. -/
theorem Similar.run {first second final : Device Pid} (similar : Similar first second)
    (unarmed : first.irqs = []) {events : List (SessionEvent Pid)}
    (ran : Device.sessionStep.run first events = some final) :
    ∃ final', Device.sessionStep.run second (withoutOldExpiries events) = some final' ∧
      Similar final final' := by
  induction events generalizing first second with
  | nil =>
      obtain rfl := Option.some.inj ran
      exact ⟨second, rfl, similar⟩
  | cons event rest ih =>
      obtain ⟨next, taken, ranRest⟩ := Option.bind_eq_some_iff.mp ran
      have irqs := irqs_of_sessionStep taken
      cases event with
      | irq devId level =>
          obtain ⟨next', taken', similar'⟩ := similar.sessionStep (by simp) taken
          have armed : next.irqs ≠ [] := by
            rw [irqs]
            exact List.append_ne_nil_of_right_ne_nil _ (List.cons_ne_nil _ _)
          obtain ⟨final', ran', similarFinal⟩ := similar'.run_armed armed ranRest
          refine ⟨final', ?_, similarFinal⟩
          rw [withoutOldExpiries, Step.run_cons_of_eq taken', ran']
      | expire level =>
          obtain ⟨unarmed', similar'⟩ := similar.oldExpiry unarmed taken
          exact ih similar' unarmed' ranRest
      | read | test | copy | clear | poll =>
          obtain ⟨next', taken', similar'⟩ := similar.sessionStep (by simp) taken
          have unarmed' : next.irqs = [] := irqs.trans (by rw [unarmed]; rfl)
          obtain ⟨final', ran', similarFinal⟩ := ih similar' unarmed' ranRest
          refine ⟨final', ?_, similarFinal⟩
          rw [withoutOldExpiries, Step.run_cons_of_eq taken', ran']

omit [DecidableEq Pid] in
/-- Two clean opens cannot be told apart. -/
theorem CleanOpen.similar {first second : Device Pid} (clean : first.CleanOpen)
    (clean' : second.CleanOpen) : Similar first.openFile second.openFile where
  traced := clean.traced
  alike := rfl
  evPress := clean'.1.trans clean.1.symm
  saved := fun none => absurd rfl none
  armed := fun none => absurd rfl none

/-- From a clean open the session is determined by its events, the old expiries apart. -/
theorem CleanOpen.results_eq {first second final final' : Device Pid}
    (clean : first.CleanOpen) (clean' : second.CleanOpen)
    {events events' : List (SessionEvent Pid)}
    (same : withoutOldExpiries events = withoutOldExpiries events')
    (ran : sessionStep.run first.openFile events = some final)
    (ran' : sessionStep.run second.openFile events' = some final') :
    final.results = final'.results := by
  obtain ⟨model, modelRan, similar⟩ := (clean.similar clean).run rfl ran
  obtain ⟨model', modelRan', similar'⟩ := (clean'.similar clean).run rfl ran'
  rw [same, modelRan'] at modelRan
  obtain rfl := Option.some.inj modelRan
  have results_eq {device : Device Pid} (alike : Similar device model') :
      device.results = model'.results := by rw [alike.alike]; rfl
  rw [results_eq similar, results_eq similar']

theorem CleanOpen.readsOwnKeys {device final : Device Pid} (clean : device.CleanOpen)
    {events : List (SessionEvent Pid)}
    (ran : sessionStep.run device.openFile events = some final) : final.ReadsOwnKeys :=
  (sessionStep_traced.reachable clean.traced ⟨events, ran⟩).delivered

theorem sixthDrvPoll_ne {pressed released : Dev} (evPress : pressed.evPress = true)
    (none : released.evPress = false) : sixthDrvPoll pressed ≠ sixthDrvPoll released := by
  rw [sixthDrvPoll, sixthDrvPoll, evPress, none]
  decide

/-- After an open that is not clean, a poll sees the key event of an earlier session: at
once, or after the timer of that session has raised it. -/
theorem exists_leak {device : Device Pid} (unclean : ¬ device.CleanOpen) :
    ∃ (events events' : List (SessionEvent Pid)) (final final' : Device Pid),
      withoutOldExpiries events = withoutOldExpiries events' ∧
      sessionStep.run device.openFile events = some final ∧
      sessionStep.run (loaded : Device Pid).openFile events' = some final' ∧
      final.results ≠ final'.results := by
  cases evPress : device.system.dev.evPress with
  | true =>
      refine ⟨[.poll], [.poll], _, _, rfl, rfl, rfl, ?_⟩
      intro same
      have masks : [_] = [_] := congrArg Prod.snd same
      exact sixthDrvPoll_ne evPress rfl (List.cons.inj masks).1
  | false =>
      obtain ⟨pending, armed⟩ : device.system.dev.timer = true ∧
          device.system.dev.irqPd ≠ none := by
        simpa [CleanOpen, evPress] using unclean
      obtain ⟨devId, armed⟩ := Option.ne_none_iff_exists'.mp armed
      have raised := @step_expire_armed _ _ device.openFile.system devId pending armed
        fun _ => true
      have expired := congrArg
        (Option.map fun system => ({ device.openFile with system := system } : Device Pid)) raised
      refine ⟨[.expire fun _ => true, .poll], [.poll], _, _, rfl,
        Option.bind_eq_some_iff.mpr ⟨_, expired, rfl⟩, rfl, ?_⟩
      intro same
      have masks : [_] = [_] := congrArg Prod.snd same
      exact sixthDrvPoll_ne rfl rfl (List.cons.inj masks).1

end Device

/-! ## The law -/

open Device

/-- A session of the given events after a history that ends with the file closed. -/
def Session (history : List (DeviceEvent Pid)) (events : List (SessionEvent Pid))
    (final : Device Pid) : Prop :=
  step.run loaded (history ++ .openFile :: events.map .session) = some final

/-- The history leaves no key event and no armed timer behind. -/
def LeavesClean (history : List (DeviceEvent Pid)) : Prop :=
  ∀ device, step.run loaded history = some device → device.CleanOpen

theorem run_session (device : Device Pid) (events : List (SessionEvent Pid)) :
    step.run device (events.map .session) = sessionStep.run device events := by
  induction events generalizing device with
  | nil => rfl
  | cons event rest ih =>
      rw [List.map_cons, Step.run_cons, Step.run_cons]
      congr 1
      funext next
      exact ih next

theorem Session.split {history : List (DeviceEvent Pid)} {events : List (SessionEvent Pid)}
    {final : Device Pid} (session : Session history events final) :
    ∃ device, step.run loaded history = some device ∧
      sessionStep.run device.openFile events = some final := by
  rw [Session, Step.run_append] at session
  obtain ⟨device, reached, opened⟩ := Option.bind_eq_some_iff.mp session
  obtain ⟨next, taken, ran⟩ := Option.bind_eq_some_iff.mp opened
  simp only [Device.step] at taken
  split at taken
  · contradiction
  · obtain rfl := Option.some.inj taken
    exact ⟨device, reached, (run_session _ _).symm.trans ran⟩

theorem Session.of_run {history : List (DeviceEvent Pid)} {events : List (SessionEvent Pid)}
    {device final : Device Pid} (reached : step.run loaded history = some device)
    (closed : device.isOpen = false)
    (ran : sessionStep.run device.openFile events = some final) :
    Session history events final := by
  have opened : device.step .openFile = some device.openFile := by simp [Device.step, closed]
  rw [Session, Step.run_append_of_eq reached, Step.run_cons_of_eq opened, run_session, ran]

/-- For any two histories that leave no key event and no armed timer behind, sessions of
the same events, the old expiries apart, return the same results, and every value that a
read returns comes from a key interrupt of its session.  After any other history there is
a session that returns something else than the same session in a module just loaded. -/
theorem sessions_isolated :
    (∀ (history history' : List (DeviceEvent Pid)) (events events' : List (SessionEvent Pid))
        (final final' : Device Pid), Session history events final →
      Session history' events' final' →
      withoutOldExpiries events = withoutOldExpiries events' →
      LeavesClean history → LeavesClean history' →
        final.results = final'.results ∧ final.ReadsOwnKeys ∧ final'.ReadsOwnKeys) ∧
    (∀ (history : List (DeviceEvent Pid)) (device : Device Pid),
      step.run loaded history = some device → device.isOpen = false →
      ¬ LeavesClean history →
        ∃ (events events' : List (SessionEvent Pid)) (final final' : Device Pid),
          withoutOldExpiries events = withoutOldExpiries events' ∧
          Session history events final ∧ Session [] events' final' ∧
          final.results ≠ final'.results) := by
  constructor
  · intro history history' events events' final final' session session' same clean clean'
    obtain ⟨device, reached, ran⟩ := session.split
    obtain ⟨device', reached', ran'⟩ := session'.split
    have clean := clean device reached
    have clean' := clean' device' reached'
    exact ⟨clean.results_eq clean' same ran ran', clean.readsOwnKeys ran,
      clean'.readsOwnKeys ran'⟩
  · intro history device reached closed unclean
    have unclean : ¬ device.CleanOpen := by
      intro clean
      apply unclean
      intro other reached'
      obtain rfl := Option.some.inj (reached.symm.trans reached')
      exact clean
    obtain ⟨events, events', final, final', same, ran, ran', differ⟩ := exists_leak unclean
    exact ⟨events, events', final, final', same, .of_run reached closed ran,
      .of_run rfl rfl ran', differ⟩

example : LeavesClean ([] : List (DeviceEvent Unit)) := by
  intro device reached
  obtain rfl := Option.some.inj reached
  exact ⟨rfl, fun _ => rfl⟩

/-- A key is pressed and the file closed before the timer has looked at it. -/
def pressAndClose : List (DeviceEvent Unit) :=
  [.openFile, .session (.irq ⟨0, by decide⟩ fun _ => false), .closeFile]

/-- The next session polls and reads the key, of which it has taken no interrupt; in a
module just loaded the same poll returns nothing. -/
theorem pressAndClose_leaks :
    (∃ final final' : Device Unit,
      Session pressAndClose [.expire fun _ => false, .poll] final ∧
      Session [] [.poll] final' ∧ final.results ≠ final'.results) ∧
    ∃ final : Device Unit,
      Session pressAndClose
        [.expire fun _ => false, .read () 1 true, .test (), .copy () true, .clear ()] final ∧
      final.system.returned = [((), .one 1 1)] ∧ ¬ final.ReadsOwnKeys := by
  refine ⟨⟨_, _, rfl, rfl, ?_⟩, _, rfl, rfl, ?_⟩
  · intro same
    exact absurd (congrArg Prod.snd same) (by decide)
  · intro own
    obtain ⟨devId, taken, -⟩ := own (1, 1) (by decide)
    exact absurd taken List.not_mem_nil

end Mini2440.Buttons.Sessions
