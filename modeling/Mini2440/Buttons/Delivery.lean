import Mini2440.Buttons.CharDev
import Mathlib.Data.List.Perm.Subperm
import Mathlib.Data.List.Nodup

/-!
# Key events and the reads that return them

Every read that returns 1 hands over the key event that was the latest when it copied.
The test of `ev_press`, the copy and the clearing are three steps, and the sleep before
them can be broken, so one event can be handed over twice, or none at all.  The result
gives the schedules on which that does not happen.
-/

namespace Mini2440.Buttons.CharDev

open Transition

variable {Pid : Type*}

/-- What a read that returned 1 handed over. -/
def ReadResult.delivery : ReadResult → Option (UInt8 × Nat)
  | .one value event => some (value, event)
  | .einval | .eagain | .efault => none

namespace System

/-- What the reads that returned 1 have handed over, in order. -/
def delivered (system : System Pid) : List (UInt8 × Nat) :=
  system.returned.filterMap fun entry => entry.2.delivery

/-- The key events that they handed over. -/
def deliveredEvents (system : System Pid) : List Nat := system.delivered.map (·.2)

/-- The reader is going to hand over the latest key event. -/
def InHand (system : System Pid) (reader : Pid) : Prop :=
  system.pc reader = .copying ∨
    ∃ value, system.pc reader = .clearing value system.raised.length

/-- Each read that returned 1 handed over a key event of its own. -/
structure AtMostOnce (system : System Pid) : Prop where
  distinct : system.deliveredEvents.Nodup
  raised : ∀ event ∈ system.deliveredEvents, 0 < event ∧ event ≤ system.raised.length
  count : (system.returned.filter fun entry => entry.2.code = 1).length ≤
    system.raised.length

end System

/-! ## At most one delivery per event -/

/-- A reader goes past the test only while `ev_press` is set, never because a signal broke
its sleep before, and not while another reader has the latest key event in hand. -/
def PassesAlone (system : System Pid) : Event Pid → Prop
  | .test reader => system.dev.evPress = true → ∀ other, other ≠ reader → ¬ system.InHand other
  | .signal reader => system.dev.evPress = true ∧ ∀ other, other ≠ reader → ¬ system.InHand other
  | .handler _ | .read .. | .copy .. | .clear _ => True

namespace System

/-- Where every key event that was or will be handed over is. -/
structure Accounted (system : System Pid) : Prop where
  distinct : system.deliveredEvents.Nodup
  raised : ∀ event ∈ system.deliveredEvents, 0 < event ∧ event ≤ system.raised.length
  held : ∀ reader value event, system.pc reader = .clearing value event →
    0 < event ∧ event ≤ system.raised.length ∧ event ∉ system.deliveredEvents
  heldOnce : ∀ reader other value value' event, system.pc reader = .clearing value event →
    system.pc other = .clearing value' event → reader = other
  fresh : (system.dev.evPress = true ∨ ∃ reader, system.pc reader = .copying) →
    0 < system.raised.length ∧ system.raised.length ∉ system.deliveredEvents
  alone : ∀ reader, system.pc reader = .copying →
    ∀ other, other ≠ reader → ¬ system.InHand other

theorem initial_accounted : (initial : System Pid).Accounted := by
  constructor <;> simp [initial, deliveredEvents, delivered]

theorem deliveredEvents_eq {system next : System Pid}
    (delivered : next.delivered = system.delivered) :
    next.deliveredEvents = system.deliveredEvents := by
  rw [deliveredEvents, delivered, deliveredEvents]

theorem Accounted.raise {system next : System Pid} (accounted : system.Accounted)
    {value : UInt8} (pc : next.pc = system.pc) (raised : next.raised = system.raised ++ [value])
    (delivered : next.delivered = system.delivered) : next.Accounted := by
  have events := deliveredEvents_eq delivered
  have length : next.raised.length = system.raised.length + 1 := by simp [raised]
  have newest : next.raised.length ∉ next.deliveredEvents := by
    intro member
    rw [events] at member
    have := (accounted.raised _ member).2
    omega
  constructor
  case distinct => exact events ▸ accounted.distinct
  case raised =>
    intro event member
    rw [events] at member
    have := accounted.raised event member
    omega
  case held =>
    intro reader value event clearing
    rw [pc] at clearing
    obtain ⟨positive, bound, undelivered⟩ := accounted.held reader value event clearing
    exact ⟨positive, by omega, events ▸ undelivered⟩
  case heldOnce =>
    intro reader other value value' event clearing clearing'
    rw [pc] at clearing clearing'
    exact accounted.heldOnce reader other value value' event clearing clearing'
  case fresh => exact fun _ => ⟨by omega, newest⟩
  case alone =>
    intro reader copying other different inHand
    rw [pc] at copying
    refine accounted.alone reader copying other different (.imp ?_ ?_ inHand)
    · intro copying'
      rwa [pc] at copying'
    · rintro ⟨value, clearing⟩
      rw [pc] at clearing
      have := (accounted.held other value _ clearing).2.1
      omega

/-- Steps after which no reader is nearer to a delivery than before. -/
theorem Accounted.outside {system next : System Pid} (accounted : system.Accounted)
    (evPress : next.dev.evPress = system.dev.evPress)
    (pc : ∀ reader, next.pc reader = system.pc reader ∨ next.pc reader = .idle ∨
      ∃ nonblock, next.pc reader = .testing nonblock)
    (raised : next.raised = system.raised)
    (delivered : next.delivered = system.delivered) : next.Accounted := by
  have events := deliveredEvents_eq delivered
  have clearing_of {reader : Pid} {value : UInt8} {event : Nat}
      (clearing : next.pc reader = .clearing value event) :
      system.pc reader = .clearing value event := by
    rcases pc reader with same | idle | ⟨nonblock, testing⟩
    · rwa [same] at clearing
    · simp [idle] at clearing
    · simp [testing] at clearing
  have copying_of {reader : Pid} (copying : next.pc reader = .copying) :
      system.pc reader = .copying := by
    rcases pc reader with same | idle | ⟨nonblock, testing⟩
    · rwa [same] at copying
    · simp [idle] at copying
    · simp [testing] at copying
  constructor
  case distinct => exact events ▸ accounted.distinct
  case raised => simpa only [events, raised] using accounted.raised
  case held =>
    intro reader value event clearing
    rw [raised, events]
    exact accounted.held reader value event (clearing_of clearing)
  case heldOnce =>
    intro reader other value value' event clearing clearing'
    exact accounted.heldOnce reader other value value' event (clearing_of clearing)
      (clearing_of clearing')
  case fresh =>
    rw [raised, events, evPress]
    rintro (pressed | ⟨reader, copying⟩)
    · exact accounted.fresh (.inl pressed)
    · exact accounted.fresh (.inr ⟨reader, copying_of copying⟩)
  case alone =>
    intro reader copying other different inHand
    refine accounted.alone reader (copying_of copying) other different (.imp copying_of ?_ inHand)
    rintro ⟨value, clearing⟩
    rw [raised] at clearing
    exact ⟨value, clearing_of clearing⟩

/-- The reads that returned 1 are those that handed over an event. -/
theorem count_eq (system : System Pid) :
    (system.returned.filter fun entry => entry.2.code = 1).length =
      system.deliveredEvents.length := by
  have code : ∀ result : ReadResult, decide (result.code = 1) = result.delivery.isSome := by
    intro result
    cases result <;> rfl
  simp only [deliveredEvents, delivered, List.length_map, code,
    List.length_filterMap_eq_countP, List.countP_eq_length_filter]

theorem Accounted.atMostOnce {system : System Pid} (accounted : system.Accounted) :
    system.AtMostOnce := by
  refine ⟨accounted.distinct, accounted.raised, ?_⟩
  have inRange : system.deliveredEvents ⊆ List.range' 1 system.raised.length := by
    intro event member
    obtain ⟨positive, bound⟩ := accounted.raised event member
    rw [List.mem_range'_1]
    omega
  have bound := (accounted.distinct.subperm inRange).length_le
  rw [count_eq]
  simpa using bound

end System

variable [DecidableEq Pid]

/-! ## What a step does -/

/-- What each event does to the flag, the saved value, the readers past the test, the key
events raised and those handed over. -/
inductive Effect (driver : Driver) (before : System Pid) : Event Pid → System Pid → Prop
  | raise {handler : Handler} {after : System Pid}
      (handled : driver.handle before.dev handler = some after.dev)
      (raises : driver.raises before.dev handler = true)
      (evPress : after.dev.evPress = true) (pc : after.pc = before.pc)
      (raised : after.raised = before.raised ++ [after.dev.gSaveKeyVal])
      (delivered : after.delivered = before.delivered) :
      Effect driver before (.handler handler) after
  /-- A handler that raises no key event. -/
  | quiet {handler : Handler} {after : System Pid}
      (evPress : after.dev.evPress = before.dev.evPress)
      (saved : after.dev.gSaveKeyVal = before.dev.gSaveKeyVal) (pc : after.pc = before.pc)
      (raised : after.raised = before.raised)
      (delivered : after.delivered = before.delivered) :
      Effect driver before (.handler handler) after
  /-- A reader begins, sleeps on, or ends without success. -/
  | outside {event : Event Pid} {after : System Pid} (dev : after.dev = before.dev)
      (pc : ∀ reader, after.pc reader = before.pc reader ∨ after.pc reader = .idle ∨
        ∃ nonblock, after.pc reader = .testing nonblock)
      (raised : after.raised = before.raised)
      (delivered : after.delivered = before.delivered) : Effect driver before event after
  | pass (reader : Pid) {event : Event Pid} {after : System Pid}
      (passes : event = .test reader ∧ before.dev.evPress = true ∨ event = .signal reader)
      (dev : after.dev = before.dev)
      (pc : after.pc = Function.update before.pc reader .copying)
      (raised : after.raised = before.raised)
      (delivered : after.delivered = before.delivered) : Effect driver before event after
  | copied (reader : Pid) {after : System Pid} (copying : before.pc reader = .copying)
      (dev : after.dev = before.dev)
      (pc : after.pc = Function.update before.pc reader
        (.clearing before.dev.gSaveKeyVal before.raised.length))
      (raised : after.raised = before.raised)
      (delivered : after.delivered = before.delivered) :
      Effect driver before (.copy reader true) after
  | cleared (reader : Pid) (value : UInt8) (event : Nat) {after : System Pid}
      (clearing : before.pc reader = .clearing value event)
      (dev : after.dev = { before.dev with evPress := false })
      (pc : after.pc = Function.update before.pc reader .idle)
      (raised : after.raised = before.raised)
      (delivered : after.delivered = before.delivered ++ [(value, event)]) :
      Effect driver before (.clear reader) after

/-- A handler either raises a key event or leaves flag and value alone. -/
theorem handle_cases {driver : Driver} {dev after : Dev} {handler : Handler}
    (handled : driver.handle dev handler = some after) :
    (driver.raises dev handler = true ∧ after.evPress = true) ∨
      (driver.raises dev handler = false ∧ after.evPress = dev.evPress ∧
        after.gSaveKeyVal = dev.gSaveKeyVal) := by
  cases handler with
  | irq devId level =>
      obtain rfl := Option.some.inj handled
      cases driver with
      | buttonsAll => exact .inr ⟨rfl, rfl, rfl⟩
      | thirdDrv | forthDrv | fifthDrv | sixthDrv => exact .inl ⟨rfl, rfl⟩
  | expire level =>
      simp only [Driver.handle] at handled
      split at handled
      next pending =>
          obtain rfl := Option.some.inj handled
          cases pointed : dev.irqPd with
          | none =>
              right
              simp [Driver.raises, Driver.handle, pending, Dev.buttonsTimeroutFunction,
                pointed]
          | some pindesc =>
              left
              simp [Driver.raises, Driver.handle, pending, Dev.buttonsTimeroutFunction,
                pointed, Dev.raise]
      next => contradiction

namespace System

variable {driver : Driver} {system next : System Pid} {event : Event Pid}

theorem finish_delivered (system : System Pid) (pid : Pid) (result : ReadResult) :
    (system.finish pid result).delivered = system.delivered ++ result.delivery.toList := by
  simp only [finish, delivered, List.filterMap_append]
  cases result <;> rfl

/-- A read that ends without success. -/
theorem effect_of_finish {result : ReadResult} (pid : Pid) (failed : result.delivery = none) :
    Effect driver system event (system.finish pid result) := by
  refine .outside rfl ?_ rfl ?_
  · intro reader
    by_cases same : reader = pid
    · simp [finish, setPc, same]
    · simp [finish, setPc, same]
  · rw [finish_delivered, failed]
    simp

theorem effect_of_step (taken : step driver system event = some next) :
    Effect driver system event next := by
  cases event with
  | handler handler =>
      obtain ⟨dev, handled, rfl⟩ := Option.map_eq_some_iff.mp taken
      rcases handle_cases handled with ⟨raises, evPress⟩ | ⟨raises, evPress, saved⟩
      · exact .raise handled raises evPress rfl (if_pos raises) rfl
      · refine .quiet evPress saved rfl ?_ rfl
        simp [raises]
  | read pid size nonblock =>
      simp only [step] at taken
      split at taken
      next idle =>
          split at taken
          · obtain rfl := Option.some.inj taken
            exact effect_of_finish pid rfl
          · obtain rfl := Option.some.inj taken
            refine .outside rfl ?_ rfl rfl
            intro reader
            by_cases same : reader = pid
            · simp [setPc, same]
            · simp [setPc, same]
      next => contradiction
  | test pid =>
      simp only [step] at taken
      split at taken
      next nonblock testing =>
          split at taken
          next pressed =>
              obtain rfl := Option.some.inj taken
              exact .pass pid (.inl ⟨rfl, pressed⟩) rfl rfl rfl rfl
          next =>
              split at taken
              · obtain rfl := Option.some.inj taken
                exact effect_of_finish pid rfl
              · obtain rfl := Option.some.inj taken
                exact .outside rfl (fun _ => .inl rfl) rfl rfl
      next => contradiction
  | signal pid =>
      simp only [step] at taken
      split at taken
      next =>
          obtain rfl := Option.some.inj taken
          exact .pass pid (.inr rfl) rfl rfl rfl rfl
      next => contradiction
  | copy pid copied =>
      simp only [step] at taken
      split at taken
      next copying =>
          cases copied with
          | true =>
              obtain rfl := Option.some.inj taken
              exact .copied pid copying rfl rfl rfl rfl
          | false =>
              obtain rfl := Option.some.inj taken
              exact effect_of_finish pid rfl
      next => contradiction
  | clear pid =>
      simp only [step] at taken
      split at taken
      next value event clearing =>
          obtain rfl := Option.some.inj taken
          refine .cleared pid value event clearing rfl rfl rfl ?_
          exact finish_delivered system pid (.one value event)
      next => contradiction

end System

/-! ## Runs -/

namespace System

theorem Accounted.pass {system next : System Pid} (accounted : system.Accounted)
    {reader : Pid} (pressed : system.dev.evPress = true)
    (alone : ∀ other, other ≠ reader → ¬ system.InHand other)
    (pc : next.pc = Function.update system.pc reader .copying)
    (raised : next.raised = system.raised)
    (delivered : next.delivered = system.delivered) : next.Accounted := by
  have events := deliveredEvents_eq delivered
  have clearing_of {other : Pid} {value : UInt8} {event : Nat}
      (clearing : next.pc other = .clearing value event) :
      system.pc other = .clearing value event := by
    rw [pc] at clearing
    exact (of_update_eq clearing (by simp)).2
  constructor
  case distinct => exact events ▸ accounted.distinct
  case raised => simpa only [events, raised] using accounted.raised
  case held =>
    intro other value event clearing
    rw [raised, events]
    exact accounted.held other value event (clearing_of clearing)
  case heldOnce =>
    intro first second value value' event clearing clearing'
    exact accounted.heldOnce first second value value' event (clearing_of clearing)
      (clearing_of clearing')
  case fresh =>
    rw [raised, events]
    exact fun _ => accounted.fresh (.inl pressed)
  case alone =>
    intro copier copying other different inHand
    have copier_eq : copier = reader := by
      by_contra third
      rw [pc, Function.update_of_ne third] at copying
      exact alone copier third (.inl copying)
    subst copier_eq
    refine alone other different (.imp ?_ ?_ inHand)
    · intro copying'
      rwa [pc, Function.update_of_ne different] at copying'
    · rintro ⟨value, clearing⟩
      rw [raised] at clearing
      exact ⟨value, clearing_of clearing⟩

theorem Accounted.copied {system next : System Pid} (accounted : system.Accounted)
    {reader : Pid} {value : UInt8} (copying : system.pc reader = .copying)
    (pc : next.pc = Function.update system.pc reader (.clearing value system.raised.length))
    (raised : next.raised = system.raised)
    (delivered : next.delivered = system.delivered) : next.Accounted := by
  have events := deliveredEvents_eq delivered
  have fresh := accounted.fresh (.inr ⟨reader, copying⟩)
  have others := accounted.alone reader copying
  -- Who is clearing now is either the reader, with the latest event, or was before.
  have clearing_cases {other : Pid} {value' : UInt8} {event : Nat}
      (clearing : next.pc other = .clearing value' event) :
      (other = reader ∧ event = system.raised.length) ∨
        (other ≠ reader ∧ system.pc other = .clearing value' event) := by
    by_cases same : other = reader
    · rw [pc, same, Function.update_self] at clearing
      exact .inl ⟨same, (Pc.clearing.inj clearing).2.symm⟩
    · rw [pc, Function.update_of_ne same] at clearing
      exact .inr ⟨same, clearing⟩
  constructor
  case distinct => exact events ▸ accounted.distinct
  case raised => simpa only [events, raised] using accounted.raised
  case held =>
    intro other value' event clearing
    rw [raised, events]
    rcases clearing_cases clearing with ⟨-, rfl⟩ | ⟨-, clearing⟩
    · exact ⟨fresh.1, Nat.le_refl _, fresh.2⟩
    · exact accounted.held other value' event clearing
  case heldOnce =>
    intro first second value' value'' event clearing clearing'
    rcases clearing_cases clearing with ⟨rfl, rfl⟩ | ⟨different, old⟩ <;>
      rcases clearing_cases clearing' with ⟨rfl, latest⟩ | ⟨different', old'⟩
    · rfl
    · exact absurd (.inr ⟨_, old'⟩) (others second different')
    · exact absurd (.inr ⟨_, latest ▸ old⟩) (others first different)
    · exact accounted.heldOnce first second value' value'' event old old'
  case fresh =>
    rw [raised, events]
    exact fun _ => fresh
  case alone =>
    intro copier copying'
    rw [pc] at copying'
    obtain ⟨different, copying'⟩ := of_update_eq copying' (by simp)
    exact absurd (.inl copying') (others copier different)

theorem Accounted.cleared {system next : System Pid} (accounted : system.Accounted)
    {reader : Pid} {value : UInt8} {event : Nat}
    (clearing : system.pc reader = .clearing value event)
    (evPress : next.dev.evPress = false)
    (pc : next.pc = Function.update system.pc reader .idle)
    (raised : next.raised = system.raised)
    (delivered : next.delivered = system.delivered ++ [(value, event)]) :
    next.Accounted := by
  have events : next.deliveredEvents = system.deliveredEvents ++ [event] := by
    rw [deliveredEvents, delivered, List.map_append]
    rfl
  obtain ⟨positive, bound, undelivered⟩ := accounted.held reader value event clearing
  have clearing_of {other : Pid} {value' : UInt8} {event' : Nat}
      (clearing' : next.pc other = .clearing value' event') :
      other ≠ reader ∧ system.pc other = .clearing value' event' := by
    rw [pc] at clearing'
    exact of_update_eq clearing' (by simp)
  have copying_of {other : Pid} (copying : next.pc other = .copying) :
      other ≠ reader ∧ system.pc other = .copying := by
    rw [pc] at copying
    exact of_update_eq copying (by simp)
  constructor
  case distinct =>
    rw [events]
    refine List.nodup_append.mpr ⟨accounted.distinct, List.nodup_singleton _, ?_⟩
    intro earlier member last single same
    rw [List.mem_singleton.mp single] at same
    exact undelivered (same ▸ member)
  case raised =>
    intro event' member
    rw [events, List.mem_append, List.mem_singleton] at member
    rw [raised]
    rcases member with earlier | rfl
    · exact accounted.raised event' earlier
    · exact ⟨positive, bound⟩
  case held =>
    intro other value' event' clearing'
    obtain ⟨different, clearing'⟩ := clearing_of clearing'
    obtain ⟨positive', bound', undelivered'⟩ := accounted.held other value' event' clearing'
    rw [raised, events, List.mem_append, List.mem_singleton]
    refine ⟨positive', bound', ?_⟩
    rintro (earlier | rfl)
    · exact undelivered' earlier
    · exact different (accounted.heldOnce other reader value' value _ clearing' clearing)
  case heldOnce =>
    intro first second value' value'' event' clearing' clearing''
    exact accounted.heldOnce first second value' value'' event' (clearing_of clearing').2
      (clearing_of clearing'').2
  case fresh =>
    rintro (pressed | ⟨copier, copying⟩)
    · rw [evPress] at pressed
      contradiction
    · obtain ⟨different, copying⟩ := copying_of copying
      obtain ⟨positive', latest⟩ := accounted.fresh (.inr ⟨copier, copying⟩)
      rw [raised, events, List.mem_append, List.mem_singleton]
      refine ⟨positive', ?_⟩
      rintro (earlier | rfl)
      · exact latest earlier
      · exact accounted.alone copier copying reader different.symm (.inr ⟨value, clearing⟩)
  case alone =>
    intro copier copying other different inHand
    refine accounted.alone copier (copying_of copying).2 other different
      (.imp (fun copying' => (copying_of copying').2) ?_ inHand)
    rintro ⟨value', clearing'⟩
    rw [raised] at clearing'
    exact ⟨value', (clearing_of clearing').2⟩

theorem step_accounted (driver : Driver) :
    (step driver : Step (System Pid) (Event Pid)).Preserves PassesAlone Accounted := by
  intro system event next accounted alone taken
  cases effect_of_step taken with
  | raise handled raises evPress pc raised delivered => exact accounted.raise pc raised delivered
  | quiet evPress saved pc raised delivered =>
      exact accounted.outside evPress (fun reader => .inl (congrFun pc reader)) raised delivered
  | outside dev pc raised delivered =>
      exact accounted.outside (congrArg Dev.evPress dev) pc raised delivered
  | pass reader passes dev pc raised delivered =>
      rcases passes with ⟨rfl, pressed⟩ | rfl
      · exact accounted.pass pressed (alone pressed) pc raised delivered
      · exact accounted.pass alone.1 alone.2 pc raised delivered
  | copied reader copying dev pc raised delivered =>
      exact accounted.copied copying pc raised delivered
  | cleared reader value event clearing dev pc raised delivered =>
      exact accounted.cleared clearing (congrArg Dev.evPress dev) pc raised delivered

end System

/-- For each of the five drivers, in every run in which no reader goes past the test
because of a signal while `ev_press` is 0, or while another reader has the latest event in
hand, the reads that returned 1 handed over distinct key events, each raised before. -/
theorem delivered_at_most_once (driver : Driver) (events : List (Event Pid))
    {final : System Pid}
    (alone : (System.step driver).Along PassesAlone System.initial events)
    (reached : (System.step driver).run System.initial events = some final) :
    final.AtMostOnce :=
  ((System.step_accounted driver).run System.initial_accounted alone reached).atMostOnce

/-- One press of K1 and one read. -/
def pressAndRead : List (Event Unit) :=
  [.handler (.irq 0 fun _ => false), .read () 1 false, .test (), .copy () true, .clear ()]

theorem pressAndRead_delivered :
    ∃ final, (System.step .sixthDrv).run System.initial pressAndRead = some final ∧
      final.AtMostOnce ∧ final.deliveredEvents = [1] := by
  refine ⟨_, rfl, delivered_at_most_once .sixthDrv pressAndRead ?_ rfl, rfl⟩
  exact ⟨trivial, trivial, fun _ _ different => absurd rfl different, trivial, trivial, trivial⟩

/-- A read whose sleep is broken by a signal when no key was ever pressed. -/
def signalledRead : List (Event Unit) := [.read () 1 false, .signal (), .copy () true, .clear ()]

/-- Two readers that both test before either clears, after one press of K1. -/
def overlappingReads : List (Event Bool) :=
  [.handler (.irq 0 fun _ => false), .handler (.expire fun _ => false),
    .read true 1 false, .read false 1 false, .test true, .test false,
    .copy true true, .clear true, .copy false true, .clear false]

theorem reads_exceed_events :
    (∃ final, (System.step .buttonsAll).run System.initial signalledRead = some final ∧
      ¬ final.AtMostOnce) ∧
    ∃ final, (System.step .buttonsAll).run System.initial overlappingReads = some final ∧
      ¬ final.AtMostOnce := by
  constructor
  · exact ⟨_, rfl, fun once => absurd once.count (by decide)⟩
  · exact ⟨_, rfl, fun once => absurd once.count (by decide)⟩

end Mini2440.Buttons.CharDev
