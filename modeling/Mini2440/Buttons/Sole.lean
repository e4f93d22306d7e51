import Mini2440.Buttons.Latest

/-!
# A device with one reader

With a single reader whose sleep no signal breaks, the reads hand over the values of distinct
key events in the order of the events.  The latest is among them as soon as `ev_press` is 0,
unless it was raised between the copy and the clearing of a read.
-/

namespace Mini2440.Buttons.CharDev

open Transition

/-- The reader is between the copy and the clearing. -/
def Pc.isClearing : Pc → Bool
  | .clearing .. => true
  | .idle | .testing _ | .copying => false

/-- The device with its only reader; `late` tells that the latest key event was raised
between the copy and the clearing of a read. -/
structure Sole where
  system : System Unit
  late : Bool

namespace System

/-- The values that the reads have handed over, in order. -/
def heard (system : System Unit) : List UInt8 := system.delivered.map (·.1)

/-- The key event that was handed over last, 0 for none. -/
def lastEvent (system : System Unit) : Nat := system.deliveredEvents.getLastD 0

end System

namespace Sole

/-- The device is open, and no key event was raised. -/
def initial : Sole := ⟨.initial, false⟩

/-- A step of the device, which tells whether a key event comes late. -/
def step (driver : Driver) : Step Sole (Event Unit) := fun sole event =>
  (System.step driver sole.system event).map fun next =>
    { system := next
      late :=
        if next.raised = sole.system.raised then sole.late
        else (sole.system.pc ()).isClearing }

/-- Each read handed over a key event of its own, in the order of the events, and one that
has not been handed over is the latest or has been overwritten. -/
structure Orderly (sole : Sole) : Prop where
  heard : sole.system.heard.Sublist (sole.system.raised.take sole.system.lastEvent)
  last : sole.system.lastValue = (sole.system.raised.take sole.system.lastEvent).getLast?
  bound : sole.system.lastEvent ≤ sole.system.raised.length
  saved : sole.system.raised = [] ∨
    sole.system.raised.getLast? = some sole.system.dev.gSaveKeyVal
  fresh : sole.system.dev.evPress = true →
    sole.system.lastEvent < sole.system.raised.length
  copying : sole.system.pc () = .copying → sole.system.dev.evPress = true
  clearing : ∀ value event, sole.system.pc () = .clearing value event →
    sole.system.lastEvent < event ∧ event ≤ sole.system.raised.length ∧
      (sole.system.raised.take event).getLast? = some value ∧
      (event = sole.system.raised.length ∨ sole.late = true)
  rest : sole.system.dev.evPress = false →
    sole.late = true ∨ sole.system.lastEvent = sole.system.raised.length

theorem initial_orderly : initial.Orderly := by
  constructor <;> simp [initial, System.initial, System.heard, System.lastEvent,
    System.delivered, System.deliveredEvents, System.lastValue]

theorem Orderly.sublist {sole : Sole} (orderly : sole.Orderly) :
    sole.system.heard.Sublist sole.system.raised :=
  orderly.heard.trans (List.take_sublist _ _)

/-- With `ev_press` 0, the reader has heard the latest event, or that one came late. -/
theorem Orderly.latest {sole : Sole} (orderly : sole.Orderly)
    (cleared : sole.system.dev.evPress = false) :
    sole.late = true ∨ sole.system.heard.getLast? = sole.system.raised.getLast? := by
  refine (orderly.rest cleared).imp id fun latest => ?_
  have last := orderly.last
  rwa [latest, List.take_length] at last

theorem heard_eq {system next : System Unit} (delivered : next.delivered = system.delivered) :
    next.heard = system.heard := by
  rw [System.heard, delivered, System.heard]

theorem lastEvent_eq {system next : System Unit}
    (delivered : next.delivered = system.delivered) : next.lastEvent = system.lastEvent := by
  rw [System.lastEvent, System.deliveredEvents_eq delivered, System.lastEvent]

/-- Steps that raise no event, hand over none and leave flag and value alone. -/
theorem Orderly.keep {sole next : Sole} (orderly : sole.Orderly)
    (late : next.late = sole.late)
    (evPress : next.system.dev.evPress = sole.system.dev.evPress)
    (saved : next.system.dev.gSaveKeyVal = sole.system.dev.gSaveKeyVal)
    (raised : next.system.raised = sole.system.raised)
    (delivered : next.system.delivered = sole.system.delivered)
    (copying : next.system.pc () = .copying → sole.system.dev.evPress = true)
    (clearing : ∀ value event, next.system.pc () = .clearing value event →
      sole.system.lastEvent < event ∧ event ≤ sole.system.raised.length ∧
        (sole.system.raised.take event).getLast? = some value ∧
        (event = sole.system.raised.length ∨ sole.late = true)) : next.Orderly := by
  have lastEvent := lastEvent_eq delivered
  constructor
  case heard => simpa only [heard_eq delivered, raised, lastEvent] using orderly.heard
  case last =>
    simpa only [System.lastValue_eq delivered, raised, lastEvent] using orderly.last
  case bound => simpa only [raised, lastEvent] using orderly.bound
  case saved => simpa only [raised, saved] using orderly.saved
  case fresh => simpa only [evPress, raised, lastEvent] using orderly.fresh
  case copying => simpa only [evPress] using copying
  case clearing => simpa only [raised, lastEvent, late] using clearing
  case rest => simpa only [evPress, raised, lastEvent, late] using orderly.rest

theorem Orderly.raise {sole next : Sole} {value : UInt8} (orderly : sole.Orderly)
    (late : next.late = (sole.system.pc ()).isClearing)
    (evPress : next.system.dev.evPress = true) (pc : next.system.pc = sole.system.pc)
    (saved : next.system.dev.gSaveKeyVal = value)
    (raised : next.system.raised = sole.system.raised ++ [value])
    (delivered : next.system.delivered = sole.system.delivered) : next.Orderly := by
  have lastEvent := lastEvent_eq delivered
  have bound := orderly.bound
  have longer : next.system.raised.length = sole.system.raised.length + 1 := by simp [raised]
  have same (count : Nat) (inRange : count ≤ sole.system.raised.length) :
      next.system.raised.take count = sole.system.raised.take count := by
    rw [raised, List.take_append_of_le_length inRange]
  constructor
  case heard =>
    rw [heard_eq delivered, lastEvent, same _ bound]
    exact orderly.heard
  case last =>
    rw [System.lastValue_eq delivered, lastEvent, same _ bound]
    exact orderly.last
  case bound => omega
  case saved =>
    right
    rw [raised, List.getLast?_concat, saved]
  case fresh =>
    intro _
    omega
  case copying => exact fun _ => evPress
  case clearing =>
    intro copied event clearing
    rw [pc] at clearing
    obtain ⟨later, inRange, copied_eq, -⟩ := orderly.clearing copied event clearing
    refine ⟨by omega, by omega, ?_, .inr ?_⟩
    · rw [same _ inRange]
      exact copied_eq
    · rw [late, clearing]
      rfl
  case rest =>
    intro cleared
    rw [evPress] at cleared
    contradiction

theorem Orderly.cleared {sole next : Sole} {value : UInt8} {event : Nat}
    (orderly : sole.Orderly) (clearing : sole.system.pc () = .clearing value event)
    (late : next.late = sole.late) (evPress : next.system.dev.evPress = false)
    (saved : next.system.dev.gSaveKeyVal = sole.system.dev.gSaveKeyVal)
    (idle : next.system.pc () = .idle)
    (raised : next.system.raised = sole.system.raised)
    (delivered : next.system.delivered = sole.system.delivered ++ [(value, event)]) :
    next.Orderly := by
  obtain ⟨later, inRange, copied, latest⟩ := orderly.clearing value event clearing
  have heard : next.system.heard = sole.system.heard ++ [value] := by
    rw [System.heard, delivered, List.map_append]
    rfl
  have lastEvent : next.system.lastEvent = event := by
    rw [System.lastEvent, System.deliveredEvents, delivered, List.map_append,
      List.map_singleton, List.getLastD_concat]
  constructor
  case heard =>
    -- The event is later than those before it, so its value comes behind theirs.
    obtain ⟨before, taken⟩ := List.getLast?_eq_some_iff.mp copied
    have length := congrArg List.length taken
    rw [List.length_take_of_le inRange, List.length_append, List.length_singleton] at length
    have earlier : sole.system.raised.take sole.system.lastEvent <+: before := by
      refine List.prefix_of_prefix_length_le (List.take_prefix _ _) ?_ ?_
      · exact (List.prefix_append before [value]).trans (taken ▸ List.take_prefix _ _)
      · rw [List.length_take]
        omega
    rw [heard, lastEvent, raised, taken]
    exact (orderly.heard.trans earlier.sublist).append (List.Sublist.refl _)
  case last =>
    rw [System.lastValue, lastEvent, raised, copied, delivered, List.map_append,
      List.map_singleton, List.getLast?_concat]
  case bound => rwa [lastEvent, raised]
  case saved => simpa only [raised, saved] using orderly.saved
  case fresh =>
    intro pressed
    rw [evPress] at pressed
    contradiction
  case copying =>
    intro copying
    rw [idle] at copying
    contradiction
  case clearing =>
    intro value' event' clearing'
    rw [idle] at clearing'
    contradiction
  case rest =>
    intro _
    rw [lastEvent, raised, late]
    exact latest.symm

/-- A signal does not break the sleep of a read. -/
def Undisturbed (sole : Sole) : Event Unit → Prop
  | .signal _ => sole.system.dev.evPress = true
  | .handler _ | .read .. | .test _ | .copy .. | .clear _ => True

theorem step_orderly (driver : Driver) : (step driver).Preserves Undisturbed Orderly := by
  intro sole event next orderly undisturbed taken
  obtain ⟨system, stepped, rfl⟩ := Option.map_eq_some_iff.mp taken
  cases System.effect_of_step stepped with
  | raise handled raises evPress pc raised delivered =>
      refine orderly.raise ?_ evPress pc rfl raised delivered
      exact if_neg fun same => by simp [raised] at same
  | quiet evPress saved pc raised delivered =>
      refine orderly.keep (if_pos raised) evPress saved raised delivered ?_ ?_
      · exact pc ▸ orderly.copying
      · exact pc ▸ orderly.clearing
  | outside dev pc raised delivered =>
      refine orderly.keep (if_pos raised) (congrArg _ dev) (congrArg _ dev) raised delivered ?_ ?_
      · rcases pc () with same | idle | ⟨nonblock, testing⟩
        · exact same ▸ orderly.copying
        · simp [idle]
        · simp [testing]
      · rcases pc () with same | idle | ⟨nonblock, testing⟩
        · exact same ▸ orderly.clearing
        · simp [idle]
        · simp [testing]
  | pass reader passes dev pc raised delivered =>
      refine orderly.keep (if_pos raised) (congrArg _ dev) (congrArg _ dev) raised delivered ?_ ?_
      · intro _
        rcases passes with ⟨rfl, pressed⟩ | rfl
        · exact pressed
        · exact undisturbed
      · simp [pc]
  | copied reader copying dev pc raised delivered =>
      refine orderly.keep (if_pos raised) (congrArg _ dev) (congrArg _ dev) raised delivered ?_ ?_
      · simp [pc]
      · intro value event clearing
        rw [pc, Function.update_self] at clearing
        obtain ⟨rfl, rfl⟩ := Pc.clearing.inj clearing
        have fresh := orderly.fresh (orderly.copying copying)
        refine ⟨fresh, Nat.le_refl _, ?_, .inl rfl⟩
        rw [List.take_length]
        refine orderly.saved.resolve_left fun none_raised => ?_
        simp [none_raised] at fresh
  | cleared reader value event clearing dev pc raised delivered =>
      refine orderly.cleared clearing (if_pos raised) (congrArg Dev.evPress dev) ?_ ?_ raised
        delivered
      · simp [dev]
      · simp [pc]

end Sole

end Mini2440.Buttons.CharDev
