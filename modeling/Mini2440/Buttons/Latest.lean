import Mini2440.Buttons.Delivery

/-!
# The latest key event

`g_save_key_val` holds one value, so an older event may be overwritten.  The latest one can
be lost only when it comes between the copy and the clearing of a read.
-/

namespace Mini2440.Buttons.CharDev

open Transition

variable {Pid : Type*}

/-- No key event with another value is raised between the copy and the clearing of a
read. -/
def KeepsCopied (driver : Driver) (system : System Pid) : Event Pid → Prop
  | .handler handler => driver.raises system.dev handler = true →
      ∀ after, driver.handle system.dev handler = some after →
        ∀ reader value event, system.pc reader = .clearing value event →
          after.gSaveKeyVal = value
  | .read .. | .test _ | .signal _ | .copy .. | .clear _ => True

namespace System

/-- The value returned by the last read that returned 1. -/
def lastValue (system : System Pid) : Option UInt8 := (system.delivered.map (·.1)).getLast?

/-- With no read in progress and `ev_press` 0, the last read that returned 1 returned the
value of the latest key event. -/
def LatestReturned (system : System Pid) : Prop :=
  (∀ reader, system.pc reader = .idle) → system.dev.evPress = false →
    system.raised = [] ∨ system.lastValue = system.raised.getLast?

/-- The saved value is the latest, so are those the readers have copied, and unless
`ev_press` is set it has been returned. -/
structure Current (system : System Pid) : Prop where
  saved : system.raised = [] ∨ system.raised.getLast? = some system.dev.gSaveKeyVal
  copied : ∀ reader value event, system.pc reader = .clearing value event →
    value = system.dev.gSaveKeyVal
  returned : system.raised = [] ∨ system.dev.evPress = true ∨
    system.lastValue = some system.dev.gSaveKeyVal

theorem initial_current : (initial : System Pid).Current := by
  constructor <;> simp [initial]

theorem lastValue_eq {system next : System Pid} (delivered : next.delivered = system.delivered) :
    next.lastValue = system.lastValue := by
  rw [lastValue, delivered, lastValue]

/-- Steps that leave the events, the flag and the saved value alone. -/
theorem Current.congr {system next : System Pid} (current : system.Current)
    (evPress : next.dev.evPress = system.dev.evPress)
    (saved : next.dev.gSaveKeyVal = system.dev.gSaveKeyVal)
    (raised : next.raised = system.raised) (delivered : next.delivered = system.delivered)
    (copied : ∀ reader value event, next.pc reader = .clearing value event →
      value = system.dev.gSaveKeyVal) : next.Current := by
  refine ⟨?_, ?_, ?_⟩
  · rw [raised, saved]
    exact current.saved
  · rw [saved]
    exact copied
  · rw [raised, evPress, saved, lastValue_eq delivered]
    exact current.returned

theorem Current.latestReturned {system : System Pid} (current : system.Current) :
    system.LatestReturned := by
  intro _ cleared
  rcases current.saved with none_raised | saved
  · exact .inl none_raised
  · rcases current.returned with none_raised | pressed | returned
    · exact .inl none_raised
    · rw [cleared] at pressed
      contradiction
    · exact .inr (returned.trans saved.symm)

variable [DecidableEq Pid]

theorem step_current (driver : Driver) :
    (step driver : Step (System Pid) (Event Pid)).Preserves (KeepsCopied driver) Current := by
  intro system event next current keeps taken
  cases effect_of_step taken with
  | raise handled raises evPress pc raised delivered =>
      refine ⟨?_, ?_, ?_⟩
      · right
        rw [raised, List.getLast?_concat]
      · intro reader value event clearing
        rw [pc] at clearing
        exact (keeps raises _ handled reader value event clearing).symm
      · exact .inr (.inl evPress)
  | quiet evPress saved pc raised delivered =>
      apply current.congr evPress saved raised delivered
      rw [pc]
      exact current.copied
  | outside dev pc raised delivered =>
      apply current.congr (congrArg _ dev) (congrArg _ dev) raised delivered
      intro reader value event clearing
      rcases pc reader with same | idle | ⟨nonblock, testing⟩
      · exact current.copied reader value event (same ▸ clearing)
      · simp [idle] at clearing
      · simp [testing] at clearing
  | pass reader passes dev pc raised delivered =>
      apply current.congr (congrArg _ dev) (congrArg _ dev) raised delivered
      intro other value event clearing
      rw [pc] at clearing
      exact current.copied other value event (of_update_eq clearing (by simp)).2
  | copied reader copying dev pc raised delivered =>
      apply current.congr (congrArg _ dev) (congrArg _ dev) raised delivered
      intro other value event clearing
      rw [pc, Function.update_apply] at clearing
      split at clearing
      · exact (Pc.clearing.inj clearing).1.symm
      · exact current.copied other value event clearing
  | cleared reader value event clearing dev pc raised delivered =>
      have latest := current.copied reader value event clearing
      refine ⟨?_, ?_, ?_⟩
      · rw [raised, dev]
        exact current.saved
      · intro other value' event' clearing'
        rw [dev]
        rw [pc] at clearing'
        exact current.copied other value' event' (of_update_eq clearing' (by simp)).2
      · right
        right
        rw [lastValue, delivered, List.map_append, List.map_singleton, List.getLast?_concat,
          dev, latest]

end System

variable [DecidableEq Pid]

/-- For each of the five drivers, in every run in which no key event with another value is
raised between the copy and the clearing of a read, the latest event is the last one
returned whenever no read is in progress and `ev_press` is 0. -/
theorem latest_event_returned (driver : Driver) (events : List (Event Pid))
    {final : System Pid}
    (keeps : (System.step driver).Along (KeepsCopied driver) System.initial events)
    (reached : (System.step driver).run System.initial events = some final) :
    final.LatestReturned :=
  ((System.step_current driver).run System.initial_current keeps reached).latestReturned

theorem pressAndRead_latest :
    ∃ final, (System.step .sixthDrv).run System.initial pressAndRead = some final ∧
      final.LatestReturned := by
  refine ⟨_, rfl, latest_event_returned .sixthDrv pressAndRead ?_ rfl⟩
  refine ⟨?_, trivial, trivial, trivial, trivial, trivial⟩
  intro _ after _ reader value event clearing
  contradiction

/-- A button is released between the copy and the clearing of the read that returns its
press. -/
def releaseWhileClearing (button : Fin 6) : List (Event Unit) :=
  [.handler (.irq button fun _ => false), .handler (.expire fun _ => false),
    .read () 1 false, .test (), .copy () true, .handler (.irq button fun _ => true),
    .handler (.expire fun _ => true), .clear ()]

theorem releaseWhileClearing_lost :
    ∃ final,
      (System.step .buttonsAll).run System.initial (releaseWhileClearing 0) = some final ∧
      ¬ final.LatestReturned := by
  refine ⟨_, rfl, fun returned => ?_⟩
  rcases returned (fun _ => rfl) rfl with none_raised | latest
  · contradiction
  · revert latest
    decide

end Mini2440.Buttons.CharDev
