import Mini2440.Lib.Transition
import Mathlib.Data.Nat.Bitwise

/-!
# The USB mouse as keys

The driver `12th-usb/usbmouse.c`: the three buttons of a boot-protocol mouse are reported
as three keys.  Each report is compared with the byte of the one before, which the handler
keeps in a static variable; the input device that the events go to lives from a probe to
the disconnect that follows it.
-/

namespace Mini2440.Usb

open Transition

/-- The keys of the three buttons. -/
inductive Key where
  | l
  | s
  | enter
  deriving DecidableEq, Repr

/-- The bit of the button in the first byte of a report. -/
def Key.bit : Key → Nat
  | .l => 0
  | .s => 1
  | .enter => 2

/-- The mask that the driver tests. -/
def Key.mask : Key → UInt8
  | .l => (1 : UInt8) <<< 0
  | .s => (1 : UInt8) <<< 1
  | .enter => (1 : UInt8) <<< 2

/-- What goes to the input core. -/
inductive InputEvent where
  | key (code : Key) (value : Bool)
  | sync
  deriving DecidableEq, Repr

/-! ## The input device -/

/-- The state of the keys after one event. -/
def applyEvent (keys : Key → Bool) : InputEvent → Key → Bool
  | .key code value => Function.update keys code value
  | .sync => keys

/-- The state of the keys of a device, all released when it is registered. -/
def keyState (sent : List InputEvent) : Key → Bool :=
  sent.foldl applyEvent fun _ => false

/-- Each event changes the state that its key has when it is sent. -/
def ChangesFrom (keys : Key → Bool) : List InputEvent → Prop
  | [] => True
  | .key code value :: rest =>
      keys code ≠ value ∧ ChangesFrom (applyEvent keys (.key code value)) rest
  | .sync :: rest => ChangesFrom keys rest

/-- Each event sent to a device since it was registered changes the state of its key. -/
def EachChanges (sent : List InputEvent) : Prop := ChangesFrom (fun _ => false) sent

theorem changesFrom_append (keys : Key → Bool) (first second : List InputEvent) :
    ChangesFrom keys (first ++ second) ↔
      ChangesFrom keys first ∧ ChangesFrom (first.foldl applyEvent keys) second := by
  induction first generalizing keys with
  | nil => simp [ChangesFrom]
  | cons event first ih =>
      cases event with
      | key code value =>
          simp only [List.cons_append, ChangesFrom, List.foldl_cons, ih, and_assoc]
      | sync => exact ih keys

/-- One key event and its `input_sync`. -/
theorem eachChanges_report (sent : List InputEvent) (code : Key) (value : Bool) :
    EachChanges (sent ++ [.key code value, .sync]) ↔
      EachChanges sent ∧ keyState sent code ≠ value := by
  simp only [EachChanges, changesFrom_append, ChangesFrom, and_true, keyState]

theorem keyState_report (sent : List InputEvent) (code : Key) (value : Bool) :
    keyState (sent ++ [.key code value, .sync]) =
      Function.update (keyState sent) code value := by
  simp only [keyState, List.foldl_append, List.foldl_cons, List.foldl_nil, applyEvent]

/-! ## The driver -/

/-- The static variable of the handler, what was sent to the input device of the mouse
that is attached, and whether the URB is submitted. -/
structure Mouse where
  preVal : UInt8
  ukDev : Option (List InputEvent)
  ukUrb : Bool
  deriving DecidableEq, Repr

/-- The test of one button: a difference from `pre_val` is sent, with its `input_sync`. -/
def reportKey (preVal data : UInt8) (sent : List InputEvent) (key : Key) :
    List InputEvent :=
  if preVal &&& key.mask ≠ data &&& key.mask then
    sent ++ [.key key (data &&& key.mask != 0), .sync]
  else
    sent

namespace Mouse

/-- The handler; `data` is `usb_buf[0]`. -/
def usbmouseAsKeyIrq (data : UInt8) (mouse : Mouse) : Mouse :=
  let ukDev := mouse.ukDev.map fun sent =>
    let sent := reportKey mouse.preVal data sent .l
    let sent := reportKey mouse.preVal data sent .s
    reportKey mouse.preVal data sent .enter
  { preVal := data, ukDev := ukDev, ukUrb := true }

/-- The input device is registered and the URB submitted. -/
def usbmouseAsKeyProbe (mouse : Mouse) : Mouse :=
  { mouse with ukDev := some [], ukUrb := true }

/-- The URB is killed and the input device unregistered. -/
def usbmouseAsKeyDisconnect (mouse : Mouse) : Mouse :=
  { mouse with ukDev := none, ukUrb := false }

/-- The module is loaded. -/
def loaded : Mouse := ⟨0, none, false⟩

end Mouse

/-- What the USB core calls; the completion of a URB that is killed counts as a report. -/
inductive UsbEvent where
  | probe
  | report (data : UInt8)
  | disconnect
  deriving DecidableEq, Repr

/-- The driver, and whether the mouse that is attached has not reported yet. -/
structure Observed where
  mouse : Mouse
  fresh : Bool
  deriving DecidableEq, Repr

namespace Observed

/-- The module is loaded, and no mouse was attached. -/
def initial : Observed := ⟨.loaded, false⟩

/-- One mouse at a time is attached, and a report completes a URB that was submitted. -/
def step : Step Observed UsbEvent
  | obs, .probe =>
      if obs.mouse.ukDev = none then some ⟨obs.mouse.usbmouseAsKeyProbe, true⟩ else none
  | obs, .report data =>
      if obs.mouse.ukDev ≠ none ∧ obs.mouse.ukUrb then
        some ⟨({ obs.mouse with ukUrb := false } : Mouse).usbmouseAsKeyIrq data, false⟩
      else
        none
  | obs, .disconnect =>
      if obs.mouse.ukDev ≠ none then
        some ⟨obs.mouse.usbmouseAsKeyDisconnect, false⟩
      else
        none

end Observed

/-- The button of a key is pressed in a report. -/
def pressed (data : UInt8) (key : Key) : Bool := data.toNat.testBit key.bit

/-- The keys of the device are those of the report, and each event that it was sent has
changed the state of its key. -/
def Follows (sent : List InputEvent) (data : UInt8) : Prop :=
  (∀ key, keyState sent key = pressed data key) ∧ EachChanges sent

/-- After a report the input device that is registered follows it. -/
def Faithful (obs : Observed) : UsbEvent → Prop
  | .report data =>
      ∀ next, obs.step (.report data) = some next →
        ∃ sent, next.mouse.ukDev = some sent ∧ Follows sent data
  | .probe | .disconnect => True

/-- The first report of an attachment finds the three buttons released in the byte that
the handler remembers from before. -/
def FreshMemory (obs : Observed) : UsbEvent → Prop
  | .report _ =>
      obs.mouse.ukDev ≠ none → obs.mouse.ukUrb = true → obs.fresh = true →
        ∀ key, pressed obs.mouse.preVal key = false
  | .probe | .disconnect => True

/-! ## The test of one button -/

theorem and_mask (data : UInt8) (key : Key) :
    (data &&& key.mask).toNat = (pressed data key).toNat * 2 ^ key.bit := by
  rw [UInt8.toNat_and]
  cases key with
  | l => exact Nat.and_two_pow data.toNat 0
  | s => exact Nat.and_two_pow data.toNat 1
  | enter => exact Nat.and_two_pow data.toNat 2

theorem and_mask_eq_iff (first second : UInt8) (key : Key) :
    first &&& key.mask = second &&& key.mask ↔ pressed first key = pressed second key := by
  rw [← UInt8.toNat_inj, and_mask, and_mask,
    Nat.mul_right_cancel_iff (Nat.two_pow_pos key.bit)]
  cases pressed first key <;> cases pressed second key <;> decide

theorem and_mask_ne_zero (data : UInt8) (key : Key) :
    (data &&& key.mask != 0) = pressed data key := by
  have zero := and_mask_eq_iff data 0 key
  have unset : pressed 0 key = false := Nat.zero_testBit key.bit
  rw [UInt8.zero_and, unset] at zero
  cases value : pressed data key <;> simp [zero, value]

theorem reportKey_eq (preVal data : UInt8) (sent : List InputEvent) (key : Key) :
    reportKey preVal data sent key =
      if pressed preVal key = pressed data key then sent
      else sent ++ [.key key (pressed data key), .sync] := by
  simp only [reportKey, ne_eq, and_mask_eq_iff, and_mask_ne_zero, ite_not]

theorem keyState_reportKey (preVal data : UInt8) (sent : List InputEvent) (key other : Key) :
    keyState (reportKey preVal data sent key) other =
      if other = key ∧ pressed preVal key ≠ pressed data key then pressed data key
      else keyState sent other := by
  rw [reportKey_eq]
  split
  next same => simp [same]
  next changed =>
      rw [keyState_report, Function.update_apply]
      simp [changed]

theorem eachChanges_reportKey (preVal data : UInt8) (sent : List InputEvent) (key : Key) :
    EachChanges (reportKey preVal data sent key) ↔
      EachChanges sent ∧
        (pressed preVal key ≠ pressed data key → keyState sent key ≠ pressed data key) := by
  rw [reportKey_eq]
  split
  next same => simp [same]
  next changed => simp [eachChanges_report, changed]

/-! ## A report -/

/-- What the three tests send. -/
def reportKeys (preVal data : UInt8) (sent : List InputEvent) : List InputEvent :=
  reportKey preVal data (reportKey preVal data (reportKey preVal data sent .l) .s) .enter

theorem keyState_reportKeys (preVal data : UInt8) (sent : List InputEvent) (key : Key) :
    keyState (reportKeys preVal data sent) key =
      if pressed preVal key ≠ pressed data key then pressed data key
      else keyState sent key := by
  cases key <;> simp [reportKeys, keyState_reportKey]

theorem eachChanges_reportKeys (preVal data : UInt8) (sent : List InputEvent) :
    EachChanges (reportKeys preVal data sent) ↔
      EachChanges sent ∧ ∀ key, pressed preVal key ≠ pressed data key →
        keyState sent key ≠ pressed data key := by
  have keys (property : Key → Prop) :
      (∀ key, property key) ↔ property .l ∧ property .s ∧ property .enter := by
    constructor
    · intro every
      exact ⟨every .l, every .s, every .enter⟩
    · rintro ⟨atL, atS, atEnter⟩ key
      cases key <;> assumption
  rw [keys]
  simp [reportKeys, eachChanges_reportKey, keyState_reportKey, and_assoc]

/-- The tests send the right events when `pre_val` is the state of the keys, and only then
if that state is the one of a device that was just registered. -/
theorem follows_of_keyState {preVal : UInt8} {sent : List InputEvent}
    (remembered : Follows sent preVal) (data : UInt8) :
    Follows (reportKeys preVal data sent) data := by
  obtain ⟨keys, changes⟩ := remembered
  constructor
  · intro key
    rw [keyState_reportKeys, keys]
    split
    next => rfl
    next same => exact not_not.mp same
  · rw [eachChanges_reportKeys]
    refine ⟨changes, fun key changed => ?_⟩
    rwa [keys]

theorem follows_fresh_iff (preVal data : UInt8) :
    Follows (reportKeys preVal data []) data ↔ ∀ key, pressed preVal key = false := by
  constructor
  · rintro ⟨keys, changes⟩ key
    have state := keys key
    have change := ((eachChanges_reportKeys preVal data []).mp changes).2 key
    have released : keyState [] key = false := rfl
    rw [keyState_reportKeys, released] at state
    rw [released] at change
    cases before : pressed preVal key <;> cases after : pressed data key <;>
      simp_all
  · intro released
    have remembered : Follows [] preVal := ⟨fun key => (released key).symm, trivial⟩
    exact follows_of_keyState remembered data

/-! ## The runs -/

namespace Observed

theorem step_report {obs next : Observed} {data : UInt8}
    (taken : obs.step (.report data) = some next) :
    ∃ sent, obs.mouse.ukDev = some sent ∧ obs.mouse.ukUrb = true ∧ next.fresh = false ∧
      next.mouse.preVal = data ∧
      next.mouse.ukDev = some (reportKeys obs.mouse.preVal data sent) := by
  simp only [step] at taken
  split at taken
  next possible =>
      obtain ⟨sent, attached⟩ := Option.ne_none_iff_exists'.mp possible.1
      obtain rfl := Option.some.inj taken
      refine ⟨sent, attached, possible.2, rfl, rfl, ?_⟩
      simp only [Mouse.usbmouseAsKeyIrq, attached, Option.map_some, reportKeys]
  next => contradiction

/-- The device of the mouse that is attached was sent nothing yet, or follows `pre_val`. -/
structure Remembers (obs : Observed) : Prop where
  fresh : obs.fresh = true → obs.mouse.ukDev = some []
  follows : obs.fresh = false → ∀ sent, obs.mouse.ukDev = some sent →
    Follows sent obs.mouse.preVal

theorem initial_remembers : initial.Remembers where
  fresh := by
    intro fresh
    contradiction
  follows := by
    intro _ sent attached
    contradiction

theorem Remembers.faithful_iff {obs : Observed} (remembers : obs.Remembers)
    (event : UsbEvent) : Faithful obs event ↔ FreshMemory obs event := by
  cases event with
  | probe | disconnect => exact Iff.rfl
  | report data =>
      constructor
      · intro faithful attached submitted fresh
        obtain ⟨next, taken⟩ : ∃ next, obs.step (.report data) = some next := by
          simp [step, attached, submitted]
        obtain ⟨sent, device, -, -, -, nextDevice⟩ := step_report taken
        obtain ⟨sent', device', follows⟩ := faithful next taken
        obtain rfl := Option.some.inj (device.symm.trans (remembers.fresh fresh))
        obtain rfl := Option.some.inj (nextDevice.symm.trans device')
        exact (follows_fresh_iff _ _).mp follows
      · intro released next taken
        obtain ⟨sent, device, submitted, -, -, nextDevice⟩ := step_report taken
        refine ⟨_, nextDevice, ?_⟩
        cases fresh : obs.fresh with
        | true =>
            obtain rfl := Option.some.inj (device.symm.trans (remembers.fresh fresh))
            exact (follows_fresh_iff _ _).mpr (released (by simp [device]) submitted fresh)
        | false => exact follows_of_keyState (remembers.follows fresh sent device) data

theorem step_remembers : step.Preserves Faithful Remembers := by
  intro obs event next remembers faithful taken
  cases event with
  | probe =>
      simp only [step] at taken
      split at taken
      · obtain rfl := Option.some.inj taken
        refine ⟨fun _ => rfl, ?_⟩
        intro notFresh
        contradiction
      · contradiction
  | disconnect =>
      simp only [step] at taken
      split at taken
      · obtain rfl := Option.some.inj taken
        refine ⟨?_, ?_⟩
        · intro fresh
          contradiction
        · intro _ sent attached
          contradiction
      · contradiction
  | report data =>
      obtain ⟨-, -, -, notFresh, preVal, -⟩ := step_report taken
      obtain ⟨sent, device, follows⟩ := faithful next taken
      constructor
      · intro fresh
        rw [notFresh] at fresh
        contradiction
      · intro _ sent' device'
        obtain rfl := Option.some.inj (device.symm.trans device')
        rwa [preVal]

end Observed

/-- The memory of the handler outlives the device that it describes.  In every run of
attachments, reports and detachments, the keys follow each report exactly when the first
report of every attachment finds `pre_val` with the three buttons released. -/
theorem faithful_iff_freshMemory (events : List UsbEvent) :
    Observed.step.Along Faithful Observed.initial events ↔
      Observed.step.Along FreshMemory Observed.initial events := by
  constructor
  · apply Observed.step_remembers.strengthen
    · intro obs event remembers faithful
      exact (remembers.faithful_iff event).mp faithful
    · exact Observed.initial_remembers
  · have preserves : Observed.step.Preserves FreshMemory Observed.Remembers := by
      intro obs event next remembers released taken
      exact Observed.step_remembers obs event next remembers
        ((remembers.faithful_iff event).mpr released) taken
    apply preserves.strengthen
    · intro obs event remembers released
      exact (remembers.faithful_iff event).mpr released
    · exact Observed.initial_remembers

/-- The mouse is pulled out while its left button is held down, and plugged in again. -/
def replugged : List UsbEvent := [.probe, .report 1, .disconnect, .probe, .report 1]

/-- The button is still down, and the new input device has its key released. -/
theorem replugged_not_followed :
    ¬ Observed.step.Along Faithful Observed.initial replugged ∧
      ∃ final, Observed.step.run Observed.initial replugged = some final ∧
        final.mouse.ukDev = some [] ∧ keyState [] .l ≠ pressed 1 .l := by
  refine ⟨?_, _, rfl, rfl, by decide⟩
  intro along
  obtain ⟨sent, device, keys, -⟩ := along.2.2.2.2.1 _ rfl
  obtain rfl := Option.some.inj device
  exact absurd (keys .l) (by decide)

end Mini2440.Usb
