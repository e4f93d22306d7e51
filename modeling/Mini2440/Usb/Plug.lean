import Mini2440.Lib.Ledger
import Mini2440.Lib.Transition

/-!
# Mice that come and go

The probe of `12th-usb/usbmouse.c` keeps the input device, the buffer and the URB of a mouse
in static variables, which the next probe overwrites; the handler and the disconnect use what
they find there, whichever mouse they are called for.  Nothing is lost and nothing given back
twice exactly when the mice are attached one at a time, but for the input device, which every
disconnect gives back twice.
-/

namespace Mini2440.Usb

open Transition

/-- The static variables, with 0 for `NULL`, what the kernel has handed out to the driver,
the URBs that are submitted, the mice that the driver is bound to, and how many have been
disconnected.  A buffer is handed out for a device and a length. -/
structure Mice (Device : Type) where
  ukDev : Nat
  usbBuf : Nat
  len : Nat
  ukUrb : Nat
  inputs : Ledger Unit
  buffers : Ledger (Device × Nat)
  urbs : Ledger Unit
  submitted : List Nat
  attached : List Device
  disconnects : Nat

namespace Mice

variable {Device : Type}

/-- The module is loaded. -/
def loaded : Mice Device := ⟨0, 0, 0, 0, .empty, .empty, .empty, [], [], 0⟩

/-- `usb_submit_urb(uk_urb)`, which refuses a URB that is submitted already. -/
def submit (mice : Mice Device) : Mice Device :=
  { mice with
    urbs := mice.urbs.use mice.ukUrb
    submitted :=
      if mice.ukUrb ∈ mice.submitted then mice.submitted
      else mice.submitted ++ [mice.ukUrb] }

/-- What `usbmouse_as_key_irq` touches before it submits the URB again; it sends to the input
device only what has changed. -/
def report (changed : Bool) (mice : Mice Device) : Mice Device :=
  { mice with
    buffers := mice.buffers.use mice.usbBuf
    inputs := if changed then mice.inputs.use mice.ukDev else mice.inputs }

/-- `usbmouse_as_key_irq`. -/
def usbmouseAsKeyIrq (changed : Bool) (mice : Mice Device) : Mice Device :=
  (mice.report changed).submit

/-- `usbmouse_as_key_probe`; the allocations succeed. -/
def usbmouseAsKeyProbe (dev : Device) (wMaxPacketSize : Nat) (mice : Mice Device) :
    Mice Device :=
  let mice := { mice with ukDev := mice.inputs.next, inputs := mice.inputs.acquire () }
  let mice := { mice with len := wMaxPacketSize }
  let mice := { mice with
    usbBuf := mice.buffers.next
    buffers := mice.buffers.acquire (dev, mice.len) }
  let mice := { mice with ukUrb := mice.urbs.next, urbs := mice.urbs.acquire () }
  { mice.submit with attached := mice.attached ++ [dev] }

/-- `usb_kill_urb(uk_urb)`: a URB that is submitted completes, and is not submitted again. -/
def kill (changed : Bool) (mice : Mice Device) : Mice Device :=
  let mice := { mice with urbs := mice.urbs.use mice.ukUrb }
  if mice.ukUrb ∈ mice.submitted then
    ({ mice with submitted := mice.submitted.erase mice.ukUrb } : Mice Device).report changed
  else mice

variable [DecidableEq Device]

/-- `usbmouse_as_key_disconnect`; `input_unregister_device` gives the input device back, and
so does `input_free_device`. -/
def usbmouseAsKeyDisconnect (dev : Device) (changed : Bool) (mice : Mice Device) :
    Mice Device :=
  let mice := mice.kill changed
  let mice := { mice with urbs := mice.urbs.release mice.ukUrb () }
  let mice := { mice with buffers := mice.buffers.release mice.usbBuf (dev, mice.len) }
  let mice := { mice with inputs := mice.inputs.release mice.ukDev () }
  let mice := { mice with inputs := mice.inputs.release mice.ukDev () }
  { mice with attached := mice.attached.erase dev, disconnects := mice.disconnects + 1 }

end Mice

/-- What the USB core calls. -/
inductive PlugEvent (Device : Type) where
  | probe (dev : Device) (wMaxPacketSize : Nat)
  | complete (urb : Nat) (changed : Bool)
  | disconnect (dev : Device) (changed : Bool)

namespace Mice

variable {Device : Type}

/-- Nothing was used or given back that was not held, but for the second giving back of the
input device in each disconnect; what is held can be found from the static variables; and
with no mouse nothing is. -/
structure Tidy (mice : Mice Device) : Prop where
  urbFaults : mice.urbs.faults = 0
  bufferFaults : mice.buffers.faults = 0
  inputFaults : mice.inputs.faults = mice.disconnects
  urbs : ∀ entry ∈ mice.urbs.held, entry.1 = mice.ukUrb
  buffers : ∀ entry ∈ mice.buffers.held, entry.1 = mice.usbBuf
  inputs : ∀ entry ∈ mice.inputs.held, entry.1 = mice.ukDev
  unplugged : mice.attached = [] → mice.urbs.held = [] ∧ mice.buffers.held = [] ∧
    mice.inputs.held = [] ∧ mice.submitted = []

/-- A mouse is attached only when no other is. -/
def OneAtATime (mice : Mice Device) : PlugEvent Device → Prop
  | .probe dev _ => dev ∉ mice.attached → mice.attached = []
  | .complete .. | .disconnect .. => True

/-- With one mouse at most, what is held is what the static variables say. -/
structure Single (mice : Mice Device) : Prop where
  urbFaults : mice.urbs.faults = 0
  bufferFaults : mice.buffers.faults = 0
  inputFaults : mice.inputs.faults = mice.disconnects
  fresh : mice.urbs.Fresh
  held : (mice.attached = [] ∧ mice.urbs.held = [] ∧ mice.buffers.held = [] ∧
      mice.inputs.held = [] ∧ mice.submitted = []) ∨
    ∃ dev, mice.attached = [dev] ∧ mice.urbs.held = [(mice.ukUrb, ())] ∧
      mice.buffers.held = [(mice.usbBuf, (dev, mice.len))] ∧
      mice.inputs.held = [(mice.ukDev, ())] ∧ mice.submitted = [mice.ukUrb]

theorem loaded_single : (loaded : Mice Device).Single :=
  ⟨rfl, rfl, rfl, Ledger.empty_fresh, .inl ⟨rfl, rfl, rfl, rfl, rfl⟩⟩

theorem Single.tidy {mice : Mice Device} (single : mice.Single) : mice.Tidy := by
  rcases single.held with ⟨none_attached, urbs, buffers, inputs, submitted⟩ |
    ⟨dev, attached, urbs, buffers, inputs, submitted⟩
  · refine ⟨single.urbFaults, single.bufferFaults, single.inputFaults, ?_, ?_, ?_,
      fun _ => ⟨urbs, buffers, inputs, submitted⟩⟩
    · simp [urbs]
    · simp [buffers]
    · simp [inputs]
  · refine ⟨single.urbFaults, single.bufferFaults, single.inputFaults, ?_, ?_, ?_, ?_⟩
    · simp [urbs]
    · simp [buffers]
    · simp [inputs]
    · simp [attached]

/-! ## One call -/

/-- The first mouse. -/
theorem Single.probe {mice : Mice Device} (single : mice.Single)
    (none_attached : mice.attached = []) (dev : Device) (wMaxPacketSize : Nat) :
    (mice.usbmouseAsKeyProbe dev wMaxPacketSize).Single := by
  obtain ⟨-, urbs, buffers, inputs, submitted⟩ | ⟨other, attached, -⟩ := single.held
  · have held : (mice.urbs.next, ()) ∈ (mice.urbs.acquire ()).held :=
      List.mem_append_right _ (List.mem_singleton_self _)
    have used := Ledger.use_of_held held
    refine ⟨?_, single.bufferFaults, single.inputFaults, ?_, .inr ⟨dev, ?_⟩⟩
    · simp only [usbmouseAsKeyProbe, submit, used]
      exact single.urbFaults
    · simp only [usbmouseAsKeyProbe, submit, used]
      exact single.fresh.acquire ()
    · simp only [usbmouseAsKeyProbe, submit, used]
      simp [Ledger.acquire, none_attached, urbs, buffers, inputs, submitted]
  · rw [none_attached] at attached
    contradiction

/-- What the handler touches is held. -/
theorem report_eq (mice : Mice Device) {dev : Device}
    (buffers : mice.buffers.held = [(mice.usbBuf, (dev, mice.len))])
    (inputs : mice.inputs.held = [(mice.ukDev, ())]) (changed : Bool) :
    mice.report changed = mice := by
  have usbBuf : mice.buffers.use mice.usbBuf = mice.buffers :=
    Ledger.use_of_held (buffers ▸ List.mem_singleton_self _)
  have ukDev : mice.inputs.use mice.ukDev = mice.inputs :=
    Ledger.use_of_held (inputs ▸ List.mem_singleton_self _)
  simp only [report, usbBuf, ukDev, ite_self]

/-- A completion of the only mouse leaves all as it was. -/
theorem Single.complete {mice : Mice Device} (single : mice.Single) {urb : Nat}
    (submitted : urb ∈ mice.submitted) (changed : Bool) :
    ({ mice with submitted := mice.submitted.erase urb } : Mice Device).usbmouseAsKeyIrq
      changed = mice := by
  obtain ⟨-, -, -, -, none_submitted⟩ | ⟨dev, -, urbs, buffers, inputs, only⟩ := single.held
  · rw [none_submitted] at submitted
    exact absurd submitted List.not_mem_nil
  · have ukUrb : mice.urbs.use mice.ukUrb = mice.urbs :=
      Ledger.use_of_held (urbs ▸ List.mem_singleton_self _)
    obtain rfl : urb = mice.ukUrb := by simpa [only] using submitted
    have reported := report_eq
      ({ mice with submitted := mice.submitted.erase mice.ukUrb } : Mice Device) buffers inputs
      changed
    rw [usbmouseAsKeyIrq, reported]
    simp only [submit, ukUrb, only, List.erase_cons_head, List.not_mem_nil, if_false,
      List.nil_append]
    rw [← only]

/-- A second mouse leaves the URB of the first where no static variable leads to it. -/
theorem Single.second {mice : Mice Device} (single : mice.Single)
    (some_attached : mice.attached ≠ []) (dev : Device) (wMaxPacketSize : Nat) :
    ¬ (mice.usbmouseAsKeyProbe dev wMaxPacketSize).Tidy := by
  obtain ⟨none_attached, -⟩ | ⟨first, attached, urbs, -⟩ := single.held
  · exact absurd none_attached some_attached
  · intro tidy
    have held : (mice.urbs.next, ()) ∈ (mice.urbs.acquire ()).held :=
      List.mem_append_right _ (List.mem_singleton_self _)
    have older : (mice.ukUrb, ()) ∈ (mice.usbmouseAsKeyProbe dev wMaxPacketSize).urbs.held := by
      simp only [usbmouseAsKeyProbe, submit, Ledger.use_of_held held]
      refine List.mem_append_left _ ?_
      rw [urbs]
      exact List.mem_singleton_self _
    have same : mice.ukUrb = mice.urbs.next := tidy.urbs _ older
    have below := single.fresh (mice.ukUrb, ()) (urbs ▸ List.mem_singleton_self _)
    exact absurd same (Nat.ne_of_lt below)

variable [DecidableEq Device]

/-- Any number of mice, attached and detached in any order. -/
def step : Step (Mice Device) (PlugEvent Device)
  | mice, .probe dev wMaxPacketSize =>
      if dev ∉ mice.attached then some (mice.usbmouseAsKeyProbe dev wMaxPacketSize) else none
  | mice, .complete urb changed =>
      if urb ∈ mice.submitted then
        some (({ mice with submitted := mice.submitted.erase urb } : Mice Device).usbmouseAsKeyIrq
          changed)
      else none
  | mice, .disconnect dev changed =>
      if dev ∈ mice.attached then some (mice.usbmouseAsKeyDisconnect dev changed) else none

/-- The only mouse goes: nothing is held, and the input device is given back a second time. -/
theorem Single.disconnect {mice : Mice Device} (single : mice.Single) {dev : Device}
    (bound : dev ∈ mice.attached) (changed : Bool) :
    (mice.usbmouseAsKeyDisconnect dev changed).Single := by
  obtain ⟨none_attached, -⟩ | ⟨only, attached, urbs, buffers, inputs, submitted⟩ := single.held
  · rw [none_attached] at bound
    exact absurd bound List.not_mem_nil
  · obtain rfl : dev = only := by simpa [attached] using bound
    have killed : mice.kill changed = { mice with submitted := [] } := by
      have ukUrb : mice.urbs.use mice.ukUrb = mice.urbs :=
        Ledger.use_of_held (urbs ▸ List.mem_singleton_self _)
      have member : mice.ukUrb ∈ mice.submitted := submitted ▸ List.mem_singleton_self _
      have reported := report_eq
        ({ mice with submitted := mice.submitted.erase mice.ukUrb } : Mice Device) buffers inputs
        changed
      simp only [kill, ukUrb, if_pos member]
      rw [reported, submitted, List.erase_cons_head]
    have urb := Ledger.release_only urbs
    have buffer := Ledger.release_only buffers
    have input := Ledger.release_only inputs
    have again := Ledger.release_none (show ({ mice.inputs with held := [] } : Ledger Unit).held =
      [] from rfl) mice.ukDev ()
    simp only [usbmouseAsKeyDisconnect, killed, urb, buffer, input, again, attached,
      List.erase_cons_head]
    refine ⟨single.urbFaults, single.bufferFaults, congrArg (· + 1) single.inputFaults, ?_,
      .inl ⟨rfl, rfl, rfl, rfl, rfl⟩⟩
    intro entry member
    simp at member

/-- With one mouse at a time, the laws hold; and only so. -/
theorem step_single : (step : Step (Mice Device) (PlugEvent Device)).Preserves OneAtATime
    Single := by
  intro mice event next single alone taken
  cases event with
  | probe dev wMaxPacketSize =>
      simp only [step] at taken
      split at taken
      next new =>
          obtain rfl := Option.some.inj taken
          exact single.probe (alone new) dev wMaxPacketSize
      next => contradiction
  | complete urb changed =>
      simp only [step] at taken
      split at taken
      next submitted =>
          obtain rfl := Option.some.inj taken
          rwa [single.complete submitted changed]
      next => contradiction
  | disconnect dev changed =>
      simp only [step] at taken
      split at taken
      next bound =>
          obtain rfl := Option.some.inj taken
          exact single.disconnect bound changed
      next => contradiction

/-- The event leaves the books in order. -/
def LeavesTidy (mice : Mice Device) (event : PlugEvent Device) : Prop :=
  ∀ next, step mice event = some next → next.Tidy

theorem Single.leavesTidy_iff {mice : Mice Device} (single : mice.Single)
    (event : PlugEvent Device) : mice.LeavesTidy event ↔ mice.OneAtATime event := by
  constructor
  · intro leaves
    cases event with
    | probe dev wMaxPacketSize =>
        intro new
        by_contra some_attached
        exact single.second some_attached dev wMaxPacketSize (leaves _ (if_pos new))
    | complete urb changed => trivial
    | disconnect dev changed => trivial
  · exact fun alone next taken => (step_single mice event next single alone taken).tidy

end Mice

/-- For any number of mice, and every order of probes, completions and disconnects: the books
stay in order exactly when each mouse is attached while no other is. -/
theorem tidy_iff_oneAtATime {Device : Type} [DecidableEq Device]
    (events : List (PlugEvent Device)) :
    Mice.step.Along Mice.LeavesTidy Mice.loaded events ↔
      Mice.step.Along Mice.OneAtATime Mice.loaded events :=
  Mice.step_single.along_iff (fun _ event single => single.leavesTidy_iff event)
    Mice.loaded_single events

end Mini2440.Usb
