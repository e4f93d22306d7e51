import Mini2440.Lib.Transition
import Mini2440.I2c.Xfer

/-!
# The adapter over many transfers

Calls of `s3c2440_i2c_xfer`, interrupts and timeouts in any order.  A call leaves
`wait_event_timeout` when the state is `STATE_STOP` or when five seconds have passed,
and nothing it does on the way out tells the interrupt handler that the messages are
gone.  The results say exactly when that matters.
-/

namespace Mini2440.I2c

open Overlay Transition

/-- The adapter, and whether a call of `s3c2440_i2c_xfer` is waiting. -/
structure Adapter where
  ctl : Ctl
  inProgress : Bool
  returned : Option Int

/-- A call of the adapter, an interrupt, or the end of the wait. -/
inductive AdapterEvent where
  /-- A call with the buffers as its caller left them. -/
  | xfer (msgs : List I2cMsg) (mem : Nat → UInt8)
  | irq (irq : Irq)
  /-- The waiting call finds `STATE_STOP` in time. -/
  | wake
  /-- The five seconds of the waiting call are over. -/
  | timeout

namespace Adapter

/-- The driver is loaded, and nothing was called. -/
def initial (mem : Nat → UInt8) : Adapter := ⟨i2cBusS3c2440Init mem, false, none⟩

/-- The waiting call returns; `timeout` is what `wait_event_timeout` gave it. -/
def leave (adapter : Adapter) (timeout : Nat) : Adapter where
  ctl := (s3c2440I2cXferReturn timeout adapter.ctl).2
  inProgress := false
  returned := some (s3c2440I2cXferReturn timeout adapter.ctl).1

/-- The adapter lock admits one call at a time; an access fault ends the run. -/
def step : Step Adapter AdapterEvent
  | adapter, .xfer msgs mem =>
      if adapter.inProgress then none
      else
        match s3c2440I2cXfer msgs { adapter.ctl with mem := mem } with
        | .ok ctl => some { adapter with ctl := ctl, inProgress := true }
        | .error _ => none
  | adapter, .irq irq =>
      match deliver adapter.ctl irq with
      | .ok ctl => some { adapter with ctl := ctl }
      | .error _ => none
  | adapter, .wake =>
      if adapter.inProgress ∧ adapter.ctl.data.state = .stop then some (adapter.leave 1)
      else none
  | adapter, .timeout => if adapter.inProgress then some (adapter.leave 0) else none

end Adapter

/-- START or a data byte. -/
def BusEvent.drivesBus : BusEvent → Bool
  | .start .. | .data _ => true
  | .receive _ | .stop _ => false

/-- No byte of a buffer changed, none was read, no START and no data byte went out. -/
structure Quiet (before after : Ctl) : Prop where
  mem : after.mem = before.mem
  accesses : after.accesses = before.accesses
  trace : ∃ new, after.trace = before.trace ++ new ∧ ∀ event ∈ new, event.drivesBus = false

/-- An interrupt taken while no call is in progress is handled quietly. -/
def LateIrqQuiet (adapter : Adapter) : AdapterEvent → Prop
  | .irq irq => adapter.inProgress = false →
      ∃ ctl, deliver adapter.ctl irq = .ok ctl ∧ Quiet adapter.ctl ctl
  | .xfer .. | .wake | .timeout => True

/-- The driver has nothing left to transfer: it is idle or stopped, or it waits for the
acknowledge after which it will stop. -/
def Ctl.drained (ctl : Ctl) : Bool :=
  match ctl.data.state with
  | .idle | .stop => true
  | .start | .write =>
      isLastMsg ctl &&
        match isEndData ctl with
        | .ok atEnd => atEnd
        | .error _ => false
  | .read => false

/-- Where a timeout strikes, nothing is left to transfer. -/
def TimeoutHarmless (adapter : Adapter) : AdapterEvent → Prop
  | .timeout => adapter.inProgress = true → adapter.ctl.drained = true
  | .xfer .. | .irq _ | .wake => True

/-! ## States of the shared record -/

/-- The record is zero, or belongs to the last transfer that was begun. -/
def Ctl.WellFormed (ctl : Ctl) : Prop :=
  ctl.data.state = .idle ∨ ∃ msgs base transfer, Refines msgs base ctl transfer

theorem deliver_of_unhandled {ctl : Ctl} {irq : Irq}
    (unhandled : ∀ entry, entry.data = ctl.data →
      switchState irq.iicstat entry = pure entry) :
    ∃ ctl', deliver ctl irq = .ok ctl' ∧ ctl'.data = ctl.data ∧ Quiet ctl ctl' := by
  obtain ⟨entry, sampled, delivered⟩ := deliver_eq_switchState ctl irq
  rw [delivered, unhandled entry sampled.data, pure_bind]
  refine ⟨_, rfl, sampled.data, sampled.mem, sampled.accesses, [], ?_, by simp⟩
  rw [List.append_nil]
  exact sampled.trace

theorem deliver_idle {ctl : Ctl} (idle : ctl.data.state = .idle) (irq : Irq) :
    ∃ ctl', deliver ctl irq = .ok ctl' ∧ ctl'.data = ctl.data ∧ Quiet ctl ctl' := by
  apply deliver_of_unhandled
  intro entry data
  simp only [switchState, data, idle]

theorem deliver_stop {ctl : Ctl} (stopped : ctl.data.state = .stop) (irq : Irq) :
    ∃ ctl', deliver ctl irq = .ok ctl' ∧ ctl'.data = ctl.data ∧ Quiet ctl ctl' := by
  apply deliver_of_unhandled
  intro entry data
  simp only [switchState, data, stopped]

namespace Current

variable {done rest : List I2cMsg} {msg : I2cMsg} {ctl : Ctl}

/-- While it waits for an acknowledge, nothing is left once the last message ends. -/
theorem drained_eq (current : Current done msg rest ctl)
    (awaits : ctl.data.state.awaitsAck = true) :
    ctl.drained = (rest.isEmpty && decide (msg.len.toNat ≤ ctl.data.curPtr)) := by
  have atEnd : (match isEndData ctl with
      | .ok atEnd => atEnd
      | .error _ => false) = decide (msg.len.toNat ≤ ctl.data.curPtr) := by
    rw [current.isEndData_eq]
    rfl
  rcases XferState.awaitsAck_iff.mp awaits with state | state
  · simp only [Ctl.drained, state, current.isLastMsg_eq, atEnd]
  · simp only [Ctl.drained, state, current.isLastMsg_eq, atEnd]

/-- Then whatever the last bit says, the handler stops the bus. -/
theorem switchState_drained (current : Current done msg rest ctl)
    (awaits : ctl.data.state.awaitsAck = true) (drained : ctl.drained = true)
    (iicSt : UInt32) :
    ∃ err, switchState iicSt ctl = s3c2440I2cStop err ctl := by
  rw [current.drained_eq awaits] at drained
  obtain ⟨last, atEnd⟩ := Bool.and_eq_true_iff.mp drained
  have waiting := XferState.awaitsAck_iff.mp awaits
  cases lastBit : iicSt &&& S3C2410_IICSTAT_LASTBIT != 0 with
  | true =>
      refine ⟨-ENODEV, ?_⟩
      rcases waiting with state | state
      · simp only [switchState, state, stateStart, lastBit, if_true]
      · simp only [switchState, state, stateWrite, lastBit, if_true]
  | false =>
      refine ⟨0, ?_⟩
      rcases waiting with state | state
      · simp only [switchState, state, stateStart, lastBit, Bool.false_eq_true, if_false,
          current.isLastMsg_eq, current.isEndData_eq, pure_bind, drained, if_true]
      · simp only [switchState, state, stateWrite, lastBit, Bool.false_eq_true, if_false,
          current.isLastMsg_eq, current.isEndData_eq, pure_bind, last, atEnd,
          Bool.not_true]

end Current

namespace Refines

variable {msgs : List I2cMsg} {base : List BufAccess} {ctl : Ctl} {transfer : Transfer}

/-- A driver that waits for its last acknowledge handles any interrupt quietly. -/
theorem deliver_drained (refines : Refines msgs base ctl transfer)
    (drained : ctl.drained = true) (irq : Irq) :
    ∃ ctl', I2c.deliver ctl irq = .ok ctl' ∧ Quiet ctl ctl' ∧ ctl'.drained = true := by
  cases refines.status with
  | finished done msg rest split current state =>
      obtain ⟨ctl', delivered, data, quiet⟩ := deliver_stop state irq
      exact ⟨ctl', delivered, quiet, by simp [Ctl.drained, data, state]⟩
  | running done msg rest index split current atSlot =>
      have awaits : ctl.data.state.awaitsAck = true := by
        apply XferState.awaitsAck_iff.mpr
        rcases atSlot.cases with ⟨state, -⟩ | ⟨state, -⟩ | ⟨state, -⟩
        · exact .inl state
        · exact .inr state
        · simp [Ctl.drained, state] at drained
      obtain ⟨entry, sampled, delivered⟩ := deliver_eq_switchState ctl irq
      have current' : Current done msg rest entry := current.congr (by rw [sampled.data])
        (by rw [sampled.data]) (by rw [sampled.data]) (by rw [sampled.data])
      have drained' : entry.drained = true := by
        rw [current'.drained_eq (sampled.data ▸ awaits), sampled.data,
          ← current.drained_eq awaits]
        exact drained
      obtain ⟨err, stops⟩ := current'.switchState_drained (sampled.data ▸ awaits) drained'
        irq.iicstat
      rw [delivered, stops, current'.stop_eq, pure_bind]
      refine ⟨_, rfl, ⟨sampled.mem, sampled.accesses, [stopEvent msg], ?_, ?_⟩, rfl⟩
      · simp [Ctl.writeIiccon, sampled.trace]
      · simp [stopEvent, BusEvent.drivesBus]

/-- Nothing is left exactly when the next slot is the last and waits for an
acknowledge. -/
theorem drained_eq (refines : Refines msgs base ctl transfer) {slot : Slot}
    {slots : List Slot} (remaining : transfer.slots = slot :: slots) :
    ctl.drained = (slot.phase.awaitsAck && decide (slot.action = .stop)) := by
  cases refines.status with
  | finished done msg rest split current state slots_eq result =>
      rw [remaining] at slots_eq
      contradiction
  | running done msg rest index split current atSlot err slots_eq result =>
      rw [msg.slots_drop _ atSlot.le, List.cons_append, remaining] at slots_eq
      rw [(List.cons.inj slots_eq).1, atSlot.phase_eq]
      have closes (ptr : Nat) : (rest.isEmpty && decide (msg.len.toNat ≤ ptr)) =
          decide ((msg.slot (closing rest) ptr).action = .stop) := by
        rw [Bool.eq_iff_iff]
        by_cases more : ptr < msg.len.toNat
        · simp [I2cMsg.slot, more]
        · cases rest <;> simp [I2cMsg.slot, more, closing, Nat.le_of_not_lt more]
      cases awaits : ctl.data.state.awaitsAck with
      | true =>
          have index_eq : index = ctl.data.curPtr := by
            rcases atSlot.cases with ⟨-, ptr, first⟩ | ⟨-, -, here, -⟩ | ⟨state, -⟩
            · rw [ptr, first]
            · exact here
            · simp [state, XferState.awaitsAck] at awaits
          rw [current.drained_eq awaits, closes, index_eq, Bool.true_and]
      | false =>
          rcases atSlot.cases with ⟨state, -⟩ | ⟨state, -⟩ | ⟨state, -⟩
          · simp [state, XferState.awaitsAck] at awaits
          · simp [state, XferState.awaitsAck] at awaits
          · simp [Ctl.drained, state]

/-- A byte received late lands in the buffer. -/
theorem noisy_of_dest (refines : Refines msgs base ctl transfer) {slot : Slot}
    {slots : List Slot} (remaining : transfer.slots = slot :: slots)
    (phase : slot.phase = .read) {addr : Nat} (dest : slot.dest = some addr) :
    ∃ irq, ¬ ∃ ctl', I2c.deliver ctl irq = .ok ctl' ∧ Quiet ctl ctl' := by
  obtain ⟨byte, different⟩ : ∃ byte : UInt8, byte ≠ transfer.mem addr := by
    by_cases zero : transfer.mem addr = 0
    · exact ⟨1, by rw [zero]; decide⟩
    · exact ⟨0, fun same => zero same.symm⟩
  refine ⟨⟨0, byte.toUInt32⟩, ?_⟩
  rintro ⟨ctl', delivered, quiet⟩
  obtain ⟨ctl'', delivered', refines'⟩ := refines.deliver ⟨0, byte.toUInt32⟩
  obtain rfl : ctl' = ctl'' := Except.ok.inj (delivered.symm.trans delivered')
  have acked : slot.nacked ⟨0, byte.toUInt32⟩ = false := by
    simp [Slot.nacked, phase, XferState.awaitsAck]
  have landed : ctl'.mem addr = byte := by
    rw [refines'.mem, Transfer.step_acked remaining acked]
    simp [Slot.received, dest, overlay]
  rw [quiet.mem, refines.mem] at landed
  exact different landed.symm

/-- An acknowledge that comes late drives the bus. -/
theorem noisy_of_drivesBus (refines : Refines msgs base ctl transfer) {slot : Slot}
    {slots : List Slot} (remaining : transfer.slots = slot :: slots)
    (drives : ∀ mem, (slot.event mem).drivesBus = true) :
    ¬ ∃ ctl', I2c.deliver ctl ⟨0, 0⟩ = .ok ctl' ∧ Quiet ctl ctl' := by
  rintro ⟨ctl', delivered, quiet⟩
  obtain ⟨ctl'', delivered', refines'⟩ := refines.deliver ⟨0, 0⟩
  obtain rfl : ctl' = ctl'' := Except.ok.inj (delivered.symm.trans delivered')
  have acked : slot.nacked ⟨0, 0⟩ = false := by simp [Slot.nacked, Irq.lastBit]
  have trace := refines'.trace
  rw [Transfer.step_acked remaining acked] at trace
  obtain ⟨new, trace', silent⟩ := quiet.trace
  rw [trace', refines.trace, List.append_cancel_left_eq] at trace
  have event := silent _ (by rw [trace]; exact List.mem_singleton_self _)
  rw [drives] at event
  contradiction

/-- As long as something is left, some interrupts make the driver go on with it. -/
theorem exists_noisy (refines : Refines msgs base ctl transfer)
    (left : ctl.drained = false) :
    ∃ irqs later irq, I2c.deliverAll ctl irqs = .ok later ∧
      ¬ ∃ ctl', I2c.deliver later irq = .ok ctl' ∧ Quiet later ctl' := by
  cases refines.status with
  | finished done msg rest split current state => simp [Ctl.drained, state] at left
  | running done msg rest index split current atSlot err slots_eq result =>
      have remaining := slots_eq
      rw [msg.slots_drop _ atSlot.le, List.cons_append] at remaining
      by_cases reading : ctl.data.state = .read
      · obtain ⟨direction, rfl, -⟩ : msg.isRead = true ∧ index = ctl.data.curPtr + 1 ∧
            index ≤ msg.len.toNat := by simpa [AtSlot, reading] using atSlot
        have dest : (msg.slot (closing rest) (ctl.data.curPtr + 1)).dest =
            some (msg.buf + ctl.data.curPtr) := by simp [I2cMsg.slot, direction]
        obtain ⟨irq, noisy⟩ :=
          refines.noisy_of_dest remaining (by rw [atSlot.phase_eq, reading]) dest
        exact ⟨[], ctl, irq, rfl, noisy⟩
      · have awaits : (msg.slot (closing rest) index).phase.awaitsAck = true := by
          rw [atSlot.phase_eq, XferState.awaitsAck_iff]
          rcases atSlot.cases with ⟨state, -⟩ | ⟨state, -⟩ | ⟨state, -⟩
          · exact .inl state
          · exact .inr state
          · contradiction
        rw [refines.drained_eq remaining, awaits, Bool.true_and,
          decide_eq_false_iff_not] at left
        by_cases received : msg.isRead = true ∧ index < msg.len.toNat
        · -- The address of a read: its acknowledge is silent, the byte after it is not.
          obtain ⟨direction, more⟩ := received
          have ack : (msg.slot (closing rest) index).nacked ⟨0, 0⟩ = false := by
            simp [Slot.nacked, Irq.lastBit]
          have atStart : index = 0 := by
            by_contra notStart
            simp [I2cMsg.slot, notStart, direction, XferState.awaitsAck] at awaits
          subst atStart
          obtain ⟨later, delivered, refines'⟩ := refines.deliver ⟨0, 0⟩
          have remaining' : (transfer.step ⟨0, 0⟩).slots =
              msg.slot (closing rest) 1 ::
                ((msg.slots (closing rest)).drop 2 ++ script rest) := by
            rw [Transfer.step_acked remaining ack]
            simp [msg.slots_drop (closing rest) (show 1 ≤ msg.len.toNat from more)]
          have dest : (msg.slot (closing rest) 1).dest = some msg.buf := by
            simp [I2cMsg.slot, direction]
          obtain ⟨irq, noisy⟩ := refines'.noisy_of_dest remaining'
            (by simp [I2cMsg.slot, direction]) dest
          refine ⟨[⟨0, 0⟩], later, irq, ?_, noisy⟩
          simp only [I2c.deliverAll, List.foldlM_cons, delivered, pure_bind]
          rfl
        · refine ⟨[], ctl, ⟨0, 0⟩, rfl, refines.noisy_of_drivesBus remaining ?_⟩
          intro mem
          by_cases more : index < msg.len.toNat
          · have direction : msg.isRead = false := by simpa [more] using received
            simp [Slot.event, I2cMsg.slot, more, byteEvent, direction, BusEvent.drivesBus]
          · cases rest with
            | nil => simp [I2cMsg.slot, more, closing] at left
            | cons next rest =>
                simp [Slot.event, I2cMsg.slot, more, closing, startEvent,
                  BusEvent.drivesBus]

end Refines

/-! ## Runs of the adapter -/

namespace Ctl.WellFormed

variable {ctl : Ctl}

theorem congr {ctl' : Ctl} (wellFormed : ctl.WellFormed) (data : ctl'.data = ctl.data)
    (mem : ctl'.mem = ctl.mem) (trace : ctl'.trace = ctl.trace)
    (accesses : ctl'.accesses = ctl.accesses) : ctl'.WellFormed := by
  rcases wellFormed with idle | ⟨msgs, base, transfer, refines⟩
  · exact .inl (by rw [data]; exact idle)
  · exact .inr ⟨msgs, base, transfer, refines.congr data mem trace accesses⟩

theorem deliver (wellFormed : ctl.WellFormed) (irq : Irq) :
    ∃ ctl', I2c.deliver ctl irq = .ok ctl' ∧ ctl'.WellFormed := by
  rcases wellFormed with idle | ⟨msgs, base, transfer, refines⟩
  · obtain ⟨ctl', delivered, data, -⟩ := deliver_idle idle irq
    exact ⟨ctl', delivered, .inl (by rw [data]; exact idle)⟩
  · obtain ⟨ctl', delivered, refines'⟩ := refines.deliver irq
    exact ⟨ctl', delivered, .inr ⟨msgs, base, _, refines'⟩⟩

theorem deliver_drained (wellFormed : ctl.WellFormed) (drained : ctl.drained = true)
    (irq : Irq) :
    ∃ ctl', I2c.deliver ctl irq = .ok ctl' ∧ Quiet ctl ctl' ∧ ctl'.drained = true := by
  rcases wellFormed with idle | ⟨msgs, base, transfer, refines⟩
  · obtain ⟨ctl', delivered, data, quiet⟩ := deliver_idle idle irq
    exact ⟨ctl', delivered, quiet, by simp [Ctl.drained, data, idle]⟩
  · exact refines.deliver_drained drained irq

/-- A transfer of no message faults at once, any other is well formed. -/
theorem of_xfer {ctl' : Ctl} {msgs : List I2cMsg}
    (begun : s3c2440I2cXfer msgs ctl = .ok ctl') : ctl'.WellFormed := by
  cases msgs with
  | nil => contradiction
  | cons msg rest =>
      obtain ⟨ctl'', begun', refines⟩ := xfer_refines ctl msg rest
      obtain rfl : ctl' = ctl'' := Except.ok.inj (begun.symm.trans begun')
      exact .inr ⟨_, _, _, refines⟩

end Ctl.WellFormed

namespace Adapter

/-- Leaving prints at most a line. -/
theorem leave_wellFormed {adapter : Adapter} (wellFormed : adapter.ctl.WellFormed)
    (timeout : Nat) : (adapter.leave timeout).ctl.WellFormed := by
  unfold leave s3c2440I2cXferReturn
  split
  · exact wellFormed.congr rfl rfl rfl rfl
  · exact wellFormed

theorem leave_drained (adapter : Adapter) (timeout : Nat) :
    (adapter.leave timeout).ctl.drained = adapter.ctl.drained := by
  unfold leave s3c2440I2cXferReturn
  split <;> rfl

/-- What each event does, and when it is enabled. -/
theorem step_cases {adapter next : Adapter} {event : AdapterEvent}
    (taken : step adapter event = some next) :
    (∃ msgs mem ctl, event = .xfer msgs mem ∧
        s3c2440I2cXfer msgs { adapter.ctl with mem := mem } = .ok ctl ∧
        next = { adapter with ctl := ctl, inProgress := true }) ∨
      (∃ irq ctl, event = .irq irq ∧ deliver adapter.ctl irq = .ok ctl ∧
        next = { adapter with ctl := ctl }) ∨
      (event = .wake ∧ adapter.ctl.data.state = .stop ∧ next = adapter.leave 1) ∨
      (event = .timeout ∧ adapter.inProgress = true ∧ next = adapter.leave 0) := by
  cases event with
  | xfer msgs mem =>
      simp only [step] at taken
      split at taken
      · contradiction
      · split at taken
        next ctl begun =>
            exact .inl ⟨msgs, mem, ctl, rfl, begun, (Option.some.inj taken).symm⟩
        next => contradiction
  | irq irq =>
      simp only [step] at taken
      split at taken
      next ctl delivered =>
          exact .inr (.inl ⟨irq, ctl, rfl, delivered, (Option.some.inj taken).symm⟩)
      next => contradiction
  | wake =>
      simp only [step] at taken
      split at taken
      next stopped =>
          exact .inr (.inr (.inl ⟨rfl, stopped.2, (Option.some.inj taken).symm⟩))
      next => contradiction
  | timeout =>
      simp only [step] at taken
      split at taken
      next waiting => exact .inr (.inr (.inr ⟨rfl, waiting, (Option.some.inj taken).symm⟩))
      next => contradiction

theorem step_wellFormed :
    step.Preserves (fun _ _ => True) fun adapter => adapter.ctl.WellFormed := by
  intro adapter event next wellFormed _ taken
  rcases step_cases taken with ⟨msgs, mem, ctl, -, begun, rfl⟩ |
    ⟨irq, ctl, -, delivered, rfl⟩ | ⟨-, -, rfl⟩ | ⟨-, -, rfl⟩
  · exact .of_xfer begun
  · obtain ⟨ctl', delivered', wellFormed'⟩ := wellFormed.deliver irq
    obtain rfl : ctl = ctl' := Except.ok.inj (delivered.symm.trans delivered')
    exact wellFormed'
  · exact leave_wellFormed wellFormed 1
  · exact leave_wellFormed wellFormed 0

/-- Between calls nothing is left to transfer. -/
structure Safe (adapter : Adapter) : Prop where
  record : adapter.ctl.WellFormed
  left : adapter.inProgress = false → adapter.ctl.drained = true

theorem initial_safe (mem : Nat → UInt8) : (initial mem).Safe :=
  ⟨.inl rfl, fun _ => rfl⟩

theorem step_safe : step.Preserves TimeoutHarmless Safe := by
  intro adapter event next safe harmless taken
  refine ⟨step_wellFormed adapter event next safe.record trivial taken, ?_⟩
  rcases step_cases taken with ⟨msgs, mem, ctl, -, -, rfl⟩ |
    ⟨irq, ctl, -, delivered, rfl⟩ | ⟨-, stopped, rfl⟩ | ⟨rfl, waiting, rfl⟩
  · intro idle
    contradiction
  · intro idle
    obtain ⟨ctl', delivered', -, drained⟩ :=
      safe.record.deliver_drained (safe.left idle) irq
    obtain rfl : ctl = ctl' := Except.ok.inj (delivered.symm.trans delivered')
    exact drained
  · intro _
    rw [leave_drained, Ctl.drained, stopped]
  · intro _
    rw [leave_drained]
    exact harmless waiting

theorem Safe.lateIrqQuiet {adapter : Adapter} (safe : adapter.Safe)
    (event : AdapterEvent) : LateIrqQuiet adapter event := by
  cases event with
  | irq irq =>
      intro idle
      obtain ⟨ctl, delivered, quiet, -⟩ := safe.record.deliver_drained (safe.left idle) irq
      exact ⟨ctl, delivered, quiet⟩
  | xfer | wake | timeout => trivial

theorem run_irqs {adapter : Adapter} {irqs : List Irq} {later : Ctl}
    (delivered : deliverAll adapter.ctl irqs = .ok later) :
    step.run adapter (irqs.map .irq) = some { adapter with ctl := later } := by
  induction irqs generalizing adapter with
  | nil =>
      obtain rfl : adapter.ctl = later := Except.ok.inj delivered
      rfl
  | cons irq irqs ih =>
      rw [deliverAll, List.foldlM_cons] at delivered
      rw [List.map_cons, Step.run_cons, step]
      cases taken : deliver adapter.ctl irq with
      | ok ctl =>
          rw [taken] at delivered
          exact @ih { adapter with ctl := ctl } delivered
      | error fault =>
          rw [taken] at delivered
          contradiction

/-- After a timeout that leaves something to transfer, some interrupts are not quiet. -/
theorem exists_late_noise {adapter : Adapter} (wellFormed : adapter.ctl.WellFormed)
    (waiting : adapter.inProgress = true) (left : adapter.ctl.drained = false) :
    ∃ irqs : List Irq, ¬ step.Along LateIrqQuiet adapter (.timeout :: irqs.map .irq) := by
  have unfinished : (adapter.leave 0).ctl.drained = false := by
    rw [leave_drained]
    exact left
  rcases leave_wellFormed wellFormed 0 with idle | ⟨msgs, base, transfer, refines⟩
  · simp [Ctl.drained, idle] at unfinished
  · obtain ⟨irqs, later, irq, delivered, noisy⟩ := refines.exists_noisy unfinished
    refine ⟨irqs ++ [irq], fun along => noisy ?_⟩
    have taken : step adapter .timeout = some (adapter.leave 0) := by simp [step, waiting]
    rw [Step.along_cons taken, List.map_append] at along
    exact along.2.at_split (run_irqs delivered) rfl

end Adapter

/-- A five-second timeout leaves the state machine where it was.  In every run whose
timeouts strike when nothing is left to transfer, each interrupt taken between two calls
is quiet; any other run has a timeout that strikes earlier, after which some interrupts are
not. -/
theorem late_irqs_quiet (mem : Nat → UInt8) (events : List AdapterEvent) :
    (Adapter.step.Along TimeoutHarmless (Adapter.initial mem) events →
      Adapter.step.Along LateIrqQuiet (Adapter.initial mem) events) ∧
    (¬ Adapter.step.Along TimeoutHarmless (Adapter.initial mem) events →
      ∃ (first rest : List AdapterEvent) (adapter : Adapter) (irqs : List Irq),
        events = first ++ .timeout :: rest ∧
          Adapter.step.run (Adapter.initial mem) first = some adapter ∧
          ¬ TimeoutHarmless adapter .timeout ∧
          ¬ Adapter.step.Along LateIrqQuiet adapter (.timeout :: irqs.map .irq)) := by
  constructor
  · exact Adapter.step_safe.strengthen (fun _ event safe _ => safe.lateIrqQuiet event)
      (Adapter.initial_safe mem)
  · intro harmful
    obtain ⟨first, event, rest, adapter, events_eq, reached, harms⟩ :=
      Step.exists_of_not_along harmful
    cases event with
    | timeout =>
        obtain ⟨waiting, left⟩ := Classical.not_imp.mp harms
        have wellFormed : adapter.ctl.WellFormed := Adapter.step_wellFormed.reachable
          (Adapter.initial_safe mem).record ⟨first, reached⟩
        obtain ⟨irqs, noisy⟩ := Adapter.exists_late_noise wellFormed waiting
          (Bool.eq_false_iff.mpr left)
        exact ⟨first, rest, adapter, irqs, events_eq, reached, harms, noisy⟩
    | xfer | irq | wake => exact absurd trivial harms

/-- A read of one byte: the address is acknowledged, the byte comes after the call has
given up. -/
def lateByte : List AdapterEvent :=
  [.xfer [⟨0x50, 1, 1, 0⟩] fun _ => 0, .irq ⟨0, 0⟩, .timeout, .irq ⟨0, 0x5a⟩]

theorem lateByte_overwrites_buffer :
    ¬ Adapter.step.Along LateIrqQuiet (Adapter.initial fun _ => 0) lateByte := by
  intro along
  obtain ⟨ctl, delivered, quiet⟩ :=
    @Step.Along.at_split _ _ _ _ _ _ (lateByte.take 3) [] _ along rfl rfl
  obtain rfl := Except.ok.inj delivered
  have unchanged := congrFun quiet.mem 0
  revert unchanged
  decide

end Mini2440.I2c
