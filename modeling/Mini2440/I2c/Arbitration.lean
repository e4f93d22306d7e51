import Mini2440.I2c.Adapter
import Mini2440.I2c.At24cxx

/-!
# Lost arbitration

The handler prints a line when IICSTAT says that another master has won the bus, and goes
on with the byte it is at.  The results say when a transfer that lost the arbitration is
abandoned all the same, and when it drives the bus against the other master or is
reported as a success.
-/

namespace Mini2440.I2c

variable {ctl : Ctl} {rest : List I2cMsg} {msg : I2cMsg} {irqs : List Irq} {left k : Nat}

/-- Bit 3 of IICSTAT: the bus arbitration failed. -/
def Irq.arbitrationLost (irq : Irq) : Bool := irq.iicstat &&& 0x8 != 0

/-- Interrupt `k` is handled before the transfer has completed, and reports that the
arbitration was lost. -/
def LostAt (ctl : Ctl) (msgs : List I2cMsg) (irqs : List Irq) (k : Nat) : Prop :=
  ∃ irq before, irqs[k]? = some irq ∧ xferRun ctl msgs (irqs.take k) = .ok before ∧
    before.data.state ≠ .stop ∧ irq.arbitrationLost = true

/-- The call returns an error, and from interrupt `k` on, its own handler included,
neither START nor a data byte goes out. -/
def YieldsAt (ctl : Ctl) (msgs : List I2cMsg) (irqs : List Irq) (left k : Nat) : Prop :=
  ∃ before value final, xferRun ctl msgs (irqs.take k) = .ok before ∧
    xferCall irqs left msgs ctl = .ok (value, final) ∧ value < 0 ∧
    ∃ new, final.trace = before.trace ++ new ∧ ∀ event ∈ new, event.drivesBus = false

/-- The slot sends START or a data byte when it is acknowledged. -/
def Slot.drivesBus (slot : Slot) : Bool :=
  match slot.action with
  | .byte _ => !slot.msg.isRead
  | .start _ => true
  | .stop => false

/-- Every interrupt from slot `k` on that comes and is acknowledged receives a byte or
ends the transfer. -/
def SilentFrom (slots : List Slot) (irqs : List Irq) (k : Nat) : Prop :=
  ∀ i slot, k ≤ i → i < irqs.length → slots[i]? = some slot →
    Acked slots (irqs.take (i + 1)) → slot.drivesBus = false

/-- Wherever the arbitration is lost before a missing acknowledge and before the end, the
transfer is not delivered anyway, and nothing but the receipt of bytes is left of it. -/
def LostHarmlessly (msgs : List I2cMsg) (irqs : List Irq) (left : Nat) : Prop :=
  ∀ k irq, irqs[k]? = some irq → irq.arbitrationLost = true → k < interruptCount msgs →
    Acked (script msgs) (irqs.take k) →
      ¬ Delivered msgs irqs left ∧ SilentFrom (script msgs) irqs k

/-! ## What a transfer still does on the bus -/

theorem Slot.event_drivesBus (slot : Slot) (mem : Nat → UInt8) :
    (slot.event mem).drivesBus = slot.drivesBus := by
  unfold Slot.event Slot.drivesBus
  cases slot.action with
  | byte index =>
      simp only [byteEvent]
      split
      next read => simp [read, BusEvent.drivesBus]
      next write => simp [write, BusEvent.drivesBus]
  | start next => rfl
  | stop => rfl

theorem acked_cons {slot : Slot} {slots : List Slot} {irq : Irq} {irqs : List Irq} :
    Acked (slot :: slots) (irq :: irqs) ↔ slot.nacked irq = false ∧ Acked slots irqs := by
  simp [Acked]

/-- A missing acknowledge ends the transfer before the slot does anything. -/
theorem silentFrom_of_nacked {slot : Slot} {slots : List Slot} {irq : Irq}
    {irqs : List Irq} (nacked : slot.nacked irq = true) :
    SilentFrom (slot :: slots) (irq :: irqs) 0 := by
  intro i other _ _ _ acked
  rw [List.take_succ_cons, acked_cons, nacked] at acked
  exact absurd acked.1 (by decide)

theorem silentFrom_cons {slot : Slot} {slots : List Slot} {irq : Irq} {irqs : List Irq}
    (ackedHere : slot.nacked irq = false) :
    SilentFrom (slot :: slots) (irq :: irqs) 0 ↔
      slot.drivesBus = false ∧ SilentFrom slots irqs 0 := by
  constructor
  · intro silent
    refine ⟨silent 0 slot (Nat.le_refl 0) (by simp) rfl (by simp [Acked, ackedHere]), ?_⟩
    intro i other _ inRange otherAt acked
    refine silent (i + 1) other (Nat.zero_le _) (by simpa using inRange) otherAt ?_
    rw [List.take_succ_cons]
    exact acked_cons.mpr ⟨ackedHere, acked⟩
  · rintro ⟨here, later⟩ i other _ inRange otherAt acked
    cases i with
    | zero =>
        obtain rfl := Option.some.inj otherAt
        exact here
    | succ i =>
        refine later i other (Nat.zero_le _) (by simpa using inRange) otherAt ?_
        rw [List.take_succ_cons, acked_cons] at acked
        exact acked.2

/-- What the interrupts add to the trace of a transfer, and whether any of it drives the
bus. -/
theorem Transfer.run_trace (transfer : Transfer) (irqs : List Irq) :
    ∃ new, (transfer.run irqs).trace = transfer.trace ++ new ∧
      ((∀ event ∈ new, event.drivesBus = false) ↔ SilentFrom transfer.slots irqs 0) := by
  induction irqs generalizing transfer with
  | nil =>
      refine ⟨[], (List.append_nil _).symm, ?_⟩
      simp [SilentFrom]
  | cons irq irqs ih =>
      cases remaining : transfer.slots with
      | nil =>
          rw [run_of_slots_eq_nil remaining]
          exact ⟨[], (List.append_nil _).symm, by simp [SilentFrom]⟩
      | cons slot slots =>
          rw [run_cons]
          cases acked : slot.nacked irq with
          | true =>
              rw [step_nacked remaining acked, run_of_slots_eq_nil rfl]
              refine ⟨[stopEvent slot.msg], rfl, ?_⟩
              simp [stopEvent, BusEvent.drivesBus, silentFrom_of_nacked acked]
          | false =>
              obtain ⟨new, trace, drives⟩ := ih (transfer.step irq)
              rw [step_acked remaining acked] at trace drives ⊢
              rw [List.append_assoc] at trace
              refine ⟨_, trace, ?_⟩
              rw [silentFrom_cons acked, ← drives]
              simp [Slot.event_drivesBus]

theorem acked_append {slots : List Slot} {first second : List Irq} :
    Acked slots (first ++ second) ↔
      Acked slots first ∧ Acked (slots.drop first.length) second := by
  induction first generalizing slots with
  | nil => simp [Acked]
  | cons irq first ih =>
      cases slots with
      | nil => simp [Acked]
      | cons slot slots =>
          rw [List.cons_append, acked_cons, acked_cons, ih, and_assoc]
          rfl

/-- Counted from slot `k`, the slots before it being acknowledged. -/
theorem silentFrom_drop {slots : List Slot} (inRange : k ≤ irqs.length)
    (acked : Acked slots (irqs.take k)) :
    SilentFrom slots irqs k ↔ SilentFrom (slots.drop k) (irqs.drop k) 0 := by
  have length_take : (irqs.take k).length = k := List.length_take_of_le inRange
  have acked_iff (i : Nat) : Acked slots (irqs.take (k + i + 1)) ↔
      Acked (slots.drop k) ((irqs.drop k).take (i + 1)) := by
    rw [Nat.add_assoc, List.take_add, acked_append, length_take]
    simp [acked]
  constructor
  · intro silent i slot _ inRest slotAt ackedRest
    rw [List.length_drop] at inRest
    rw [List.getElem?_drop] at slotAt
    exact silent (k + i) slot (Nat.le_add_right k i) (by omega) slotAt
      ((acked_iff i).mpr ackedRest)
  · intro silent i slot later inIrqs slotAt ackedUpTo
    obtain ⟨i, rfl⟩ := Nat.exists_eq_add_of_le later
    refine silent i slot (Nat.zero_le i) ?_ ?_ ((acked_iff i).mp ackedUpTo)
    · rw [List.length_drop]
      omega
    · rwa [List.getElem?_drop]

/-! ## The call -/

theorem xferCall_trace {value : Int} {final ran : Ctl}
    (called : xferCall irqs left (msg :: rest) ctl = .ok (value, final))
    (ran_eq : xferRun ctl (msg :: rest) irqs = pure ran) : final.trace = ran.trace := by
  simp only [xferCall, ran_eq, pure_bind] at called
  have returned := congrArg (fun result : Int × Ctl => result.2.trace) (Except.ok.inj called)
  simp only at returned
  rw [← returned, s3c2440I2cXferReturn]
  split <;> rfl

/-- The driver is still at work at an interrupt exactly when the script has a slot for it
and everything before it was acknowledged. -/
theorem not_stopped_iff {before : Ctl} (inRange : k ≤ irqs.length)
    (ran : xferRun ctl (msg :: rest) (irqs.take k) = .ok before) :
    before.data.state ≠ .stop ↔
      k < interruptCount (msg :: rest) ∧ Acked (script (msg :: rest)) (irqs.take k) := by
  have length_take : (irqs.take k).length = k := List.length_take_of_le inRange
  constructor
  · intro running
    obtain ⟨acked, early⟩ := acked_of_not_stopped ran running
    rw [length_take] at early
    exact ⟨early, acked⟩
  · rintro ⟨early, acked⟩
    obtain ⟨before', ran', refines⟩ := xferRun_refines ctl msg rest (irqs.take k)
    obtain rfl : before = before' := Except.ok.inj (ran.symm.trans ran')
    rw [Ne, refines.state_eq_stop_iff, begin_run_acked ctl msg rest acked, length_take]
    simp [Nat.not_le.mpr early]

theorem lostAt_iff :
    LostAt ctl (msg :: rest) irqs k ↔
      ∃ irq, irqs[k]? = some irq ∧ irq.arbitrationLost = true ∧
        k < interruptCount (msg :: rest) ∧
        Acked (script (msg :: rest)) (irqs.take k) := by
  constructor
  · rintro ⟨irq, before, irqAt, ran, running, lost⟩
    have inRange := Nat.le_of_lt (List.getElem?_eq_some_iff.mp irqAt).1
    exact ⟨irq, irqAt, lost, (not_stopped_iff inRange ran).mp running⟩
  · rintro ⟨irq, irqAt, lost, running⟩
    have inRange := Nat.le_of_lt (List.getElem?_eq_some_iff.mp irqAt).1
    obtain ⟨before, ran, -⟩ := xferRun_refines ctl msg rest (irqs.take k)
    exact ⟨irq, before, irqAt, ran, (not_stopped_iff inRange ran).mpr running, lost⟩

theorem yieldsAt_iff (inRange : k ≤ irqs.length)
    (acked : Acked (script (msg :: rest)) (irqs.take k)) :
    YieldsAt ctl (msg :: rest) irqs left k ↔
      ¬ Delivered (msg :: rest) irqs left ∧ SilentFrom (script (msg :: rest)) irqs k := by
  obtain ⟨value, final, called, -, negative⟩ := xferCall_le_zero ctl msg rest irqs left
  obtain ⟨before, ranBefore, refinesBefore⟩ := xferRun_refines ctl msg rest (irqs.take k)
  obtain ⟨ran, ranAll, refines⟩ := xferRun_refines ctl msg rest irqs
  have length_take : (irqs.take k).length = k := List.length_take_of_le inRange
  obtain ⟨new, trace, drives⟩ :=
    ((Transfer.begin ctl.mem ctl.trace msg rest).run (irqs.take k)).run_trace (irqs.drop k)
  rw [← Transfer.run_append, List.take_append_drop, ← refines.trace, ← refinesBefore.trace,
    ← xferCall_trace called ranAll] at trace
  rw [begin_run_acked ctl msg rest acked, length_take, ← silentFrom_drop inRange acked]
    at drives
  rw [← negative, ← drives]
  constructor
  · rintro ⟨before', value', final', ranBefore', called', failed, new', trace', silent⟩
    obtain rfl : before = before' := Except.ok.inj (ranBefore.symm.trans ranBefore')
    obtain ⟨rfl, rfl⟩ := Prod.mk.inj (Except.ok.inj (called.symm.trans called'))
    obtain rfl := List.append_cancel_left (trace.symm.trans trace')
    exact ⟨failed, silent⟩
  · rintro ⟨failed, silent⟩
    exact ⟨before, value, final, ranBefore, called, failed, new, trace, silent⟩

/-- For every array of messages and every sequence of interrupts: a call that loses the
arbitration fails and leaves the bus alone from then on exactly when each loss meets a
transfer that is not delivered anyway, and that has only bytes to receive. -/
theorem yieldsAt_iff_lostHarmlessly (ctl : Ctl) (msg : I2cMsg) (rest : List I2cMsg)
    (irqs : List Irq) (left : Nat) :
    (∀ k, LostAt ctl (msg :: rest) irqs k → YieldsAt ctl (msg :: rest) irqs left k) ↔
      LostHarmlessly (msg :: rest) irqs left := by
  constructor
  · intro yields k irq irqAt lost early acked
    have inRange := Nat.le_of_lt (List.getElem?_eq_some_iff.mp irqAt).1
    exact (yieldsAt_iff inRange acked).mp
      (yields k (lostAt_iff.mpr ⟨irq, irqAt, lost, early, acked⟩))
  · intro harmless k lostAt
    obtain ⟨irq, irqAt, lost, early, acked⟩ := lostAt_iff.mp lostAt
    have inRange := Nat.le_of_lt (List.getElem?_eq_some_iff.mp irqAt).1
    exact (yieldsAt_iff inRange acked).mpr (harmless k irq irqAt lost early acked)

/-- The interrupts of a random read of which another master wins the last byte. -/
def lostReadIrqs : List Irq := [⟨0, 0⟩, ⟨0, 0⟩, ⟨0, 0⟩, ⟨8, 0x5a⟩]

/-- The caller is told that the read worked. -/
theorem lostRead_reported_success :
    LostAt (i2cBusS3c2440Init fun _ => 0) randomRead lostReadIrqs 3 ∧
      ¬ YieldsAt (i2cBusS3c2440Init fun _ => 0) randomRead lostReadIrqs 500 3 ∧
      ∃ final, xferCall lostReadIrqs 500 randomRead (i2cBusS3c2440Init fun _ => 0) =
        .ok (0, final) ∧ final.mem 8 = 0x5a := by
  refine ⟨lostAt_iff.mpr ⟨⟨8, 0x5a⟩, rfl, by decide, by decide, by decide⟩, ?_, ?_⟩
  · intro yields
    exact ((yieldsAt_iff (by decide) (by decide)).mp yields).1 (by decide)
  · exact ⟨_, rfl, by decide⟩

end Mini2440.I2c
