import Mini2440.I2c.Xfer

/-!
# Every transfer ends

Each interrupt that finds the driver at work uses up one slot of the script, whether it
moves `cur_ptr`, goes on to the next message or stops the bus.  So the slots still to come
are the measure that every branch of the switch decreases, and a driver that has stopped
stays as it is.
-/

namespace Mini2440.I2c

/-- The transfer record, the buffers and the bus are as they were. -/
structure Unmoved (before after : Ctl) : Prop where
  data : after.data = before.data
  mem : after.mem = before.mem
  accesses : after.accesses = before.accesses
  trace : after.trace = before.trace

/-- An interrupt after the STOP. -/
theorem deliver_unmoved {ctl : Ctl} (stopped : ctl.data.state = .stop) (irq : Irq) :
    ∃ later, deliver ctl irq = pure later ∧ Unmoved ctl later := by
  obtain ⟨entry, sampled, delivered⟩ := deliver_eq_switchState ctl irq
  have unhandled : switchState irq.iicstat entry = pure entry := by
    simp only [switchState, sampled.data, stopped]
  rw [delivered, unhandled, pure_bind]
  exact ⟨_, rfl, sampled.data, sampled.mem, sampled.accesses, sampled.trace⟩

theorem deliverAll_unmoved {ctl : Ctl} (stopped : ctl.data.state = .stop)
    (irqs : List Irq) : ∃ later, deliverAll ctl irqs = pure later ∧ Unmoved ctl later := by
  induction irqs generalizing ctl with
  | nil => exact ⟨ctl, rfl, rfl, rfl, rfl, rfl⟩
  | cons irq irqs ih =>
      obtain ⟨next, delivered, unmoved⟩ := deliver_unmoved stopped irq
      obtain ⟨later, rest, unmovedRest⟩ := ih (unmoved.data ▸ stopped)
      refine ⟨later, ?_, ?_⟩
      · simp only [deliverAll, List.foldlM_cons, delivered, pure_bind]
        exact rest
      · constructor
        case data => exact unmovedRest.data.trans unmoved.data
        case mem => exact unmovedRest.mem.trans unmoved.mem
        case accesses => exact unmovedRest.accesses.trans unmoved.accesses
        case trace => exact unmovedRest.trace.trans unmoved.trace

namespace Transfer

/-- Each interrupt uses up a slot, and a missing acknowledge all of them. -/
theorem length_slots_step (transfer : Transfer) (irq : Irq) :
    (transfer.step irq).slots.length ≤ transfer.slots.length - 1 := by
  unfold step
  split
  next done => simp [done]
  next slot slots remaining =>
      rw [remaining, List.length_cons, Nat.add_sub_cancel]
      split
      · exact Nat.zero_le _
      · exact Nat.le_refl _

theorem length_slots_run (transfer : Transfer) (irqs : List Irq) :
    (transfer.run irqs).slots.length ≤ transfer.slots.length - irqs.length := by
  induction irqs generalizing transfer with
  | nil => exact Nat.le_refl _
  | cons irq irqs ih =>
      have used := transfer.length_slots_step irq
      have later := ih (transfer.step irq)
      rw [run_cons, List.length_cons]
      omega

end Transfer

/-- For every array of messages and every sequence of interrupts: no access fails; once
there has been one interrupt for each address and one for each byte the driver has
stopped; and as soon as it has, further interrupts change nothing and do nothing on the
bus. -/
theorem xferRun_ends (ctl : Ctl) (msg : I2cMsg) (rest : List I2cMsg) (irqs : List Irq) :
    ∃ final, xferRun ctl (msg :: rest) irqs = .ok final ∧
      (interruptCount (msg :: rest) ≤ irqs.length → final.data.state = .stop) ∧
      (final.data.state = .stop → ∀ more, ∃ later, deliverAll final more = .ok later ∧
        Unmoved final later) := by
  obtain ⟨final, ran, refines⟩ := xferRun_refines ctl msg rest irqs
  refine ⟨final, ran, ?_, deliverAll_unmoved⟩
  intro enough
  have left := (Transfer.begin ctl.mem ctl.trace msg rest).length_slots_run irqs
  have begun : (Transfer.begin ctl.mem ctl.trace msg rest).slots.length =
      interruptCount (msg :: rest) := script_length _
  by_contra running
  obtain ⟨slot, slots, remaining⟩ := refines.exists_slot running
  rw [remaining, List.length_cons] at left
  omega

end Mini2440.I2c
