import Mini2440.I2c.Xfer

/-!
# The acknowledge of received bytes

IICCON keeps the acknowledge bit from one message into the next, and the controller sets
its pending bit with each interrupt.  Neither is seen by a byte that is received: the
handler that resumes the bus for the byte writes the whole register, and clears the pending
bit on its way out.
-/

namespace Mini2440.I2c

/-- Bit 7 of IICCON: received bytes are acknowledged. -/
def I2cRegs.ackEnabled (regs : I2cRegs) : Bool := regs.iiccon &&& 0x80 != 0

/-- Bit 5 of IICCON: interrupts are enabled. -/
def I2cRegs.irqEnabled (regs : I2cRegs) : Bool := regs.iiccon &&& 0x20 != 0

/-- The pending bit holds the bus until it is cleared. -/
def I2cRegs.irqPending (regs : I2cRegs) : Bool :=
  regs.iiccon &&& S3C2410_IICCON_IRQPEND != 0

/-- The controller raises its interrupt, which sets the pending bit. -/
def raise (ctl : Ctl) (irq : Irq) : Except Fault Ctl :=
  deliver { ctl with regs.iiccon := ctl.regs.iiccon ||| S3C2410_IICCON_IRQPEND } irq

/-- The interrupts one after another. -/
def raiseAll (ctl : Ctl) (irqs : List Irq) : Except Fault Ctl := irqs.foldlM raise ctl

/-- A call of `s3c2440_i2c_xfer` followed by the interrupts. -/
def raiseRun (ctl : Ctl) (msgs : List I2cMsg) (irqs : List Irq) : Except Fault Ctl := do
  raiseAll (← s3c2440I2cXfer msgs ctl) irqs

/-- The next interrupt receives byte `index` of message `number`. -/
def ReceivesNext (ctl : Ctl) (number index : Nat) : Prop :=
  ∃ irq after, raise ctl irq = .ok after ∧
    .store number index ∈ after.accesses.drop ctl.accesses.length

/-! ## What the handler does to IICCON and to the buffers -/

/-- A computation that succeeds has gone through its first part. -/
theorem exists_of_bind_eq_ok {Fault Middle Result : Type} {first : Except Fault Middle}
    {following : Middle → Except Fault Result} {result : Result}
    (succeeds : first >>= following = .ok result) :
    ∃ middle, first = .ok middle ∧ following middle = .ok result := by
  cases first with
  | error fault => contradiction
  | ok middle => exact ⟨middle, rfl, succeeds⟩

/-- The bus is resumed for the byte under `cur_ptr`. -/
def Resumed (ctl : Ctl) : Prop :=
  ∃ msg, ctl.msg = .ok msg ∧ ctl.data.curPtr < msg.len.toNat ∧
    ctl.regs.iiccon = ackControl msg.len.toNat ctl.data.curPtr

section

variable {ctl next : Ctl} {iicSt : UInt32}

theorem s3c2440I2cStart_frame (started : s3c2440I2cStart ctl = .ok next) :
    next.data.state = .start ∧ next.accesses = ctl.accesses := by
  obtain ⟨msg, -, started⟩ := exists_of_bind_eq_ok started
  split at started
  · obtain rfl := Except.ok.inj started
    exact ⟨rfl, rfl⟩
  · obtain rfl := Except.ok.inj started
    exact ⟨rfl, rfl⟩

theorem s3c2440I2cStop_frame {err : Int} (stopped : s3c2440I2cStop err ctl = .ok next) :
    next.data.state = .stop ∧ next.accesses = ctl.accesses := by
  obtain ⟨msg, -, stopped⟩ := exists_of_bind_eq_ok stopped
  split at stopped
  · obtain rfl := Except.ok.inj stopped
    exact ⟨rfl, rfl⟩
  · obtain rfl := Except.ok.inj stopped
    exact ⟨rfl, rfl⟩

/-- The end of a message resumes nothing. -/
theorem close_frame
    (closed : (if !isLastMsg ctl then nextMsg ctl else s3c2440I2cStop 0 ctl) = .ok next) :
    next.data.state ≠ .read ∧ next.accesses = ctl.accesses := by
  split at closed
  · obtain ⟨state, accesses⟩ := s3c2440I2cStart_frame closed
    exact ⟨by simp [state], accesses⟩
  · obtain ⟨state, accesses⟩ := s3c2440I2cStop_frame closed
    exact ⟨by simp [state], accesses⟩

/-- `next_read` writes the whole register for a byte that is still to come. -/
theorem nextRead_resumed (read : nextRead ctl = .ok next) :
    (next.data.state = .read → Resumed next) ∧ next.accesses = ctl.accesses := by
  obtain ⟨atEnd, end_eq, read⟩ := exists_of_bind_eq_ok read
  obtain ⟨msg, found, end_eq⟩ := exists_of_bind_eq_ok end_eq
  obtain rfl := Except.ok.inj end_eq
  split at read
  next more =>
      obtain ⟨last, last_eq, read⟩ := exists_of_bind_eq_ok read
      obtain ⟨msg', found', last_eq⟩ := exists_of_bind_eq_ok last_eq
      obtain rfl : msg = msg' := Except.ok.inj (found.symm.trans found')
      obtain rfl := Except.ok.inj last_eq
      have inBounds : ctl.data.curPtr < msg.len.toNat := by simpa using more
      have resumed : next =
          ctl.resumeReceive (ackControl msg.len.toNat ctl.data.curPtr) := by
        split at read
        next isLast =>
            have isLast : ctl.data.curPtr + 1 = msg.len.toNat := by
              simp only [beq_iff_eq] at isLast
              omega
            rw [ackControl, if_pos isLast]
            exact (Except.ok.inj read).symm
        next notLast =>
            have notLast : ctl.data.curPtr + 1 ≠ msg.len.toNat := by
              simp only [beq_iff_eq] at notLast
              omega
            rw [ackControl, if_neg notLast]
            exact (Except.ok.inj read).symm
      rw [resumed]
      exact ⟨fun _ => ⟨msg, found, inBounds, rfl⟩, rfl⟩
  next =>
      obtain ⟨state, accesses⟩ := close_frame read
      exact ⟨fun reading => absurd reading state, accesses⟩

/-- The accesses are those before, and `new`, none of which is a store. -/
def OnlyLoads (ctl next : Ctl) : Prop :=
  ∃ new, next.accesses = ctl.accesses ++ new ∧ ∀ number index, .store number index ∉ new

theorem OnlyLoads.of_eq (accesses : next.accesses = ctl.accesses) : OnlyLoads ctl next :=
  ⟨[], by rw [accesses, List.append_nil], by simp⟩

theorem stateWrite_frame (state : ctl.data.state ≠ .read)
    (wrote : stateWrite iicSt ctl = .ok next) :
    next.data.state ≠ .read ∧ OnlyLoads ctl next := by
  unfold stateWrite at wrote
  split at wrote
  next =>
      obtain ⟨stopped, accesses⟩ := s3c2440I2cStop_frame wrote
      exact ⟨by simp [stopped], .of_eq accesses⟩
  next =>
      obtain ⟨atEnd, -, wrote⟩ := exists_of_bind_eq_ok wrote
      split at wrote
      next =>
          obtain ⟨⟨byte, loaded⟩, loading, wrote⟩ := exists_of_bind_eq_ok wrote
          obtain ⟨msg, -, loading⟩ := exists_of_bind_eq_ok loading
          split at loading
          · obtain ⟨rfl, rfl⟩ := Prod.mk.inj (Except.ok.inj loading)
            obtain rfl := Except.ok.inj wrote
            exact ⟨state, _, rfl, by simp⟩
          · contradiction
      next =>
          obtain ⟨ended, accesses⟩ := close_frame wrote
          exact ⟨ended, .of_eq accesses⟩

theorem stateRead_resumed (read : stateRead ctl = .ok next) :
    (next.data.state = .read → Resumed next) ∧
      next.accesses = ctl.accesses ++ [.store ctl.data.msgs ctl.data.curPtr] := by
  obtain ⟨stored, storing, read⟩ := exists_of_bind_eq_ok read
  obtain ⟨msg, -, storing⟩ := exists_of_bind_eq_ok storing
  split at storing
  · obtain rfl := Except.ok.inj storing
    exact nextRead_resumed read
  · contradiction

theorem stateStart_resumed (started : stateStart iicSt ctl = .ok next) :
    (next.data.state = .read → Resumed next) ∧ OnlyLoads ctl next := by
  unfold stateStart at started
  split at started
  next =>
      obtain ⟨stopped, accesses⟩ := s3c2440I2cStop_frame started
      exact ⟨by simp [stopped], .of_eq accesses⟩
  next =>
      obtain ⟨atEnd, -, started⟩ := exists_of_bind_eq_ok started
      split at started
      next =>
          obtain ⟨stopped, accesses⟩ := s3c2440I2cStop_frame started
          exact ⟨by simp [stopped], .of_eq accesses⟩
      next =>
          obtain ⟨msg, -, started⟩ := exists_of_bind_eq_ok started
          split at started
          next =>
              obtain ⟨resumed, accesses⟩ := nextRead_resumed started
              exact ⟨resumed, .of_eq accesses⟩
          next =>
              have writing : (ctl.setState .write).data.state ≠ .read := by
                simp [Ctl.setState]
              obtain ⟨state, loads⟩ := stateWrite_frame writing started
              exact ⟨fun reading => absurd reading state, loads⟩

/-- After the switch the bus is resumed if the state is `STATE_READ`, and only
`case STATE_READ` has stored a byte. -/
theorem switchState_resumed (switched : switchState iicSt ctl = .ok next) :
    (next.data.state = .read → Resumed next) ∧
      (OnlyLoads ctl next ∨ (ctl.data.state = .read ∧
        next.accesses = ctl.accesses ++ [.store ctl.data.msgs ctl.data.curPtr])) := by
  unfold switchState at switched
  split at switched
  next =>
      obtain ⟨resumed, loads⟩ := stateStart_resumed switched
      exact ⟨resumed, .inl loads⟩
  next state =>
      obtain ⟨ended, loads⟩ := stateWrite_frame (by simp [state]) switched
      exact ⟨fun reading => absurd reading ended, .inl loads⟩
  next state =>
      obtain ⟨resumed, accesses⟩ := stateRead_resumed switched
      exact ⟨resumed, .inr ⟨state, accesses⟩⟩
  next state =>
      obtain rfl := Except.ok.inj switched
      exact ⟨by simp [state], .inl (.of_eq rfl)⟩
  next state =>
      obtain rfl := Except.ok.inj switched
      exact ⟨by simp [state], .inl (.of_eq rfl)⟩

end

/-! ## Runs -/

/-- While a byte is awaited, IICCON is what was written to resume the bus, without the
pending bit. -/
def AckKept (ctl : Ctl) : Prop :=
  ctl.data.state = .read → ∃ msg, ctl.msg = .ok msg ∧ ctl.data.curPtr < msg.len.toNat ∧
    ctl.regs.iiccon =
      ackControl msg.len.toNat ctl.data.curPtr &&& ~~~S3C2410_IICCON_IRQPEND

/-- The whole handler, from whatever IICCON holds when the interrupt is raised. -/
theorem raise_ackKept {ctl next : Ctl} {irq : Irq} (raised : raise ctl irq = .ok next) :
    AckKept next ∧ (OnlyLoads ctl next ∨ (ctl.data.state = .read ∧
      next.accesses = ctl.accesses ++ [.store ctl.data.msgs ctl.data.curPtr])) := by
  obtain ⟨entry, sampled, delivered⟩ := deliver_eq_switchState
    { ctl with regs.iiccon := ctl.regs.iiccon ||| S3C2410_IICCON_IRQPEND } irq
  rw [raise, delivered] at raised
  obtain ⟨left, switched, cleared⟩ := exists_of_bind_eq_ok raised
  obtain rfl := Except.ok.inj cleared
  obtain ⟨resumed, accesses⟩ := switchState_resumed switched
  constructor
  · intro reading
    obtain ⟨msg, found, inBounds, iiccon⟩ := resumed reading
    exact ⟨msg, found, inBounds, congrArg (· &&& ~~~S3C2410_IICCON_IRQPEND) iiccon⟩
  · rw [sampled.data, sampled.accesses, OnlyLoads, sampled.accesses] at accesses
    exact accesses

theorem Refines.raise {msgs : List I2cMsg} {base : List BufAccess} {ctl : Ctl}
    {transfer : Transfer} (refines : Refines msgs base ctl transfer) (irq : Irq) :
    ∃ next, I2c.raise ctl irq = .ok next ∧ Refines msgs base next (transfer.step irq) := by
  have pending : Refines msgs base
      { ctl with regs.iiccon := ctl.regs.iiccon ||| S3C2410_IICCON_IRQPEND } transfer :=
    refines.congr rfl rfl rfl rfl
  exact pending.deliver irq

theorem Refines.raiseAll {msgs : List I2cMsg} {base : List BufAccess} {ctl : Ctl}
    {transfer : Transfer} (refines : Refines msgs base ctl transfer) (kept : AckKept ctl)
    (irqs : List Irq) :
    ∃ final, I2c.raiseAll ctl irqs = .ok final ∧
      Refines msgs base final (transfer.run irqs) ∧ AckKept final := by
  induction irqs generalizing ctl transfer with
  | nil => exact ⟨ctl, rfl, refines, kept⟩
  | cons irq irqs ih =>
      obtain ⟨next, raised, refinesNext⟩ := refines.raise irq
      obtain ⟨final, ran, refinesFinal⟩ := ih refinesNext (raise_ackKept raised).1
      refine ⟨final, ?_, refinesFinal⟩
      simp only [I2c.raiseAll, List.foldlM_cons, raised]
      exact ran

/-- An interrupt that stores a byte is taken in `STATE_READ`, and stores it where the
cursors point. -/
theorem ReceivesNext.cursor {ctl : Ctl} {number index : Nat}
    (receives : ReceivesNext ctl number index) :
    ctl.data.state = .read ∧ number = ctl.data.msgs ∧ index = ctl.data.curPtr := by
  obtain ⟨irq, after, raised, stored⟩ := receives
  rcases (raise_ackKept raised).2 with ⟨new, accesses, loads⟩ | ⟨state, accesses⟩
  · rw [accesses, List.drop_left] at stored
    exact absurd stored (loads number index)
  · rw [accesses, List.drop_left, List.mem_singleton] at stored
    obtain ⟨rfl, rfl⟩ := BufAccess.store.inj stored
    exact ⟨state, rfl, rfl⟩

/-- In `STATE_READ` the message in progress is a read. -/
theorem Refines.reading {msgs : List I2cMsg} {base : List BufAccess} {ctl : Ctl}
    {transfer : Transfer} (refines : Refines msgs base ctl transfer)
    (state : ctl.data.state = .read) :
    ∃ msg, ctl.msg = .ok msg ∧ msgs[ctl.data.msgs]? = some msg ∧ msg.isRead = true := by
  cases refines.status with
  | running done msg rest index split current atSlot =>
      simp only [AtSlot, state] at atSlot
      exact ⟨msg, current.msg_eq, by simp [split, current.msgs], atSlot.1⟩
  | finished done msg rest split current stopped =>
      rw [state] at stopped
      contradiction

theorem ackControl_bits (regs : I2cRegs) {len index : Nat} (inBounds : index < len)
    (iiccon : regs.iiccon = ackControl len index &&& ~~~S3C2410_IICCON_IRQPEND) :
    regs.ackEnabled = decide (index < len - 1) ∧ regs.irqEnabled = true ∧
      regs.irqPending = false := by
  unfold I2cRegs.ackEnabled I2cRegs.irqEnabled I2cRegs.irqPending
  rw [iiccon, ackControl]
  by_cases last : index + 1 = len
  · have notBefore : ¬ index < len - 1 := by omega
    rw [if_pos last, decide_eq_false notBefore]
    decide
  · have before : index < len - 1 := by omega
    rw [if_neg last, decide_eq_true before]
    decide

/-- For every array of messages and every sequence of interrupts: whenever the next
interrupt is going to store byte `index` of message `number`, that message is a read of more
than `index` bytes, and IICCON acknowledges the byte exactly when it is not its last, with
interrupts enabled and the pending bit clear. -/
theorem receives_with_ack (ctl : Ctl) (msg : I2cMsg) (rest : List I2cMsg) (irqs : List Irq) :
    ∃ final, raiseRun ctl (msg :: rest) irqs = .ok final ∧
      ∀ number index, ReceivesNext final number index →
        ∃ current, (msg :: rest)[number]? = some current ∧ current.isRead = true ∧
          index < current.len.toNat ∧
          final.regs.ackEnabled = decide (index < current.len.toNat - 1) ∧
          final.regs.irqEnabled = true ∧ final.regs.irqPending = false := by
  obtain ⟨started, begun, refines⟩ := xfer_refines ctl msg rest
  have starting : started.data.state = .start := (s3c2440I2cStart_frame begun).1
  have kept : AckKept started := by
    intro reading
    rw [starting] at reading
    contradiction
  obtain ⟨final, ran, refinesFinal, keptFinal⟩ := refines.raiseAll kept irqs
  refine ⟨final, ?_, ?_⟩
  · rw [raiseRun, begun]
    exact ran
  · intro number index receives
    obtain ⟨state, rfl, rfl⟩ := receives.cursor
    obtain ⟨current, found, inArray, isRead⟩ := refinesFinal.reading state
    obtain ⟨current', found', inBounds, iiccon⟩ := keptFinal state
    obtain rfl : current = current' := Except.ok.inj (found.symm.trans found')
    exact ⟨current, inArray, isRead, inBounds, ackControl_bits final.regs inBounds iiccon⟩

/-- A read whose last byte was not acknowledged leaves the bit clear up to the address of
the next one, whose first byte is acknowledged again. -/
example :
    let reads : List I2cMsg := [⟨0x50, 1, 1, 0⟩, ⟨0x50, 1, 2, 8⟩]
    let iiccon := fun irqs =>
      (raiseRun (i2cBusS3c2440Init fun _ => 0) reads irqs).map (·.regs.iiccon)
    iiccon [⟨0, 0⟩, ⟨0, 0x5a⟩] = .ok 0x2f ∧ iiccon [⟨0, 0⟩, ⟨0, 0x5a⟩, ⟨0, 0⟩] = .ok 0xaf :=
  ⟨rfl, rfl⟩

end Mini2440.I2c
