import Mini2440.I2c.Xfer

/-!
# The adapter's result and its client

What a whole call of `s3c2440_i2c_xfer` returns, and what the EEPROM driver
`19th_i2c_drv/5th/at24cxx.c` makes of it.  The adapter returns the error code that the
interrupt handler left, the client compares the result with the number of messages.
-/

namespace Mini2440.I2c

/-! ## A whole call -/

/-- `wait_event_timeout`, which looks again with `left` jiffies to go: 0 when the time is
over, and it does not leave earlier unless the condition holds. -/
def waitEventTimeout (condition : Bool) (left : Nat) : Nat :=
  if condition then left else 0

/-- A call of `s3c2440_i2c_xfer`, the interrupts that come during its wait, and its
value. -/
def xferCall (irqs : List Irq) (left : Nat) (msgs : List I2cMsg) (ctl : Ctl) :
    Except Fault (Int × Ctl) := do
  let ctl ← xferRun ctl msgs irqs
  return s3c2440I2cXferReturn (waitEventTimeout (ctl.data.state == .stop) left) ctl

/-- Every address and every byte sent is acknowledged, all the interrupts of the array
come, and they come in time. -/
def Delivered (msgs : List I2cMsg) (irqs : List Irq) (left : Nat) : Prop :=
  Acked (script msgs) irqs ∧ interruptCount msgs ≤ irqs.length ∧ left ≠ 0

instance (msgs : List I2cMsg) (irqs : List Irq) (left : Nat) :
    Decidable (Delivered msgs irqs left) :=
  inferInstanceAs (Decidable (_ ∧ _ ∧ _))

/-- The transfer completes without a missing acknowledge before the time is over. -/
def Succeeds (ctl : Ctl) (msgs : List I2cMsg) (irqs : List Irq) (left : Nat) : Prop :=
  (∃ final, xferRun ctl msgs irqs = .ok final ∧ final.data.state = .stop) ∧
    (∀ k, ¬ NackAt ctl msgs irqs k) ∧ left ≠ 0

theorem succeeds_iff_delivered {ctl : Ctl} {msg : I2cMsg} {rest : List I2cMsg}
    {irqs : List Irq} {left : Nat} :
    Succeeds ctl (msg :: rest) irqs left ↔ Delivered (msg :: rest) irqs left := by
  obtain ⟨final, ran, refines⟩ := xferRun_refines ctl msg rest irqs
  rw [Succeeds, Delivered, ← acked_iff_forall_not_nackAt]
  constructor
  · rintro ⟨⟨final', ran', stopped⟩, acked, inTime⟩
    obtain rfl : final = final' := Except.ok.inj (ran.symm.trans ran')
    refine ⟨acked, ?_, inTime⟩
    have result := refines.state_eq_stop_iff.mp stopped
    rw [begin_run_acked ctl msg rest acked] at result
    by_contra early
    exact result (if_neg early)
  · rintro ⟨acked, complete, inTime⟩
    refine ⟨⟨final, ran, refines.state_eq_stop_iff.mpr ?_⟩, acked, inTime⟩
    rw [begin_run_acked ctl msg rest acked]
    simp [complete]

/-- The two ends of a transfer. -/
theorem Transfer.run_result (ctl : Ctl) (msg : I2cMsg) (rest : List I2cMsg)
    (irqs : List Irq) :
    ((Transfer.begin ctl.mem ctl.trace msg rest).run irqs).result =
      if Acked (script (msg :: rest)) irqs then
        if interruptCount (msg :: rest) ≤ irqs.length then some 0 else none
      else some (-ENODEV) := by
  rcases acked_or_first_nack (script (msg :: rest)) irqs with
    acked | ⟨before, irq, after, slot, split_eq, acked, slotAt, nacked⟩
  · rw [begin_run_acked ctl msg rest acked, if_pos acked]
  · have missing : ¬ Acked (script (msg :: rest)) irqs := by
      intro every
      have ack := acked_iff.mp every before.length slot irq slotAt (by simp [split_eq])
      rw [nacked] at ack
      contradiction
    rw [if_neg missing, split_eq, Transfer.run_nacked after acked slotAt nacked]

/-- A call returns 0 when everything was delivered, and an error code otherwise; never a
number of messages. -/
theorem xferCall_eq (ctl : Ctl) (msg : I2cMsg) (rest : List I2cMsg) (irqs : List Irq)
    (left : Nat) :
    ∃ final, xferCall irqs left (msg :: rest) ctl = .ok
      (if Delivered (msg :: rest) irqs left then 0
        else if Acked (script (msg :: rest)) irqs ∨ left = 0 then -ETIMEDOUT
        else -ENODEV, final) := by
  obtain ⟨final, ran, refines⟩ := xferRun_refines ctl msg rest irqs
  refine ⟨(s3c2440I2cXferReturn
    (waitEventTimeout (final.data.state == .stop) left) final).2, ?_⟩
  have err := refines.err_eq
  have stopped := refines.state_eq_stop_iff
  rw [Transfer.run_result] at err stopped
  simp only [xferCall, ran, pure_bind]
  refine congrArg Except.ok (Prod.ext ?_ rfl)
  by_cases expired : left = 0
  · simp [Delivered, expired, waitEventTimeout, s3c2440I2cXferReturn]
  · by_cases acked : Acked (script (msg :: rest)) irqs
    · by_cases complete : interruptCount (msg :: rest) ≤ irqs.length
      · have state : final.data.state = .stop := stopped.mpr (by simp [acked, complete])
        simp [Delivered, acked, complete, expired, waitEventTimeout,
          s3c2440I2cXferReturn, state, err]
      · have running : final.data.state ≠ .stop := by simp [stopped, acked, complete]
        simp [Delivered, acked, complete, waitEventTimeout, s3c2440I2cXferReturn,
          running]
    · have state : final.data.state = .stop := stopped.mpr (by simp [acked])
      simp [Delivered, acked, expired, waitEventTimeout, s3c2440I2cXferReturn, state, err]

/-! ## The client -/

/-- The locals of `at24cxx_read` whose addresses it hands out. -/
structure ReadFrame where
  addr : Nat
  data : Nat
  distinct : addr ≠ data

/-- `msgs` of `at24cxx_read`: the address to read from is sent, one byte is received. -/
def readMsgs (client : UInt16) (frame : ReadFrame) : List I2cMsg :=
  [⟨client, 0, 1, frame.addr⟩, ⟨client, I2C_M_RD, 1, frame.data⟩]

/-- `at24cxx_read` over the value of `i2c_transfer`; `client` is `at24cxx_client->addr`,
`buf` what the caller's buffer holds. -/
def at24cxxRead (i2cTransfer : List I2cMsg → Ctl → Except Fault (Int × Ctl))
    (client : UInt16) (frame : ReadFrame) (buf : Nat → UInt8) (size : Nat) (ctl : Ctl) :
    Except Fault (Int × (Nat → UInt8) × Ctl) := do
  if size ≠ 1 then
    return (-1, buf, ctl)
  let ctl := { ctl with mem := Function.update ctl.mem frame.addr (buf 0) }
  let (iRet, ctl) ← i2cTransfer (readMsgs client frame) ctl
  if iRet = 2 then
    return (1, Function.update buf 0 (ctl.mem frame.data), ctl)
  else
    return (-1, buf, ctl)

/-- `msgs` of `at24cxx_write`, whose local `val` holds the address and the data. -/
def writeMsgs (client : UInt16) (val : Nat) : List I2cMsg :=
  [⟨client, 0, 2, val⟩]

/-- `at24cxx_write`, a transfer of one message. -/
def at24cxxWrite (i2cTransfer : List I2cMsg → Ctl → Except Fault (Int × Ctl))
    (client : UInt16) (val : Nat) (buf : Nat → UInt8) (size : Nat) (ctl : Ctl) :
    Except Fault (Int × Ctl) := do
  if size ≠ 2 then
    return (-1, ctl)
  let ctl := { ctl with
    mem := Function.update (Function.update ctl.mem val (buf 0)) (val + 1) (buf 1) }
  let (iRet, ctl) ← i2cTransfer (writeMsgs client val) ctl
  if iRet = 1 then
    return (2, ctl)
  else
    return (-1, ctl)

/-! ## Agreement -/

/-- `master_xfer` returns the number of messages when the transfer succeeds, and a
negative value when it fails. -/
def AdapterAgrees (ctl : Ctl) (msgs : List I2cMsg) (irqs : List Irq) (left : Nat) :
    Prop :=
  ∃ value final, xferCall irqs left msgs ctl = .ok (value, final) ∧
    (Succeeds ctl msgs irqs left → value = msgs.length) ∧
    (¬ Succeeds ctl msgs irqs left → value < 0)

/-- `at24cxx_read` returns 1 with the byte received, the one sampled at the fourth
interrupt, exactly when its messages are acknowledged. -/
def ReadAgrees (ctl : Ctl) (client : UInt16) (frame : ReadFrame) (buf : Nat → UInt8)
    (irqs : List Irq) (left : Nat) : Prop :=
  ∃ value buf' final,
    at24cxxRead (xferCall irqs left) client frame buf 1 ctl = .ok (value, buf', final) ∧
      (Delivered (readMsgs client frame) irqs left ↔
        value = 1 ∧ ∃ irq, irqs[3]? = some irq ∧ buf' 0 = irq.iicds.toUInt8)

/-- `at24cxx_write` returns 2 exactly when its message is acknowledged. -/
def WriteAgrees (ctl : Ctl) (client : UInt16) (val : Nat) (buf : Nat → UInt8)
    (irqs : List Irq) (left : Nat) : Prop :=
  ∃ value final,
    at24cxxWrite (xferCall irqs left) client val buf 2 ctl = .ok (value, final) ∧
      (Delivered (writeMsgs client val) irqs left ↔ value = 2)

/-- Whatever happens, the adapter's value is none that the client waits for. -/
theorem xferCall_le_zero (ctl : Ctl) (msg : I2cMsg) (rest : List I2cMsg)
    (irqs : List Irq) (left : Nat) :
    ∃ value final, xferCall irqs left (msg :: rest) ctl = .ok (value, final) ∧
      value ≤ 0 ∧ (value < 0 ↔ ¬ Delivered (msg :: rest) irqs left) := by
  obtain ⟨final, called⟩ := xferCall_eq ctl msg rest irqs left
  refine ⟨_, final, called, ?_⟩
  split
  next delivered => simp [delivered]
  next failed =>
      split
      all_goals simp [failed, ETIMEDOUT, ENODEV]

theorem adapterAgrees_iff (ctl : Ctl) (msg : I2cMsg) (rest : List I2cMsg)
    (irqs : List Irq) (left : Nat) :
    AdapterAgrees ctl (msg :: rest) irqs left ↔ ¬ Delivered (msg :: rest) irqs left := by
  obtain ⟨value, final, called, bound, negative⟩ := xferCall_le_zero ctl msg rest irqs left
  rw [AdapterAgrees, succeeds_iff_delivered]
  constructor
  · rintro ⟨value', final', called', onSuccess, -⟩ delivered
    obtain ⟨rfl, -⟩ := Prod.mk.inj (Except.ok.inj (called.symm.trans called'))
    have count := onSuccess delivered
    rw [List.length_cons] at count
    omega
  · intro failed
    exact ⟨value, final, called, fun delivered => absurd delivered failed,
      fun _ => negative.mpr failed⟩

/-- The client counts two messages, the adapter none. -/
theorem at24cxxRead_fails (ctl : Ctl) (client : UInt16) (frame : ReadFrame)
    (buf : Nat → UInt8) (irqs : List Irq) (left : Nat) :
    ∃ final, at24cxxRead (xferCall irqs left) client frame buf 1 ctl = .ok (-1, buf, final) := by
  obtain ⟨value, final, called, bound, -⟩ := xferCall_le_zero
    { ctl with mem := Function.update ctl.mem frame.addr (buf 0) }
    ⟨client, 0, 1, frame.addr⟩ [⟨client, I2C_M_RD, 1, frame.data⟩] irqs left
  have other : value ≠ 2 := by omega
  refine ⟨final, ?_⟩
  simp only [at24cxxRead, readMsgs, called]
  simp [Bind.bind, Except.bind, other]
  rfl

theorem readAgrees_iff (ctl : Ctl) (client : UInt16) (frame : ReadFrame)
    (buf : Nat → UInt8) (irqs : List Irq) (left : Nat) :
    ReadAgrees ctl client frame buf irqs left ↔
      ¬ Delivered (readMsgs client frame) irqs left := by
  obtain ⟨final, returned⟩ := at24cxxRead_fails ctl client frame buf irqs left
  constructor
  · rintro ⟨value, buf', final', returned', agrees⟩ delivered
    have one := (agrees.mp delivered).1
    rw [returned, one] at returned'
    simp at returned'
  · intro failed
    exact ⟨-1, buf, final, returned, by simp [failed]⟩

theorem at24cxxWrite_fails (ctl : Ctl) (client : UInt16) (val : Nat) (buf : Nat → UInt8)
    (irqs : List Irq) (left : Nat) :
    ∃ final, at24cxxWrite (xferCall irqs left) client val buf 2 ctl = .ok (-1, final) := by
  obtain ⟨value, final, called, bound, -⟩ := xferCall_le_zero
    { ctl with
      mem := Function.update (Function.update ctl.mem val (buf 0)) (val + 1) (buf 1) }
    ⟨client, 0, 2, val⟩ [] irqs left
  have other : value ≠ 1 := by omega
  refine ⟨final, ?_⟩
  simp only [at24cxxWrite, writeMsgs, called]
  simp [Bind.bind, Except.bind, other]
  rfl

theorem writeAgrees_iff (ctl : Ctl) (client : UInt16) (val : Nat) (buf : Nat → UInt8)
    (irqs : List Irq) (left : Nat) :
    WriteAgrees ctl client val buf irqs left ↔
      ¬ Delivered (writeMsgs client val) irqs left := by
  obtain ⟨final, returned⟩ := at24cxxWrite_fails ctl client val buf irqs left
  constructor
  · rintro ⟨value, final', returned', agrees⟩ delivered
    rw [returned, agrees.mp delivered] at returned'
    simp at returned'
  · intro failed
    exact ⟨-1, final, returned, by simp [failed]⟩

/-- The adapter and its client disagree on every transfer that succeeds, and on those
only: for every array the value is the number of messages or an error code, for every
address and data byte the client's result tells whether they were acknowledged, exactly
when the transfer fails. -/
theorem result_agrees_iff (ctl : Ctl) (irqs : List Irq) (left : Nat) :
    (∀ msg rest, AdapterAgrees ctl (msg :: rest) irqs left ↔
      ¬ Delivered (msg :: rest) irqs left) ∧
    (∀ client frame buf, ReadAgrees ctl client frame buf irqs left ↔
      ¬ Delivered (readMsgs client frame) irqs left) ∧
    (∀ client val buf, WriteAgrees ctl client val buf irqs left ↔
      ¬ Delivered (writeMsgs client val) irqs left) := by
  refine ⟨?_, ?_, ?_⟩
  · intro msg rest
    exact adapterAgrees_iff ctl msg rest irqs left
  · intro client frame buf
    exact readAgrees_iff ctl client frame buf irqs left
  · intro client val buf
    exact writeAgrees_iff ctl client val buf irqs left

/-- A random read and a byte write, all of it acknowledged in time. -/
theorem acked_reported_failed :
    ¬ AdapterAgrees (i2cBusS3c2440Init fun _ => 0) randomRead randomReadIrqs 500 ∧
      ¬ ReadAgrees (i2cBusS3c2440Init fun _ => 0) 0x50 ⟨0, 8, by decide⟩ (fun _ => 0x12)
        randomReadIrqs 500 ∧
      ¬ WriteAgrees (i2cBusS3c2440Init fun _ => 0) 0x50 0 (fun _ => 0x12)
        [⟨0, 0⟩, ⟨0, 0⟩, ⟨0, 0⟩] 500 := by
  refine ⟨?_, ?_, ?_⟩
  · intro agrees
    exact (adapterAgrees_iff _ _ _ _ _).mp agrees (by decide)
  · intro agrees
    exact (readAgrees_iff _ _ _ _ _ _).mp agrees (by decide)
  · intro agrees
    exact (writeAgrees_iff _ _ _ _ _ _).mp agrees (by decide)

end Mini2440.I2c
