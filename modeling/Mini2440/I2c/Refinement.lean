import Mini2440.I2c.Script

/-!
# The interrupt handler runs the script

The driver keeps two cursors and a state; the script keeps the list of slots to
come.  `Refines` relates them: the message in progress is the one that both cursors
name, and the slots of it that remain are determined by the state and `cur_ptr`.
Every interrupt preserves the relation, so a whole transfer of the driver is the
transfer of the script, and none of its accesses is out of range.
-/

namespace Mini2440.I2c

open Overlay

variable {done rest msgs : List I2cMsg} {msg : I2cMsg} {ctl : Ctl}
variable {base : List BufAccess}

@[simp] theorem Ctl.msg_setState (ctl : Ctl) (state : XferState) :
    (ctl.setState state).msg = ctl.msg := rfl

@[simp] theorem Ctl.msg_setErr (ctl : Ctl) (err : Int) :
    Ctl.msg { ctl with data.err := err } = ctl.msg := rfl

/-- The transfer record points at `msg`, which `done` precedes and `rest` follows
in the caller's array. -/
structure Current (done : List I2cMsg) (msg : I2cMsg) (rest : List I2cMsg)
    (ctl : Ctl) : Prop where
  array : ctl.data.array = done ++ msg :: rest
  msgsNum : ctl.data.msgsNum = (done ++ msg :: rest).length
  msgs : ctl.data.msgs = done.length
  curMsgs : ctl.data.curMsgs = done.length

namespace Current

/-- Only the pointer and the counts matter for the message in progress. -/
theorem congr {ctl' : Ctl} (current : Current done msg rest ctl)
    (array : ctl'.data.array = ctl.data.array)
    (msgsNum : ctl'.data.msgsNum = ctl.data.msgsNum)
    (msgs : ctl'.data.msgs = ctl.data.msgs)
    (curMsgs : ctl'.data.curMsgs = ctl.data.curMsgs) : Current done msg rest ctl' :=
  ⟨array.trans current.array, msgsNum.trans current.msgsNum, msgs.trans current.msgs,
    curMsgs.trans current.curMsgs⟩

theorem of_data_eq {ctl' : Ctl} (current : Current done msg rest ctl)
    (data : ctl'.data = ctl.data) : Current done msg rest ctl' :=
  current.congr (by rw [data]) (by rw [data]) (by rw [data]) (by rw [data])

theorem msg_eq (current : Current done msg rest ctl) : ctl.msg = pure msg := by
  have lookup : ctl.data.array[ctl.data.msgs]? = some msg := by
    simp [current.array, current.msgs]
  simp only [Ctl.msg, lookup]
  rfl

theorem isLastMsg_eq (current : Current done msg rest ctl) :
    isLastMsg ctl = rest.isEmpty := by
  cases rest with
  | nil => simp [isLastMsg, current.curMsgs, current.msgsNum]
  | cons next rest =>
      simp only [isLastMsg, current.curMsgs, current.msgsNum, List.isEmpty_cons,
        beq_eq_false_iff_ne, List.length_append, List.length_cons]
      omega

theorem isEndData_eq (current : Current done msg rest ctl) :
    isEndData ctl = pure (decide (msg.len.toNat ≤ ctl.data.curPtr)) := by
  simp only [isEndData, current.msg_eq, pure_bind, ge_iff_le]

theorem isLastData_eq (current : Current done msg rest ctl) :
    isLastData ctl = pure (decide (ctl.data.curPtr + 1 = msg.len.toNat)) := by
  have same : ((ctl.data.curPtr : Int) == (msg.len.toNat : Int) - 1) =
      decide (ctl.data.curPtr + 1 = msg.len.toNat) := by
    rw [Bool.eq_iff_iff]
    simp only [beq_iff_eq, decide_eq_true_eq]
    omega
  simp only [isLastData, current.msg_eq, pure_bind, same]

/-- `s3c2440_i2c_start` on the current message. -/
theorem start_eq (current : Current done msg rest ctl) :
    s3c2440I2cStart ctl = pure
      { ctl with
        data.state := .start
        regs.iicds := msg.addr.toUInt32 <<< 1
        regs.iicstat := if msg.isRead then 0xb0 else 0xf0
        trace := ctl.trace ++ [startEvent msg] } := by
  simp only [s3c2440I2cStart, Ctl.msg_setState, current.msg_eq, pure_bind]
  cases direction : msg.isRead <;>
    simp [direction, startEvent, Ctl.setState, Ctl.writeIicds, Ctl.generateStart]

/-- `s3c2440_i2c_stop` on the current message. -/
theorem stop_eq (current : Current done msg rest ctl) (err : Int) :
    s3c2440I2cStop err ctl = pure
      { ctl with
        data.state := .stop
        data.err := err
        regs.iicstat := if msg.isRead then 0x90 else 0xd0
        regs.iiccon := 0xaf
        trace := ctl.trace ++ [stopEvent msg] } := by
  simp only [s3c2440I2cStop, Ctl.msg_setErr, Ctl.msg_setState, current.msg_eq,
    pure_bind]
  cases direction : msg.isRead <;>
    simp [direction, stopEvent, Ctl.setState, Ctl.generateStop, Ctl.writeIiccon]

/-- On to the next message. -/
theorem nextMsg_eq {next : I2cMsg} (current : Current done msg (next :: rest) ctl) :
    nextMsg ctl = pure
      { ctl with
        data.msgs := ctl.data.msgs + 1
        data.curMsgs := ctl.data.curMsgs + 1
        data.curPtr := 0
        data.state := .start
        regs.iicds := next.addr.toUInt32 <<< 1
        regs.iicstat := if next.isRead then 0xb0 else 0xf0
        trace := ctl.trace ++ [startEvent next] } := by
  have nextCurrent : Current (done ++ [msg]) next rest
      { ctl with
        data.msgs := ctl.data.msgs + 1
        data.curMsgs := ctl.data.curMsgs + 1
        data.curPtr := 0
        data.state := .start } := by
    constructor <;>
      simp [current.array, current.msgsNum, current.msgs, current.curMsgs]
  rw [nextMsg, nextCurrent.start_eq]

/-- The byte under `cur_ptr` is sent. -/
theorem stateWrite_eq (current : Current done msg rest ctl) {iicSt : UInt32}
    (acked : (iicSt &&& S3C2410_IICSTAT_LASTBIT != 0) = false)
    (more : ctl.data.curPtr < msg.len.toNat) :
    stateWrite iicSt ctl = pure
      { ctl with
        regs.iicds := (ctl.mem (msg.buf + ctl.data.curPtr)).toUInt32
        regs.iiccon := 0xaf
        data.curPtr := ctl.data.curPtr + 1
        trace := ctl.trace ++ [.data (ctl.mem (msg.buf + ctl.data.curPtr)).toUInt32]
        accesses := ctl.accesses ++ [.load ctl.data.msgs ctl.data.curPtr] } := by
  have notEnd : ¬ msg.len.toNat ≤ ctl.data.curPtr := by omega
  simp only [stateWrite, acked, Bool.false_eq_true, if_false, current.isEndData_eq,
    pure_bind, notEnd, decide_false, Bool.not_false, if_true, Ctl.loadBuf,
    current.msg_eq, more]
  rfl

/-- The bus is resumed for the byte under `cur_ptr`. -/
theorem nextRead_eq (current : Current done msg rest ctl)
    (more : ctl.data.curPtr < msg.len.toNat) :
    nextRead ctl =
      pure (ctl.resumeReceive (ackControl msg.len.toNat ctl.data.curPtr)) := by
  have notEnd : ¬ msg.len.toNat ≤ ctl.data.curPtr := by omega
  simp only [nextRead, current.isEndData_eq, pure_bind, notEnd, decide_false,
    Bool.not_false, if_true, current.isLastData_eq, ackControl, decide_eq_true_eq]
  split <;> rfl

end Current

/-- Slot `index` of the current message is the one that the next interrupt takes. -/
def AtSlot (msg : I2cMsg) (data : XferData) (index : Nat) : Prop :=
  match data.state with
  | .start => data.curPtr = 0 ∧ index = 0
  | .write => msg.isRead = false ∧ index = data.curPtr ∧ 0 < index ∧ index ≤ msg.len.toNat
  | .read => msg.isRead = true ∧ index = data.curPtr + 1 ∧ index ≤ msg.len.toNat
  | .idle | .stop => False

theorem AtSlot.cases {data : XferData} {index : Nat} (atSlot : AtSlot msg data index) :
    (data.state = .start ∧ data.curPtr = 0 ∧ index = 0) ∨
      (data.state = .write ∧ msg.isRead = false ∧ index = data.curPtr ∧ 0 < index ∧
        index ≤ msg.len.toNat) ∨
      data.state = .read ∧ msg.isRead = true ∧ index = data.curPtr + 1 ∧
        index ≤ msg.len.toNat := by
  simp only [AtSlot] at atSlot
  split at atSlot
  next state => exact .inl ⟨state, atSlot⟩
  next state => exact .inr (.inl ⟨state, atSlot⟩)
  next state => exact .inr (.inr ⟨state, atSlot⟩)
  all_goals contradiction

theorem AtSlot.le {data : XferData} {index : Nat} (atSlot : AtSlot msg data index) :
    index ≤ msg.len.toNat := by
  rcases atSlot.cases with ⟨-, -, rfl⟩ | ⟨-, -, -, -, bound⟩ | ⟨-, -, -, bound⟩
  · exact Nat.zero_le _
  · exact bound
  · exact bound

/-- The phase of the slot is the state of the driver. -/
theorem AtSlot.phase_eq {data : XferData} {index : Nat}
    (atSlot : AtSlot msg data index) (close : Action) :
    (msg.slot close index).phase = data.state := by
  rcases atSlot.cases with ⟨state, -, rfl⟩ | ⟨state, direction, -, positive, -⟩ |
    ⟨state, direction, rfl, -⟩
  · simp [I2cMsg.slot, state]
  · simp [I2cMsg.slot, state, direction, Nat.pos_iff_ne_zero.mp positive]
  · simp [I2cMsg.slot, state, direction]

/-- An access to a byte of a message of the array. -/
def InRange (msgs : List I2cMsg) : BufAccess → Prop
  | .load index ptr | .store index ptr =>
      ∃ msg, msgs[index]? = some msg ∧ ptr < msg.len.toNat

/-- How far the driver is: at a slot of the message in progress, or stopped. -/
inductive Status (msgs : List I2cMsg) (ctl : Ctl) (transfer : Transfer) : Prop where
  | running (done : List I2cMsg) (msg : I2cMsg) (rest : List I2cMsg) (index : Nat)
      (split : msgs = done ++ msg :: rest)
      (current : Current done msg rest ctl)
      (atSlot : AtSlot msg ctl.data index)
      (err : ctl.data.err = -ENODEV)
      (slots : transfer.slots = (msg.slots (closing rest)).drop index ++ script rest)
      (result : transfer.result = none)
  | finished (done : List I2cMsg) (msg : I2cMsg) (rest : List I2cMsg)
      (split : msgs = done ++ msg :: rest)
      (current : Current done msg rest ctl)
      (state : ctl.data.state = .stop)
      (slots : transfer.slots = [])
      (result : transfer.result = some ctl.data.err)

/-- The driver has done what the transfer has, and every buffer access since `base`
was to a byte of a message. -/
structure Refines (msgs : List I2cMsg) (base : List BufAccess) (ctl : Ctl)
    (transfer : Transfer) : Prop where
  mem : ctl.mem = transfer.mem
  trace : ctl.trace = transfer.trace
  accesses : ∃ new, ctl.accesses = base ++ new ∧ ∀ access ∈ new, InRange msgs access
  status : Status msgs ctl transfer

namespace Refines

variable {transfer : Transfer}

/-- Registers and log play no part in the relation. -/
theorem congr {ctl' : Ctl} (refines : Refines msgs base ctl transfer)
    (data : ctl'.data = ctl.data) (mem : ctl'.mem = ctl.mem)
    (trace : ctl'.trace = ctl.trace) (accesses : ctl'.accesses = ctl.accesses) :
    Refines msgs base ctl' transfer where
  mem := mem.trans refines.mem
  trace := trace.trans refines.trace
  accesses := accesses ▸ refines.accesses
  status := by
    cases refines.status with
    | running done msg rest index split current atSlot err slots result =>
        exact .running done msg rest index split (current.of_data_eq data) (data ▸ atSlot)
          (data ▸ err) slots result
    | finished done msg rest split current state slots result =>
        exact .finished done msg rest split (current.of_data_eq data) (data ▸ state) slots
          (data ▸ result)

end Refines

/-- The state in which the handler reaches its switch. -/
structure Sampled (ctl : Ctl) (irq : Irq) (entry : Ctl) : Prop where
  iicds : entry.regs.iicds = irq.iicds
  data : entry.data = ctl.data
  mem : entry.mem = ctl.mem
  trace : entry.trace = ctl.trace
  accesses : entry.accesses = ctl.accesses

/-- The handler is its switch, between sampling the registers and clearing the
pending bit. -/
theorem deliver_eq_switchState (ctl : Ctl) (irq : Irq) :
    ∃ entry, Sampled ctl irq entry ∧
      deliver ctl irq = do
        let ctl ← switchState irq.iicstat entry
        return ctl.writeIiccon (ctl.regs.iiccon &&& ~~~S3C2410_IICCON_IRQPEND) := by
  simp only [deliver, s3c2440I2cXferIrq]
  split
  · refine ⟨_, ?_, rfl⟩
    exact ⟨rfl, rfl, rfl, rfl, rfl⟩
  · refine ⟨_, ?_, rfl⟩
    exact ⟨rfl, rfl, rfl, rfl, rfl⟩

/-- What a message leaves to the interrupts after its slot `index`, given what the
driver has done up to the end of that interrupt. -/
def Transfer.after (msg : I2cMsg) (rest : List I2cMsg) (index : Nat) (ctl : Ctl) :
    Transfer where
  slots := (msg.slots (closing rest)).drop (index + 1) ++ script rest
  mem := ctl.mem
  trace := ctl.trace ++ [(msg.slot (closing rest) index).event ctl.mem]
  result :=
    if (msg.slots (closing rest)).drop (index + 1) ++ script rest = [] then some 0
    else none

namespace Current

/-- The end of a message, the same code in both data phases: the next message is
started, or the bus stopped. -/
theorem close_refines (current : Current done msg rest ctl)
    (err : ctl.data.err = -ENODEV)
    (accesses : ∃ new, ctl.accesses = base ++ new ∧
      ∀ access ∈ new, InRange (done ++ msg :: rest) access) :
    ∃ ctl', (if !isLastMsg ctl then nextMsg ctl else s3c2440I2cStop 0 ctl) = pure ctl' ∧
      Refines (done ++ msg :: rest) base ctl'
        (Transfer.after msg rest msg.len.toNat ctl) := by
  have drop_nil (close : Action) : (msg.slots close).drop (msg.len.toNat + 1) = [] :=
    List.drop_eq_nil_of_le (by simp)
  cases rest with
  | nil =>
      have last : isLastMsg ctl = true := by simp [current.isLastMsg_eq]
      have stopped := current.stop_eq 0
      simp only [last, Bool.not_true, Bool.false_eq_true, if_false]
      refine ⟨_, stopped, rfl, ?_, accesses, ?_⟩
      · simp [Transfer.after, I2cMsg.slot, Slot.event, closing]
      · refine .finished done msg [] rfl
          (current.congr rfl rfl rfl rfl) rfl ?_ ?_
        · simp [Transfer.after, drop_nil, script]
        · simp [Transfer.after, drop_nil, script]
  | cons next rest =>
      have notLast : isLastMsg ctl = false := by simp [current.isLastMsg_eq]
      have started := current.nextMsg_eq
      simp only [notLast, Bool.not_false, if_true]
      refine ⟨_, started, rfl, ?_, accesses, ?_⟩
      · simp [Transfer.after, I2cMsg.slot, Slot.event, closing]
      · refine .running (done ++ [msg]) next rest 0 (by simp) ?_ ⟨rfl, rfl⟩ err ?_ ?_
        · constructor <;>
            simp [current.array, current.msgsNum, current.msgs, current.curMsgs]
        · simp [Transfer.after, drop_nil, script]
        · simp [Transfer.after, script, I2cMsg.slots]

/-- The label `next_read` with `cur_ptr` bytes received. -/
theorem nextRead_refines (current : Current done msg rest ctl)
    (err : ctl.data.err = -ENODEV)
    (accesses : ∃ new, ctl.accesses = base ++ new ∧
      ∀ access ∈ new, InRange (done ++ msg :: rest) access)
    (direction : msg.isRead = true) (state : ctl.data.state = .read)
    (bound : ctl.data.curPtr ≤ msg.len.toNat) :
    ∃ ctl', nextRead ctl = pure ctl' ∧
      Refines (done ++ msg :: rest) base ctl'
        (Transfer.after msg rest ctl.data.curPtr ctl) := by
  rcases Nat.lt_or_eq_of_le bound with more | atEnd
  · refine ⟨_, current.nextRead_eq more, rfl, ?_, accesses, ?_⟩
    · simp [Transfer.after, I2cMsg.slot, Slot.event, more, byteEvent, direction,
        Ctl.resumeReceive]
    · refine .running done msg rest (ctl.data.curPtr + 1) rfl
        (current.congr rfl rfl rfl rfl) ?_ err rfl ?_
      · simp only [AtSlot, Ctl.resumeReceive, Ctl.writeIiccon, state]
        exact ⟨direction, trivial, more⟩
      · have remaining := msg.slots_drop (closing rest)
          (show ctl.data.curPtr + 1 ≤ msg.len.toNat from more)
        simp [Transfer.after, remaining]
  · have notMore : (!decide (msg.len.toNat ≤ ctl.data.curPtr)) = false := by simp [atEnd]
    simp only [nextRead, current.isEndData_eq, pure_bind, notMore, Bool.false_eq_true,
      if_false]
    rw [atEnd]
    exact current.close_refines err accesses

/-- `case STATE_WRITE` after an acknowledge, with `cur_ptr` bytes sent. -/
theorem stateWrite_refines (current : Current done msg rest ctl)
    (err : ctl.data.err = -ENODEV)
    (accesses : ∃ new, ctl.accesses = base ++ new ∧
      ∀ access ∈ new, InRange (done ++ msg :: rest) access)
    (direction : msg.isRead = false) (state : ctl.data.state = .write)
    (bound : ctl.data.curPtr ≤ msg.len.toNat) {iicSt : UInt32}
    (acked : (iicSt &&& S3C2410_IICSTAT_LASTBIT != 0) = false) :
    ∃ ctl', stateWrite iicSt ctl = pure ctl' ∧
      Refines (done ++ msg :: rest) base ctl'
        (Transfer.after msg rest ctl.data.curPtr ctl) := by
  rcases Nat.lt_or_eq_of_le bound with more | atEnd
  · refine ⟨_, current.stateWrite_eq acked more, rfl, ?_, ?_, ?_⟩
    · simp [Transfer.after, I2cMsg.slot, Slot.event, more, byteEvent, direction]
    · obtain ⟨new, accesses_eq, inRange⟩ := accesses
      refine ⟨new ++ [.load ctl.data.msgs ctl.data.curPtr], by simp [accesses_eq], ?_⟩
      intro access member
      rcases List.mem_append.mp member with earlier | last
      · exact inRange access earlier
      · rw [List.mem_singleton.mp last]
        exact ⟨msg, by simp [current.msgs], more⟩
    · refine .running done msg rest (ctl.data.curPtr + 1) rfl
        (current.congr rfl rfl rfl rfl) ?_ err rfl ?_
      · simp only [AtSlot, state]
        exact ⟨direction, trivial, by omega, more⟩
      · have remaining := msg.slots_drop (closing rest)
          (show ctl.data.curPtr + 1 ≤ msg.len.toNat from more)
        simp [Transfer.after, remaining]
  · have notMore : (!decide (msg.len.toNat ≤ ctl.data.curPtr)) = false := by simp [atEnd]
    simp only [stateWrite, acked, current.isEndData_eq, pure_bind, notMore,
      Bool.false_eq_true, if_false]
    rw [atEnd]
    exact current.close_refines err accesses

/-- `case STATE_START` after an acknowledge. -/
theorem stateStart_refines (current : Current done msg rest ctl)
    (err : ctl.data.err = -ENODEV)
    (accesses : ∃ new, ctl.accesses = base ++ new ∧
      ∀ access ∈ new, InRange (done ++ msg :: rest) access)
    (ptr : ctl.data.curPtr = 0) {iicSt : UInt32}
    (acked : (iicSt &&& S3C2410_IICSTAT_LASTBIT != 0) = false) :
    ∃ ctl', stateStart iicSt ctl = pure ctl' ∧
      Refines (done ++ msg :: rest) base ctl' (Transfer.after msg rest 0 ctl) := by
  simp only [stateStart, acked, Bool.false_eq_true, if_false, current.isEndData_eq,
    pure_bind, current.msg_eq, current.isLastMsg_eq, ptr]
  cases done' : rest.isEmpty && decide (msg.len.toNat ≤ 0) with
  | true =>
      -- An empty last message stops here; its slot is the one that closes it.
      obtain ⟨empty, len⟩ := Bool.and_eq_true_iff.mp done'
      have len : msg.len.toNat = 0 := by simpa using len
      have closed := current.close_refines err accesses
      simpa only [current.isLastMsg_eq, empty, Bool.not_true, Bool.false_eq_true,
        if_false, if_true, len] using closed
  | false =>
      simp only [Bool.false_eq_true, if_false]
      cases direction : msg.isRead with
      | true =>
          have start : (ctl.setState .read).data.curPtr = 0 := ptr
          have current' : Current done msg rest (ctl.setState .read) :=
            current.congr rfl rfl rfl rfl
          have reading := current'.nextRead_refines err accesses direction rfl
            (by simp [start])
          rw [start] at reading
          exact reading
      | false =>
          have start : (ctl.setState .write).data.curPtr = 0 := ptr
          have current' : Current done msg rest (ctl.setState .write) :=
            current.congr rfl rfl rfl rfl
          have writing := current'.stateWrite_refines err accesses direction rfl
            (by simp [start]) acked
          rw [start] at writing
          exact writing

/-- The sampled byte is stored under `cur_ptr`. -/
theorem storeBuf_eq (current : Current done msg rest ctl) (byte : UInt8)
    (bound : ctl.data.curPtr < msg.len.toNat) :
    ctl.storeBuf byte = pure
      { ctl with
        mem := Function.update ctl.mem (msg.buf + ctl.data.curPtr) byte
        accesses := ctl.accesses ++ [.store ctl.data.msgs ctl.data.curPtr] } := by
  simp only [Ctl.storeBuf, current.msg_eq, pure_bind, bound, if_true]

/-- `case STATE_READ`: the store, then `next_read`. -/
theorem stateRead_refines (current : Current done msg rest ctl)
    (err : ctl.data.err = -ENODEV)
    (accesses : ∃ new, ctl.accesses = base ++ new ∧
      ∀ access ∈ new, InRange (done ++ msg :: rest) access)
    (direction : msg.isRead = true) (state : ctl.data.state = .read)
    (bound : ctl.data.curPtr < msg.len.toNat) :
    ∃ ctl', stateRead ctl = pure ctl' ∧
      Refines (done ++ msg :: rest) base ctl'
        (Transfer.after msg rest (ctl.data.curPtr + 1)
          { ctl with
            mem := Function.update ctl.mem (msg.buf + ctl.data.curPtr)
              ctl.regs.iicds.toUInt8 }) := by
  simp only [stateRead, current.storeBuf_eq _ bound, pure_bind]
  obtain ⟨new, accesses_eq, inRange⟩ := accesses
  have current' : Current done msg rest
      { ctl with
        data.curPtr := ctl.data.curPtr + 1
        mem := Function.update ctl.mem (msg.buf + ctl.data.curPtr) ctl.regs.iicds.toUInt8
        accesses := ctl.accesses ++ [.store ctl.data.msgs ctl.data.curPtr] } :=
    current.congr rfl rfl rfl rfl
  refine current'.nextRead_refines err ?_ direction state bound
  refine ⟨new ++ [.store ctl.data.msgs ctl.data.curPtr], by simp [accesses_eq], ?_⟩
  intro access member
  rcases List.mem_append.mp member with earlier | last
  · exact inRange access earlier
  · rw [List.mem_singleton.mp last]
    exact ⟨msg, by simp [current.msgs], bound⟩

end Current

/-- An acknowledged interrupt, in terms of what the driver has done by its end. -/
theorem Transfer.step_eq_after {transfer : Transfer} {index : Nat} (irq : Irq) (ctl : Ctl)
    (bound : index ≤ msg.len.toNat)
    (slots : transfer.slots = (msg.slots (closing rest)).drop index ++ script rest)
    (acked : (msg.slot (closing rest) index).nacked irq = false)
    (mem : ctl.mem =
      overlay transfer.mem ((msg.slot (closing rest) index).received irq))
    (trace : ctl.trace = transfer.trace) :
    transfer.step irq = Transfer.after msg rest index ctl := by
  rw [msg.slots_drop _ bound, List.cons_append] at slots
  simp [Transfer.step, slots, acked, Transfer.after, mem, trace]

/-- The address of a slot that stores nothing. -/
theorem I2cMsg.slot_received_of_dest_eq_none (msg : I2cMsg) (close : Action) (index : Nat)
    (irq : Irq) (dest : ¬ (msg.isRead = true ∧ 0 < index)) :
    (msg.slot close index).received irq = [] := by
  simp [Slot.received, I2cMsg.slot, dest]

namespace Refines

variable {transfer : Transfer}

/-- The handler's switch makes the step of the transfer. -/
theorem switchState (refines : Refines msgs base ctl transfer) {irq : Irq}
    (iicds : ctl.regs.iicds = irq.iicds) :
    ∃ ctl', I2c.switchState irq.iicstat ctl = pure ctl' ∧
      Refines msgs base ctl' (transfer.step irq) := by
  cases refines.status with
  | finished done msg rest split current state slots result =>
      have step_eq : transfer.step irq = transfer := by simp [Transfer.step, slots]
      refine ⟨ctl, by simp only [I2c.switchState, state], ?_⟩
      rw [step_eq]
      exact refines
  | running done msg rest index split current atSlot err slots result =>
      subst split
      have phase_eq := atSlot.phase_eq (closing rest)
      have step_after (ctl' : Ctl) := Transfer.step_eq_after irq ctl' atSlot.le slots
      cases nacked : (msg.slot (closing rest) index).nacked irq with
      | true =>
          -- Both states that wait for an acknowledge stop at once.
          rw [msg.slots_drop _ atSlot.le, List.cons_append] at slots
          rw [Transfer.step_nacked slots nacked]
          simp only [Slot.nacked, phase_eq, Bool.and_eq_true, Irq.lastBit] at nacked
          obtain ⟨awaits, lastBit⟩ := nacked
          have stopped : I2c.switchState irq.iicstat ctl = s3c2440I2cStop (-ENODEV) ctl := by
            cases state : ctl.data.state <;>
              simp_all [I2c.switchState, stateStart, stateWrite, XferState.awaitsAck]
          rw [stopped]
          refine ⟨_, current.stop_eq _, refines.mem, by simp [refines.trace],
            refines.accesses, ?_⟩
          exact .finished done msg rest rfl
            (current.congr rfl rfl rfl rfl) rfl rfl rfl
      | false =>
          have ack := nacked
          simp only [Slot.nacked, phase_eq] at ack
          rcases atSlot.cases with ⟨state, ptr, rfl⟩ | ⟨state, direction, rfl, -, bound⟩ |
            ⟨state, direction, rfl, bound⟩
          · simp only [state, XferState.awaitsAck, Bool.true_and, Irq.lastBit] at ack
            simp only [I2c.switchState, state]
            have none_received := msg.slot_received_of_dest_eq_none (closing rest) 0 irq
              (by simp)
            rw [step_after ctl nacked (by rw [none_received]; exact refines.mem) refines.trace]
            exact current.stateStart_refines err refines.accesses ptr ack
          · simp only [state, XferState.awaitsAck, Bool.true_and, Irq.lastBit] at ack
            simp only [I2c.switchState, state]
            have none_received := msg.slot_received_of_dest_eq_none (closing rest)
              ctl.data.curPtr irq (by simp [direction])
            rw [step_after ctl nacked (by rw [none_received]; exact refines.mem) refines.trace]
            exact current.stateWrite_refines err refines.accesses direction state bound ack
          · simp only [I2c.switchState, state]
            rw [step_after { ctl with
              mem := Function.update ctl.mem (msg.buf + ctl.data.curPtr)
                ctl.regs.iicds.toUInt8 } nacked ?_ refines.trace]
            · exact current.stateRead_refines err refines.accesses direction state bound
            · simp [Slot.received, I2cMsg.slot, direction, refines.mem, iicds, overlay]

/-- One interrupt of the driver is one step of the transfer. -/
theorem deliver (refines : Refines msgs base ctl transfer) (irq : Irq) :
    ∃ ctl', I2c.deliver ctl irq = pure ctl' ∧
      Refines msgs base ctl' (transfer.step irq) := by
  obtain ⟨entry, sampled, delivered⟩ := deliver_eq_switchState ctl irq
  obtain ⟨ctl', switched, refines'⟩ :=
    (refines.congr sampled.data sampled.mem sampled.trace sampled.accesses).switchState
      sampled.iicds
  rw [delivered, switched, pure_bind]
  exact ⟨_, rfl, refines'.congr rfl rfl rfl rfl⟩

theorem deliverAll (refines : Refines msgs base ctl transfer) (irqs : List Irq) :
    ∃ ctl', I2c.deliverAll ctl irqs = pure ctl' ∧
      Refines msgs base ctl' (transfer.run irqs) := by
  induction irqs generalizing ctl transfer with
  | nil => exact ⟨ctl, rfl, refines⟩
  | cons irq irqs ih =>
      obtain ⟨next, delivered, refines'⟩ := refines.deliver irq
      obtain ⟨final, rest, refinesFinal⟩ := ih refines'
      refine ⟨final, ?_, refinesFinal⟩
      simp only [I2c.deliverAll, List.foldlM_cons, delivered, pure_bind]
      exact rest

/-- The state in which the driver takes the next interrupt is the phase of the next
slot. -/
theorem state_eq (refines : Refines msgs base ctl transfer) {slot : Slot}
    {slots : List Slot} (remaining : transfer.slots = slot :: slots) :
    ctl.data.state = slot.phase := by
  cases refines.status with
  | running done msg rest index split current atSlot err slots_eq result =>
      rw [msg.slots_drop _ atSlot.le, List.cons_append, remaining] at slots_eq
      rw [← atSlot.phase_eq (closing rest), (List.cons.inj slots_eq).1]
  | finished done msg rest split current state slots_eq result =>
      rw [remaining] at slots_eq
      contradiction

/-- The message in progress is the message of the next slot. -/
theorem msg_eq (refines : Refines msgs base ctl transfer) {slot : Slot}
    {slots : List Slot} (remaining : transfer.slots = slot :: slots) :
    ctl.msg = pure slot.msg := by
  cases refines.status with
  | running done msg rest index split current atSlot err slots_eq result =>
      rw [msg.slots_drop _ atSlot.le, List.cons_append, remaining] at slots_eq
      rw [current.msg_eq, (List.cons.inj slots_eq).1, I2cMsg.slot_msg]
  | finished done msg rest split current state slots_eq result =>
      rw [remaining] at slots_eq
      contradiction

/-- A state of the driver that waits for an acknowledge has a slot to come. -/
theorem exists_slot (refines : Refines msgs base ctl transfer)
    (state : ctl.data.state ≠ .stop) :
    ∃ slot slots, transfer.slots = slot :: slots := by
  cases refines.status with
  | running done msg rest index split current atSlot err slots_eq result =>
      rw [msg.slots_drop _ atSlot.le, List.cons_append] at slots_eq
      exact ⟨_, _, slots_eq⟩
  | finished done msg rest split current stopped slots_eq result => contradiction

/-- The driver has stopped exactly when the transfer has a result. -/
theorem state_eq_stop_iff (refines : Refines msgs base ctl transfer) :
    ctl.data.state = .stop ↔ transfer.result ≠ none := by
  cases refines.status with
  | running done msg rest index split current atSlot err slots_eq result =>
      have notStop : ctl.data.state ≠ .stop := by
        intro state
        simp [AtSlot, state] at atSlot
      simp [notStop, result]
  | finished done msg rest split current state slots_eq result => simp [state, result]

/-- `err` is the result of the transfer, and `-ENODEV` before there is one. -/
theorem err_eq (refines : Refines msgs base ctl transfer) :
    ctl.data.err = transfer.result.getD (-ENODEV) := by
  cases refines.status with
  | running done msg rest index split current atSlot err slots_eq result =>
      simp [err, result]
  | finished done msg rest split current state slots_eq result => simp [result]

/-- The pointer into the array and the message counter agree and stay inside it. -/
theorem cursor (refines : Refines msgs base ctl transfer) :
    ctl.data.array = msgs ∧ ctl.data.msgs = ctl.data.curMsgs ∧
      ctl.data.curMsgs < msgs.length := by
  have of_current {done : List I2cMsg} {msg : I2cMsg} {rest : List I2cMsg}
      (split : msgs = done ++ msg :: rest) (current : Current done msg rest ctl) :
      ctl.data.array = msgs ∧ ctl.data.msgs = ctl.data.curMsgs ∧
        ctl.data.curMsgs < msgs.length := by
    refine ⟨current.array.trans split.symm, current.msgs.trans current.curMsgs.symm, ?_⟩
    rw [current.curMsgs, split]
    simp
  cases refines.status with
  | running done msg rest index split current => exact of_current split current
  | finished done msg rest split current => exact of_current split current

end Refines

/-- The call of `s3c2440_i2c_xfer` begins the transfer of its array. -/
theorem xfer_refines (ctl : Ctl) (msg : I2cMsg) (rest : List I2cMsg) :
    ∃ ctl', s3c2440I2cXfer (msg :: rest) ctl = pure ctl' ∧
      Refines (msg :: rest) ctl.accesses ctl'
        (Transfer.begin ctl.mem ctl.trace msg rest) := by
  have current : Current [] msg rest
      { ctl with
        data.array := msg :: rest
        data.msgs := 0
        data.msgsNum := (msg :: rest).length
        data.curMsgs := 0
        data.curPtr := 0
        data.err := -ENODEV } := ⟨rfl, rfl, rfl, rfl⟩
  refine ⟨_, current.start_eq, rfl, rfl, ⟨[], by simp, by simp⟩, ?_⟩
  exact .running [] msg rest 0 rfl ⟨rfl, rfl, rfl, rfl⟩ ⟨rfl, rfl⟩ rfl rfl rfl

/-- A whole run of the driver is the run of the transfer. -/
theorem xferRun_refines (ctl : Ctl) (msg : I2cMsg) (rest : List I2cMsg)
    (irqs : List Irq) :
    ∃ ctl', xferRun ctl (msg :: rest) irqs = pure ctl' ∧
      Refines (msg :: rest) ctl.accesses ctl'
        ((Transfer.begin ctl.mem ctl.trace msg rest).run irqs) := by
  obtain ⟨started, begun, refines⟩ := xfer_refines ctl msg rest
  obtain ⟨final, delivered, refinesFinal⟩ := refines.deliverAll irqs
  refine ⟨final, ?_, refinesFinal⟩
  simp only [xferRun, begun, pure_bind]
  exact delivered

end Mini2440.I2c
