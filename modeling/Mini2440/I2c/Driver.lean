import Mathlib.Logic.Function.Basic
import Mathlib.Data.List.Basic

/-!
# The S3C2440 I2C master

The interrupt-driven adapter of `6th_i2c_bus/2th/i2c_bus_s3c2440.c`: the transfer
record that `s3c2440_i2c_xfer` and the interrupt handler share, the controller
registers, and the handler with its fall-through from `STATE_START` into
`STATE_WRITE` and its jump into the middle of `STATE_READ`.

Two things are recorded besides the program's own variables: what each register
write does on the bus, and every access to a message buffer.  A dereference
outside the caller's array, or a buffer access outside the message, is a `Fault`.
-/

namespace Mini2440.I2c

/-- The kernel's error numbers. -/
def ENODEV : Int := 19
def ETIMEDOUT : Int := 110

/-- The flag of a message that reads. -/
def I2C_M_RD : UInt16 := 0x0001

/-- `S3C2410_IICSTAT_LASTBIT`: the last received bit is 1, no ACK was received. -/
def S3C2410_IICSTAT_LASTBIT : UInt32 := 0x1

/-- `S3C2410_IICCON_IRQPEND`: interrupt pending, cleared to resume the bus. -/
def S3C2410_IICCON_IRQPEND : UInt32 := 0x10

/-- `enum s3c24xx_i2c_state`. -/
inductive XferState where
  | idle
  | start
  | read
  | write
  | stop
  deriving DecidableEq, Repr

/-- `struct i2c_msg`; `buf` is the address of the first byte of the buffer. -/
structure I2cMsg where
  addr : UInt16
  flags : UInt16
  len : UInt16
  buf : Nat
  deriving DecidableEq, Repr

/-- `flags & I2C_M_RD`. -/
def I2cMsg.isRead (msg : I2cMsg) : Bool := msg.flags &&& I2C_M_RD != 0

/-- `struct s3c2440_i2c_regs`. -/
structure I2cRegs where
  iiccon : UInt32
  iicstat : UInt32
  iicadd : UInt32
  iicds : UInt32
  iiclc : UInt32
  deriving DecidableEq, Repr

/-- `struct s3c2440_i2c_xfer_data`.  The pointer `msgs` is an offset into the
array that the caller of `s3c2440_i2c_xfer` passed. -/
structure XferData where
  array : List I2cMsg
  msgs : Nat
  msgsNum : Nat
  curMsgs : Nat
  curPtr : Nat
  state : XferState
  err : Int
  deriving DecidableEq, Repr

/-- What the driver makes the controller do on the bus. -/
inductive BusEvent where
  /-- START with the address byte in IICDS. -/
  | start (iicds iicstat : UInt32)
  /-- A data byte put in IICDS. -/
  | data (iicds : UInt32)
  /-- The bus resumed to receive a byte. -/
  | receive (iiccon : UInt32)
  | stop (iicstat : UInt32)
  deriving DecidableEq, Repr

/-- An access to byte `ptr` of the buffer of message `msg`. -/
inductive BufAccess where
  | load (msg ptr : Nat)
  | store (msg ptr : Nat)
  deriving DecidableEq, Repr

/-- An access outside the object it is meant for. -/
inductive Fault where
  | msgs (index : Nat)
  | buf (msg ptr : Nat)
  deriving DecidableEq, Repr

/-- Registers, transfer record, memory of the message buffers, and what has been
observed so far. -/
structure Ctl where
  regs : I2cRegs
  data : XferData
  mem : Nat → UInt8
  trace : List BusEvent
  accesses : List BufAccess
  klog : List String

/-- What the controller registers hold when the interrupt is taken. -/
structure Irq where
  iicstat : UInt32
  iicds : UInt32
  deriving DecidableEq, Repr

namespace Ctl

/-- `s3c2440_i2c_xfer_data.msgs->`. -/
def msg (ctl : Ctl) : Except Fault I2cMsg :=
  match ctl.data.array[ctl.data.msgs]? with
  | some msg => .ok msg
  | none => .error (.msgs ctl.data.msgs)

/-- `s3c2440_i2c_xfer_data.state = state`. -/
def setState (ctl : Ctl) (state : XferState) : Ctl :=
  { ctl with data.state := state }

/-- A line of the kernel log. -/
def printk (ctl : Ctl) (text : String) : Ctl :=
  { ctl with klog := ctl.klog ++ [text] }

/-- A write to IICCON. -/
def writeIiccon (ctl : Ctl) (value : UInt32) : Ctl :=
  { ctl with regs.iiccon := value }

/-- A write to IICDS. -/
def writeIicds (ctl : Ctl) (value : UInt32) : Ctl :=
  { ctl with regs.iicds := value }

/-- Write IICSTAT with the busy bit set: a START goes out with IICDS. -/
def generateStart (ctl : Ctl) (value : UInt32) : Ctl :=
  { ctl with
    regs.iicstat := value
    trace := ctl.trace ++ [.start ctl.regs.iicds value] }

/-- Write IICSTAT with the busy bit clear: a STOP goes out. -/
def generateStop (ctl : Ctl) (value : UInt32) : Ctl :=
  { ctl with
    regs.iicstat := value
    trace := ctl.trace ++ [.stop value] }

/-- Put a data byte in IICDS. -/
def transmit (ctl : Ctl) (byte : UInt8) : Ctl :=
  { ctl.writeIicds byte.toUInt32 with
    trace := ctl.trace ++ [.data byte.toUInt32] }

/-- Write IICCON to let the bus receive the next byte. -/
def resumeReceive (ctl : Ctl) (value : UInt32) : Ctl :=
  { ctl.writeIiccon value with trace := ctl.trace ++ [.receive value] }

/-- `s3c2440_i2c_xfer_data.msgs->buf[s3c2440_i2c_xfer_data.cur_ptr]`. -/
def loadBuf (ctl : Ctl) : Except Fault (UInt8 × Ctl) := do
  let msg ← ctl.msg
  if ctl.data.curPtr < msg.len.toNat then
    return (ctl.mem (msg.buf + ctl.data.curPtr),
      { ctl with accesses := ctl.accesses ++ [.load ctl.data.msgs ctl.data.curPtr] })
  else
    throw (.buf ctl.data.msgs ctl.data.curPtr)

/-- `s3c2440_i2c_xfer_data.msgs->buf[s3c2440_i2c_xfer_data.cur_ptr] = byte`. -/
def storeBuf (ctl : Ctl) (byte : UInt8) : Except Fault Ctl := do
  let msg ← ctl.msg
  if ctl.data.curPtr < msg.len.toNat then
    return { ctl with
      mem := Function.update ctl.mem (msg.buf + ctl.data.curPtr) byte
      accesses := ctl.accesses ++ [.store ctl.data.msgs ctl.data.curPtr] }
  else
    throw (.buf ctl.data.msgs ctl.data.curPtr)

end Ctl

/-- `s3c2440_i2c_start`: the address goes out, and the direction is in IICSTAT. -/
def s3c2440I2cStart (ctl : Ctl) : Except Fault Ctl := do
  let ctl := ctl.setState .start
  let msg ← ctl.msg
  if msg.isRead then
    let ctl := ctl.writeIicds (msg.addr.toUInt32 <<< 1)
    return ctl.generateStart 0xb0
  else
    let ctl := ctl.writeIicds (msg.addr.toUInt32 <<< 1)
    return ctl.generateStart 0xf0

/-- `s3c2440_i2c_stop`: the STOP goes out, and `err` is left for the waiting call. -/
def s3c2440I2cStop (err : Int) (ctl : Ctl) : Except Fault Ctl := do
  let ctl := ctl.setState .stop
  let ctl := { ctl with data.err := err }
  let msg ← ctl.msg
  if msg.isRead then
    let ctl := ctl.generateStop 0x90
    return ctl.writeIiccon 0xaf
  else
    let ctl := ctl.generateStop 0xd0
    return ctl.writeIiccon 0xaf

/-- `s3c2440_i2c_xfer` up to the call of `wait_event_timeout`. -/
def s3c2440I2cXfer (msgs : List I2cMsg) (ctl : Ctl) : Except Fault Ctl :=
  s3c2440I2cStart
    { ctl with
      data.array := msgs
      data.msgs := 0
      data.msgsNum := msgs.length
      data.curMsgs := 0
      data.curPtr := 0
      data.err := -ENODEV }

/-- `s3c2440_i2c_xfer` after `wait_event_timeout`, whose result `timeout` is 0 when
the five seconds elapsed: the value returned. -/
def s3c2440I2cXferReturn (timeout : Nat) (ctl : Ctl) : Int × Ctl :=
  if timeout = 0 then
    (-ETIMEDOUT, ctl.printk "s3c2440_i2c_xfer time out\n")
  else
    (ctl.data.err, ctl)

/-- `isLastMsg`: no message comes after this one. -/
def isLastMsg (ctl : Ctl) : Bool :=
  (ctl.data.curMsgs : Int) == (ctl.data.msgsNum : Int) - 1

/-- `isEndData`: the bytes of the message have all gone. -/
def isEndData (ctl : Ctl) : Except Fault Bool := do
  let msg ← ctl.msg
  return decide (ctl.data.curPtr ≥ msg.len.toNat)

/-- `isLastData`: the next byte is the last of the message. -/
def isLastData (ctl : Ctl) : Except Fault Bool := do
  let msg ← ctl.msg
  return (ctl.data.curPtr : Int) == (msg.len.toNat : Int) - 1

/-- The branch `!isLastMsg()` of both data phases: on to the next message. -/
def nextMsg (ctl : Ctl) : Except Fault Ctl :=
  s3c2440I2cStart
    { ctl with
      data.msgs := ctl.data.msgs + 1
      data.curMsgs := ctl.data.curMsgs + 1
      data.curPtr := 0
      data.state := .start }

/-- `case STATE_WRITE`. -/
def stateWrite (iicSt : UInt32) (ctl : Ctl) : Except Fault Ctl := do
  if iicSt &&& S3C2410_IICSTAT_LASTBIT != 0 then
    s3c2440I2cStop (-ENODEV) ctl
  else if !(← isEndData ctl) then
    let (byte, ctl) ← ctl.loadBuf
    let ctl := ctl.transmit byte
    let ctl := { ctl with data.curPtr := ctl.data.curPtr + 1 }
    return ctl.writeIiccon 0xaf
  else if !isLastMsg ctl then
    nextMsg ctl
  else
    s3c2440I2cStop 0 ctl

/-- The label `next_read` inside `case STATE_READ`. -/
def nextRead (ctl : Ctl) : Except Fault Ctl := do
  if !(← isEndData ctl) then
    if ← isLastData ctl then
      return ctl.resumeReceive 0x2f
    else
      return ctl.resumeReceive 0xaf
  else if !isLastMsg ctl then
    nextMsg ctl
  else
    s3c2440I2cStop 0 ctl

/-- `case STATE_READ`. -/
def stateRead (ctl : Ctl) : Except Fault Ctl := do
  let ctl ← ctl.storeBuf ctl.regs.iicds.toUInt8
  let ctl := { ctl with data.curPtr := ctl.data.curPtr + 1 }
  nextRead ctl

/-- `case STATE_START`, which falls through into `case STATE_WRITE` for a write
and jumps to `next_read` for a read. -/
def stateStart (iicSt : UInt32) (ctl : Ctl) : Except Fault Ctl := do
  if iicSt &&& S3C2410_IICSTAT_LASTBIT != 0 then
    s3c2440I2cStop (-ENODEV) ctl
  else if isLastMsg ctl && (← isEndData ctl) then
    s3c2440I2cStop 0 ctl
  else
    let msg ← ctl.msg
    if msg.isRead then
      nextRead (ctl.setState .read)
    else
      stateWrite iicSt (ctl.setState .write)

/-- `switch (s3c2440_i2c_xfer_data.state)`. -/
def switchState (iicSt : UInt32) (ctl : Ctl) : Except Fault Ctl :=
  match ctl.data.state with
  | .start => stateStart iicSt ctl
  | .write => stateWrite iicSt ctl
  | .read => stateRead ctl
  | .idle | .stop => pure ctl

/-- `s3c2440_i2c_xfer_irq`. -/
def s3c2440I2cXferIrq (ctl : Ctl) : Except Fault Ctl := do
  let iicSt := ctl.regs.iicstat
  let ctl :=
    if iicSt &&& 0x8 != 0 then ctl.printk "Bus arbitration failed\n\r" else ctl
  let ctl ← switchState iicSt ctl
  return ctl.writeIiccon (ctl.regs.iiccon &&& ~~~S3C2410_IICCON_IRQPEND)

/-- The register part of `s3c2440_i2c_init`. -/
def s3c2440I2cInit (ctl : Ctl) : Ctl :=
  { ctl with
    regs.iiccon := ((1 : UInt32) <<< 7) ||| ((0 : UInt32) <<< 6) ||| ((1 : UInt32) <<< 5) ||| 0xf
    regs.iicadd := 0x10
    regs.iicstat := 0x10 }

/-- After `i2c_bus_s3c2440_init`: the static transfer record is still zero. -/
def i2cBusS3c2440Init (mem : Nat → UInt8) : Ctl :=
  s3c2440I2cInit
    { regs := ⟨0, 0, 0, 0, 0⟩
      data := ⟨[], 0, 0, 0, 0, .idle, 0⟩
      mem := mem
      trace := []
      accesses := []
      klog := [] }

/-- The controller raises its interrupt with the given register contents and the
handler runs. -/
def deliver (ctl : Ctl) (irq : Irq) : Except Fault Ctl :=
  s3c2440I2cXferIrq
    { ctl with regs.iicstat := irq.iicstat, regs.iicds := irq.iicds }

/-- Any number of interrupts, in order. -/
def deliverAll (ctl : Ctl) (irqs : List Irq) : Except Fault Ctl :=
  irqs.foldlM deliver ctl

/-- A call of `s3c2440_i2c_xfer` followed by the interrupts. -/
def xferRun (ctl : Ctl) (msgs : List I2cMsg) (irqs : List Irq) : Except Fault Ctl := do
  deliverAll (← s3c2440I2cXfer msgs ctl) irqs

end Mini2440.I2c
