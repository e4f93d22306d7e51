import Mathlib.Algebra.GroupWithZero.Nat
import Mini2440.Lib.Overlay
import Mini2440.I2c.Driver

/-!
# A transfer as a script

What an array of messages asks for, stated without cursors and states: a list of
slots, one for each interrupt of a transfer in which everything is acknowledged.
A slot says in which phase its interrupt is taken, where the sampled byte goes, and
what is done on the bus.  `Transfer` consumes the script one slot an interrupt and
gives up at the first address or data byte that is not acknowledged.
-/

namespace Mini2440.I2c

open Overlay

/-- START with the address of a message, in its direction. -/
def startEvent (msg : I2cMsg) : BusEvent :=
  .start (msg.addr.toUInt32 <<< 1) (if msg.isRead then 0xb0 else 0xf0)

/-- STOP in the direction of a message. -/
def stopEvent (msg : I2cMsg) : BusEvent :=
  .stop (if msg.isRead then 0x90 else 0xd0)

/-- Acknowledge every byte of a read of `len` bytes but the last. -/
def ackControl (len index : Nat) : UInt32 :=
  if index + 1 = len then 0x2f else 0xaf

/-- The data part of a message: byte `index` sent from memory, or received. -/
def byteEvent (mem : Nat → UInt8) (msg : I2cMsg) (index : Nat) : BusEvent :=
  if msg.isRead then .receive (ackControl msg.len.toNat index)
  else .data (mem (msg.buf + index)).toUInt32

/-- Everything one message puts on the bus. -/
def msgTrace (mem : Nat → UInt8) (msg : I2cMsg) : List BusEvent :=
  startEvent msg :: (List.range msg.len.toNat).map (byteEvent mem msg)

/-- The bus trace of a transfer whose buffers hold `mem`: the messages in array
order, then one STOP in the direction of the last one. -/
def busTrace (mem : Nat → UInt8) : List I2cMsg → List BusEvent
  | [] => []
  | [msg] => msgTrace mem msg ++ [stopEvent msg]
  | msg :: next :: rest => msgTrace mem msg ++ busTrace mem (next :: rest)

/-- The interrupts that the messages take: one for the address of each and one for
each of its bytes. -/
def interruptCount (msgs : List I2cMsg) : Nat :=
  (msgs.map fun msg => msg.len.toNat + 1).sum

@[simp] theorem interruptCount_nil : interruptCount [] = 0 := rfl

theorem interruptCount_cons (msg : I2cMsg) (rest : List I2cMsg) :
    interruptCount (msg :: rest) = msg.len.toNat + 1 + interruptCount rest := by
  simp [interruptCount]

/-- What is done on the bus at the end of an interrupt. -/
inductive Action where
  /-- The next byte of the message, at its place in the array's buffers. -/
  | byte (index : Nat)
  | start (next : I2cMsg)
  | stop
  deriving DecidableEq, Repr

/-- One interrupt of a transfer. -/
structure Slot where
  msg : I2cMsg
  phase : XferState
  dest : Option Nat
  action : Action
  deriving DecidableEq, Repr

/-- The status bit that ends a transfer, looked at while sending. -/
def Irq.lastBit (irq : Irq) : Bool := irq.iicstat &&& S3C2410_IICSTAT_LASTBIT != 0

/-- The phases in which the driver waits for an acknowledge. -/
def XferState.awaitsAck : XferState → Bool
  | .start | .write => true
  | .idle | .read | .stop => false

theorem XferState.awaitsAck_iff {state : XferState} :
    state.awaitsAck = true ↔ state = .start ∨ state = .write := by
  cases state <;> simp [awaitsAck]

namespace Slot

/-- The interrupt reports that an address or data byte was not acknowledged. -/
def nacked (slot : Slot) (irq : Irq) : Bool := slot.phase.awaitsAck && irq.lastBit

/-- What the handler puts on the bus in the slot. -/
def event (mem : Nat → UInt8) (slot : Slot) : BusEvent :=
  match slot.action with
  | .byte index => byteEvent mem slot.msg index
  | .start next => startEvent next
  | .stop => stopEvent slot.msg

/-- The byte that the interrupt stores. -/
def received (slot : Slot) (irq : Irq) : List (Nat × UInt8) :=
  slot.dest.toList.map fun dest => (dest, irq.iicds.toUInt8)

end Slot

/-- How the slots of a message end, given the messages after it. -/
def closing : List I2cMsg → Action
  | [] => .stop
  | next :: _ => .start next

/-- Interrupt `index` of a message, counted from the one after its address. -/
def I2cMsg.slot (msg : I2cMsg) (close : Action) (index : Nat) : Slot where
  msg := msg
  phase := if index = 0 then .start else if msg.isRead then .read else .write
  dest := if msg.isRead ∧ 0 < index then some (msg.buf + (index - 1)) else none
  action := if index < msg.len.toNat then .byte index else close

@[simp] theorem I2cMsg.slot_msg (msg : I2cMsg) (close : Action) (index : Nat) :
    (msg.slot close index).msg = msg := rfl

/-- The interrupts of a message. -/
def I2cMsg.slots (msg : I2cMsg) (close : Action) : List Slot :=
  (List.range (msg.len.toNat + 1)).map (msg.slot close)

/-- The interrupts of an array. -/
def script : List I2cMsg → List Slot
  | [] => []
  | msg :: rest => msg.slots (closing rest) ++ script rest

@[simp] theorem I2cMsg.slots_length (msg : I2cMsg) (close : Action) :
    (msg.slots close).length = msg.len.toNat + 1 := by
  simp [I2cMsg.slots]

theorem I2cMsg.slots_drop (msg : I2cMsg) (close : Action) {index : Nat}
    (inBounds : index ≤ msg.len.toNat) :
    (msg.slots close).drop index =
      msg.slot close index :: (msg.slots close).drop (index + 1) := by
  have bound : index < (msg.slots close).length := by simp; omega
  rw [List.drop_eq_getElem_cons bound]
  simp [I2cMsg.slots]

@[simp] theorem script_length (msgs : List I2cMsg) :
    (script msgs).length = interruptCount msgs := by
  induction msgs with
  | nil => rfl
  | cons msg rest ih => simp [script, ih, interruptCount_cons]

/-- A transfer in progress, or done: the slots still to come and what the ones
before them did. -/
structure Transfer where
  slots : List Slot
  mem : Nat → UInt8
  trace : List BusEvent
  result : Option Int

/-- The bytes that the interrupts store, with their addresses, in order. -/
def stored : List Slot → List Irq → List (Nat × UInt8)
  | slot :: slots, irq :: irqs => slot.received irq ++ stored slots irqs
  | _, _ => []

/-- What the interrupts do on the bus, where each byte sent is what its buffer holds
at that time. -/
def sent (mem : Nat → UInt8) : List Slot → List Irq → List BusEvent
  | slot :: slots, irq :: irqs =>
      slot.event (overlay mem (slot.received irq)) ::
        sent (overlay mem (slot.received irq)) slots irqs
  | _, _ => []

/-- Every interrupt of the script is acknowledged where the driver waits for it. -/
def Acked (slots : List Slot) (irqs : List Irq) : Prop :=
  ∀ pair ∈ slots.zip irqs, pair.1.nacked pair.2 = false

instance (slots : List Slot) (irqs : List Irq) : Decidable (Acked slots irqs) :=
  inferInstanceAs (Decidable (∀ pair ∈ slots.zip irqs, _))

theorem acked_iff {slots : List Slot} {irqs : List Irq} :
    Acked slots irqs ↔ ∀ (k : Nat) slot irq, slots[k]? = some slot → irqs[k]? = some irq →
      slot.nacked irq = false := by
  constructor
  · intro acked k slot irq slotAt irqAt
    exact acked (slot, irq)
      (List.mem_of_getElem? (List.getElem?_zip_eq_some.mpr ⟨slotAt, irqAt⟩))
  · intro every pair member
    obtain ⟨k, pairAt⟩ := List.mem_iff_getElem?.mp member
    obtain ⟨slotAt, irqAt⟩ := List.getElem?_zip_eq_some.mp pairAt
    exact every k pair.1 pair.2 slotAt irqAt

namespace Transfer

/-- The transfer of an array, its first START already on the bus. -/
def begin (mem : Nat → UInt8) (trace : List BusEvent) (msg : I2cMsg)
    (rest : List I2cMsg) : Transfer where
  slots := script (msg :: rest)
  mem := mem
  trace := trace ++ [startEvent msg]
  result := none

/-- What one interrupt does to a transfer. -/
def step (transfer : Transfer) (irq : Irq) : Transfer :=
  match transfer.slots with
  | [] => transfer
  | slot :: slots =>
      if slot.nacked irq then
        { transfer with
          slots := []
          trace := transfer.trace ++ [stopEvent slot.msg]
          result := some (-ENODEV) }
      else
        let mem := overlay transfer.mem (slot.received irq)
        { slots := slots
          mem := mem
          trace := transfer.trace ++ [slot.event mem]
          result := if slots = [] then some 0 else none }

theorem step_nacked {transfer : Transfer} {irq : Irq} {slot : Slot} {slots : List Slot}
    (remaining : transfer.slots = slot :: slots) (nacked : slot.nacked irq = true) :
    transfer.step irq =
      { transfer with
        slots := []
        trace := transfer.trace ++ [stopEvent slot.msg]
        result := some (-ENODEV) } := by
  simp [step, remaining, nacked]

theorem step_acked {transfer : Transfer} {irq : Irq} {slot : Slot} {slots : List Slot}
    (remaining : transfer.slots = slot :: slots) (acked : slot.nacked irq = false) :
    transfer.step irq =
      { slots := slots
        mem := overlay transfer.mem (slot.received irq)
        trace := transfer.trace ++ [slot.event (overlay transfer.mem (slot.received irq))]
        result := if slots = [] then some 0 else none } := by
  simp [step, remaining, acked]

/-- The interrupts one after another. -/
def run (transfer : Transfer) (irqs : List Irq) : Transfer :=
  irqs.foldl step transfer

@[simp] theorem run_nil (transfer : Transfer) : transfer.run [] = transfer := rfl

@[simp] theorem run_cons (transfer : Transfer) (irq : Irq) (irqs : List Irq) :
    transfer.run (irq :: irqs) = (transfer.step irq).run irqs := rfl

theorem run_append (transfer : Transfer) (first second : List Irq) :
    transfer.run (first ++ second) = (transfer.run first).run second :=
  List.foldl_append

/-- A finished transfer takes no part in later interrupts. -/
theorem run_of_slots_eq_nil {transfer : Transfer} (done : transfer.slots = [])
    (irqs : List Irq) : transfer.run irqs = transfer := by
  induction irqs with
  | nil => rfl
  | cons irq irqs ih =>
      have step_eq : transfer.step irq = transfer := by simp [step, done]
      rw [run_cons, step_eq, ih]

/-- A run in which everything is acknowledged. -/
theorem run_acked {transfer : Transfer} {irqs : List Irq}
    (acked : Acked transfer.slots irqs) :
    transfer.run irqs =
      { slots := transfer.slots.drop irqs.length
        mem := overlay transfer.mem (stored transfer.slots irqs)
        trace := transfer.trace ++ sent transfer.mem transfer.slots irqs
        result :=
          if transfer.slots ≠ [] ∧ irqs ≠ [] then
            if transfer.slots.length ≤ irqs.length then some 0 else none
          else transfer.result } := by
  induction irqs generalizing transfer with
  | nil => simp [stored, sent]
  | cons irq irqs ih =>
      obtain ⟨slots, mem, trace, result⟩ := transfer
      cases slots with
      | nil =>
          rw [run_of_slots_eq_nil rfl]
          simp [stored, sent]
      | cons slot slots =>
          have ackedHead : slot.nacked irq = false :=
            acked (slot, irq) (by simp)
          have ackedTail : Acked slots irqs := by
            intro pair member
            exact acked pair (by simp [member])
          rw [run_cons, step_acked rfl ackedHead, ih ackedTail]
          cases slots with
          | nil => simp [stored, sent]
          | cons next slots =>
              cases irqs <;> simp [stored, sent, overlay_append]

/-- A run that meets a missing acknowledge: what came before it, then one STOP in the
direction of the message in progress. -/
theorem run_nacked {transfer : Transfer} {before : List Irq} {irq : Irq} {slot : Slot}
    (after : List Irq) (acked : Acked transfer.slots before)
    (current : transfer.slots[before.length]? = some slot)
    (nacked : slot.nacked irq = true) :
    transfer.run (before ++ irq :: after) =
      { slots := []
        mem := overlay transfer.mem (stored transfer.slots before)
        trace := transfer.trace ++ sent transfer.mem transfer.slots before ++
          [stopEvent slot.msg]
        result := some (-ENODEV) } := by
  have remaining : transfer.slots.drop before.length =
      slot :: transfer.slots.drop (before.length + 1) := by
    obtain ⟨bound, current⟩ := List.getElem?_eq_some_iff.mp current
    rw [List.drop_eq_getElem_cons bound, current]
  rw [run_append, run_acked acked, run_cons, step_nacked remaining nacked]
  exact run_of_slots_eq_nil rfl after

/-- Of an interrupt only the sampled byte matters, and the last bit where the slot waits
for an acknowledge. -/
theorem step_congr {transfer : Transfer} {irq irq' : Irq}
    (same : ∀ slot slots, transfer.slots = slot :: slots →
      irq'.iicds = irq.iicds ∧ slot.nacked irq' = slot.nacked irq) :
    transfer.step irq' = transfer.step irq := by
  unfold step
  split
  next => rfl
  next slot slots remaining =>
      obtain ⟨iicds, nacked⟩ := same slot slots remaining
      simp only [nacked, Slot.received, iicds]

end Transfer

/-- Either everything is acknowledged, or there is a first byte that is not. -/
theorem acked_or_first_nack (slots : List Slot) (irqs : List Irq) :
    Acked slots irqs ∨
      ∃ before irq after slot, irqs = before ++ irq :: after ∧ Acked slots before ∧
        slots[before.length]? = some slot ∧ slot.nacked irq = true := by
  induction slots generalizing irqs with
  | nil => exact .inl (by simp [Acked])
  | cons slot slots ih =>
      cases irqs with
      | nil => exact .inl (by simp [Acked])
      | cons irq irqs =>
          cases nacked : slot.nacked irq with
          | true => exact .inr ⟨[], irq, irqs, slot, rfl, by simp [Acked], rfl, nacked⟩
          | false =>
              rcases ih irqs with acked | ⟨before, bad, after, at_, split, acked, rest⟩
              · left
                simpa [Acked, nacked] using acked
              · right
                refine ⟨irq :: before, bad, after, at_, by rw [split]; rfl, ?_, rest⟩
                simpa [Acked, nacked] using acked

end Mini2440.I2c
