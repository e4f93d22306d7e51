import Mini2440.Lib.OpenDrain
import Mini2440.Eeprom.At24cxx

/-!
# The controller and the chips on its bus

`I2c.Driver` leaves it open what an interrupt finds in the registers.  Here it is what the
chips on the bus answer: each follows START, data and STOP on its own, acknowledges its
address and what is written to it, and sends its bytes when it is read.  The controller and
the chips together serve the messages of an array in order, each at the chip that it is
addressed to, up to the first address that no chip has.
-/

namespace Mini2440.Eeprom

open I2c OpenDrain Transition

/-! ## A chip on the bus -/

/-- Where a chip is in the protocol. -/
inductive Mode where
  | idle
  /-- Addressed for writing, and the next byte is the address pointer. -/
  | pointer
  | storing
  | sending
  deriving DecidableEq, Repr

/-- A chip on the bus. -/
structure Slave where
  chip : Chip
  mode : Mode

/-- The seven address bits of the byte in IICDS. -/
def addressOf (iicds : UInt32) : UInt8 := iicds.toUInt8 >>> 1

/-- IICSTAT bits 7:6 are 10: master receive mode. -/
def masterReceives (iicstat : UInt32) : Bool := iicstat &&& 0xc0 == 0x80

/-- A byte that comes in where the pointer is. -/
def Chip.storeByte (chip : Chip) (byte : UInt8) : Chip :=
  ⟨Function.update chip.contents chip.pointer byte, chip.pointer + 1⟩

namespace Slave

/-- What the chip at `address` does to the wire during an event of the bus. -/
def drive (address : UInt8) (slave : Slave) : BusEvent → Drive
  | .start iicds _ => if addressOf iicds = address then ⟨true, 0xff⟩ else .released
  | .data _ =>
      match slave.mode with
      | .pointer | .storing => ⟨true, 0xff⟩
      | .idle | .sending => .released
  | .receive _ =>
      match slave.mode with
      | .sending => ⟨false, slave.chip.contents slave.chip.pointer⟩
      | .idle | .pointer | .storing => .released
  | .stop _ => .released

/-- The chip after the event; it stops sending when its byte is not acknowledged. -/
def react (address : UInt8) (slave : Slave) : BusEvent → Slave
  | .start iicds iicstat =>
      if addressOf iicds = address then
        ⟨slave.chip, if masterReceives iicstat then .sending else .pointer⟩
      else
        ⟨slave.chip, .idle⟩
  | .data iicds =>
      match slave.mode with
      | .pointer => ⟨{ slave.chip with pointer := iicds.toUInt8 }, .storing⟩
      | .storing => ⟨slave.chip.storeByte iicds.toUInt8, .storing⟩
      | .idle | .sending => slave
  | .receive iiccon =>
      match slave.mode with
      | .sending =>
          ⟨{ slave.chip with pointer := slave.chip.pointer + 1 },
            if iiccon &&& 0x80 = 0 then .idle else .sending⟩
      | .idle | .pointer | .storing => slave
  | .stop _ => ⟨slave.chip, .idle⟩

end Slave

/-! ## The bus -/

/-- The chip at each address; only some of the addresses are populated. -/
abbrev Bus := UInt8 → Slave

namespace Bus

/-- What the wire shows during an event. -/
def drive (populated : List UInt8) (bus : Bus) (event : BusEvent) : Drive :=
  wired (populated.map fun address => (bus address).drive address event)

/-- What the chips do at an event. -/
def react (bus : Bus) (event : BusEvent) : Bus :=
  fun address => (bus address).react address event

/-- The chips, whatever they are doing. -/
def chips (bus : Bus) : UInt8 → Chip := fun address => (bus address).chip

end Bus

/-- The interrupt that follows an event: the last bit tells whether a byte that was sent was
acknowledged, and IICDS has the byte that was received.  None follows a STOP. -/
def reports (shown : Drive) (irq : Irq) : BusEvent → Bool
  | .start .. | .data _ => irq.lastBit == !shown.pulls
  | .receive _ => irq.iicds.toUInt8 == shown.sda
  | .stop _ => false

/-- The controller, and the bus as it was before the last event. -/
structure Wired where
  ctl : Ctl
  bus : Bus

/-- The interrupt that the last event leads to, and the handler. -/
def Wired.step (populated : List UInt8) : Step Wired Irq := fun wired irq =>
  match wired.ctl.trace.getLast? with
  | some event =>
      if reports (wired.bus.drive populated event) irq event then
        match deliver wired.ctl irq with
        | .ok ctl => some ⟨ctl, wired.bus.react event⟩
        | .error _ => none
      else
        none
  | none => none

/-- What a finished transfer leaves: the bus has seen the STOP, too. -/
def Wired.settled (wired : Wired) : Bus :=
  match wired.ctl.trace.getLast? with
  | some event => wired.bus.react event
  | none => wired.bus

/-! ## What the messages ask of the chips -/

/-- The address that the message goes to. -/
def target (msg : I2cMsg) : UInt8 := addressOf (msg.addr.toUInt32 <<< 1)

/-- One message, at the chip that it is addressed to. -/
def serveMsg (chips : UInt8 → Chip) (msg : I2cMsg) (mem : Mem) : (UInt8 → Chip) × Mem :=
  let (chip, mem) := (chips (target msg)).serve msg mem
  (Function.update chips (target msg) chip, mem)

/-- The messages in order. -/
def serveMsgs (chips : UInt8 → Chip) : List I2cMsg → Mem → (UInt8 → Chip) × Mem
  | [], mem => (chips, mem)
  | msg :: rest, mem =>
      let (chips, mem) := serveMsg chips msg mem
      serveMsgs chips rest mem

/-- The messages before the first one whose address no chip has. -/
def acknowledged (populated : List UInt8) (msgs : List I2cMsg) : List I2cMsg :=
  msgs.takeWhile fun msg => target msg ∈ populated

/-- The interrupts of a transfer: one for each address and one for each byte, up to the
address that is not acknowledged. -/
def irqsOn (populated : List UInt8) : List I2cMsg → Nat
  | [] => 0
  | msg :: rest =>
      if target msg ∈ populated then msg.len.toNat + 1 + irqsOn populated rest else 1

theorem serveMsgs_append (chips : UInt8 → Chip) (first second : List I2cMsg) (mem : Mem) :
    serveMsgs chips (first ++ second) mem =
      serveMsgs (serveMsgs chips first mem).1 second (serveMsgs chips first mem).2 := by
  induction first generalizing chips mem with
  | nil => rfl
  | cons msg rest ih => exact ih _ _

theorem serveMsgs_concat (chips : UInt8 → Chip) (msgs : List I2cMsg) (msg : I2cMsg)
    (mem : Mem) :
    serveMsgs chips (msgs ++ [msg]) mem =
      serveMsg (serveMsgs chips msgs mem).1 msg (serveMsgs chips msgs mem).2 := by
  rw [serveMsgs_append]
  rfl

/-! ## A chip that has been given some bytes of a message -/

namespace Chip

theorem store_concat (chip : Chip) (bytes : List UInt8) (byte : UInt8) :
    chip.store (bytes ++ [byte]) = (chip.store bytes).storeByte byte := by
  induction bytes generalizing chip with
  | nil => rfl
  | cons head bytes ih => exact ih _

theorem accept_concat (chip : Chip) {bytes : List UInt8} (some : bytes ≠ []) (byte : UInt8) :
    chip.accept (bytes ++ [byte]) = (chip.accept bytes).storeByte byte := by
  cases bytes with
  | nil => exact absurd rfl some
  | cons addr bytes => exact store_concat _ bytes byte

/-- The last byte of an answer comes from where the others have left the pointer. -/
theorem answer_succ (chip : Chip) (buf len : Nat) (mem : Mem) :
    chip.answer buf (len + 1) mem =
      ({ (chip.answer buf len mem).1 with
          pointer := (chip.answer buf len mem).1.pointer + 1 },
        Function.update (chip.answer buf len mem).2 (buf + len)
          ((chip.answer buf len mem).1.contents (chip.answer buf len mem).1.pointer)) := by
  induction len generalizing chip buf mem with
  | zero => rfl
  | succ len ih =>
      rw [answer, ih, answer]
      have next : buf + 1 + len = buf + (len + 1) := by omega
      rw [next]

end Chip

/-- The first bytes of a write message. -/
def sentBytes (msg : I2cMsg) (mem : Mem) (count : Nat) : List UInt8 :=
  (List.range count).map fun index => mem (msg.buf + index)

theorem sentBytes_succ (msg : I2cMsg) (mem : Mem) (count : Nat) :
    sentBytes msg mem (count + 1) = sentBytes msg mem count ++ [mem (msg.buf + count)] := by
  rw [sentBytes, List.range_succ, List.map_append]
  rfl

end Mini2440.Eeprom
