import Mathlib.Data.List.TakeWhile
import Mini2440.Eeprom.Bus

/-!
# A transfer on the bus of the chips

The script of a transfer says what every interrupt does if it is acknowledged; the chips say
what is acknowledged.  Together they run through the messages byte by byte: before each event
the chip that is addressed and the buffer of the message are where the bytes so far have
taken them.
-/

namespace Mini2440.Eeprom

open I2c Overlay OpenDrain Transition

/-! ## What the wire shows -/

theorem Bus.drive_of_others {populated : List UInt8} {bus : Bus} {event : BusEvent}
    {address : UInt8} (here : address ∈ populated)
    (others : ∀ other, other ≠ address → (bus other).drive other event = .released) :
    bus.drive populated event = (bus address).drive address event := by
  apply wired_of_same
  · exact List.mem_map_of_mem here
  · intro shown member
    obtain ⟨other, -, rfl⟩ := List.mem_map.mp member
    by_cases same : other = address
    · exact .inl (by rw [same])
    · exact .inr (others other same)

theorem masterReceives_start (msg : I2cMsg) :
    masterReceives (if msg.isRead then 0xb0 else 0xf0) = msg.isRead := by
  cases msg.isRead <;> decide

/-- An address is acknowledged where there is a chip. -/
theorem drive_startEvent (populated : List UInt8) (bus : Bus) (msg : I2cMsg) :
    (bus.drive populated (startEvent msg)).pulls = decide (target msg ∈ populated) := by
  by_cases here : target msg ∈ populated
  · have shown : bus.drive populated (startEvent msg) =
        (bus (target msg)).drive (target msg) (startEvent msg) :=
      Bus.drive_of_others here fun other different => if_neg fun same => different same.symm
    rw [shown, decide_eq_true here]
    exact congrArg Drive.pulls (if_pos rfl)
  · have shown : bus.drive populated (startEvent msg) = .released := by
      apply wired_of_released
      intro shown member
      obtain ⟨other, present, rfl⟩ := List.mem_map.mp member
      refine if_neg fun (same : target msg = other) => here ?_
      rw [same]
      exact present
    rw [shown, decide_eq_false here]
    rfl

/-! ## A message in progress -/

/-- The chip that the message goes to has been given or has sent `count` of its bytes, and
the other chips keep out of the way; `chips` and `mem` are from before the message. -/
structure Within (chips : UInt8 → Chip) (mem : Mem) (msg : I2cMsg) (count : Nat) (bus : Bus)
    (memNow : Mem) : Prop where
  others : ∀ address, address ≠ target msg → bus address = ⟨chips address, .idle⟩
  writing : msg.isRead = false → memNow = mem ∧
    bus (target msg) = ⟨(chips (target msg)).accept (sentBytes msg mem count),
      if count = 0 then .pointer else .storing⟩
  reading : msg.isRead = true →
    ((bus (target msg)).chip, memNow) = (chips (target msg)).answer msg.buf count mem ∧
      (count < msg.len.toNat → (bus (target msg)).mode = .sending)

/-- The address of the message has been seen. -/
theorem within_start (bus : Bus) (msg : I2cMsg) (mem : Mem) :
    Within bus.chips mem msg 0 (bus.react (startEvent msg)) mem := by
  have addressed : bus.react (startEvent msg) (target msg) =
      ⟨bus.chips (target msg), if msg.isRead then .sending else .pointer⟩ := by
    refine (if_pos rfl).trans ?_
    rw [masterReceives_start]
    rfl
  constructor
  case others =>
      intro address different
      exact if_neg fun same => different same.symm
  case writing =>
      intro direction
      rw [addressed, direction]
      exact ⟨rfl, rfl⟩
  case reading =>
      intro direction
      rw [addressed, direction]
      exact ⟨rfl, fun _ => rfl⟩

section

variable {populated : List UInt8} {chips : UInt8 → Chip} {mem memNow : Mem} {msg : I2cMsg}
variable {count : Nat} {bus : Bus}

/-- While a message is in progress only its chip is heard. -/
theorem Within.drive (within : Within chips mem msg count bus memNow)
    (here : target msg ∈ populated) :
    bus.drive populated (byteEvent memNow msg count) =
      (bus (target msg)).drive (target msg) (byteEvent memNow msg count) := by
  apply Bus.drive_of_others here
  intro other different
  rw [within.others other different, byteEvent]
  split <;> rfl

/-- The other chips do not react to a byte. -/
theorem Within.react_others (within : Within chips mem msg count bus memNow) (address : UInt8)
    (different : address ≠ target msg) :
    bus.react (byteEvent memNow msg count) address = ⟨chips address, .idle⟩ := by
  rw [Bus.react, within.others address different, byteEvent]
  split <;> rfl

/-- A byte that is written is acknowledged and taken by the chip. -/
theorem Within.write_byte (within : Within chips mem msg count bus memNow)
    (here : target msg ∈ populated) (direction : msg.isRead = false) :
    (bus.drive populated (byteEvent memNow msg count)).pulls = true ∧
      Within chips mem msg (count + 1) (bus.react (byteEvent memNow msg count)) memNow := by
  obtain ⟨rfl, chip⟩ := within.writing direction
  have event : byteEvent memNow msg count = .data (memNow (msg.buf + count)).toUInt32 := by
    rw [byteEvent, direction]
    rfl
  have byte : (memNow (msg.buf + count)).toUInt32.toUInt8 = memNow (msg.buf + count) :=
    UInt8.toUInt8_toUInt32 _
  constructor
  · rw [within.drive here, chip, event]
    by_cases first : count = 0
    · rw [if_pos first]
      rfl
    · rw [if_neg first]
      rfl
  · refine ⟨within.react_others, ?_, ?_⟩
    · intro _
      refine ⟨rfl, ?_⟩
      rw [Bus.react, chip, event, sentBytes_succ, if_neg (Nat.succ_ne_zero count)]
      by_cases first : count = 0
      · subst first
        simp only [Slave.react, byte]
        rfl
      · have some : sentBytes msg memNow count ≠ [] := by
          intro none
          have length := congrArg List.length none
          rw [sentBytes, List.length_map, List.length_range] at length
          exact first length
        rw [if_neg first, Chip.accept_concat _ some]
        simp only [Slave.react, byte]
    · intro other
      rw [direction] at other
      contradiction

/-- A byte that is read comes from the chip, and the pointer moves on. -/
theorem Within.read_byte (within : Within chips mem msg count bus memNow)
    (here : target msg ∈ populated) (direction : msg.isRead = true)
    (more : count < msg.len.toNat) {byte : UInt8}
    (shown : byte = (bus.drive populated (byteEvent memNow msg count)).sda) :
    Within chips mem msg (count + 1) (bus.react (byteEvent memNow msg count))
      (Function.update memNow (msg.buf + count) byte) := by
  obtain ⟨answered, sending⟩ := within.reading direction
  obtain ⟨chip_eq, mem_eq⟩ := Prod.mk.inj answered
  have slave : bus (target msg) = ⟨(bus (target msg)).chip, .sending⟩ := by
    rw [← sending more]
  have event : byteEvent memNow msg count = .receive (ackControl msg.len.toNat count) := by
    rw [byteEvent, direction]
    rfl
  rw [within.drive here, slave, event] at shown
  refine ⟨within.react_others, ?_, ?_⟩
  · intro other
    rw [direction] at other
    contradiction
  · intro _
    rw [Bus.react, slave, event, Chip.answer_succ, ← chip_eq, ← mem_eq, shown]
    refine ⟨rfl, ?_⟩
    intro another
    have notLast : ¬ count + 1 = msg.len.toNat := Nat.ne_of_lt another
    rw [ackControl, if_neg notLast]
    rfl

/-- After all of its bytes the message is served. -/
theorem Within.served (within : Within chips mem msg msg.len.toNat bus memNow) :
    (bus.chips, memNow) = serveMsg chips msg mem := by
  have of_chip {chip : Chip} (here : (bus (target msg)).chip = chip) :
      bus.chips = Function.update chips (target msg) chip := by
    funext address
    by_cases same : address = target msg
    · rw [same, Function.update_self]
      exact here
    · rw [Function.update_of_ne same, Bus.chips, within.others address same]
  cases direction : msg.isRead with
  | false =>
      obtain ⟨rfl, chip⟩ := within.writing direction
      rw [of_chip (congrArg Slave.chip chip)]
      simp only [serveMsg, Chip.serve, direction]
      rfl
  | true =>
      obtain ⟨chip_eq, mem_eq⟩ := Prod.mk.inj (within.reading direction).1
      rw [of_chip chip_eq, mem_eq]
      simp only [serveMsg, Chip.serve, direction, if_true]

end

/-! ## The transfer and the chips together -/

/-- How far the messages are served when the event last seen is on the bus, and the number of
interrupts that are still to come. -/
inductive Progress (populated : List UInt8) (chips : UInt8 → Chip) (mem : Mem)
    (msgs : List I2cMsg) (transfer : Transfer) (bus : Bus) : Nat → Prop
  | address (done : List I2cMsg) (msg : I2cMsg) (rest : List I2cMsg)
      (split : msgs = done ++ msg :: rest)
      (acked : ∀ other ∈ done, target other ∈ populated)
      (slots : transfer.slots = script (msg :: rest))
      (last : transfer.trace.getLast? = some (startEvent msg))
      (served : (bus.chips, transfer.mem) = serveMsgs chips done mem) :
      Progress populated chips mem msgs transfer bus (irqsOn populated (msg :: rest))
  | byte (done : List I2cMsg) (msg : I2cMsg) (rest : List I2cMsg) (count : Nat)
      (split : msgs = done ++ msg :: rest)
      (acked : ∀ other ∈ done, target other ∈ populated)
      (here : target msg ∈ populated)
      (more : count < msg.len.toNat)
      (slots : transfer.slots = (msg.slots (closing rest)).drop (count + 1) ++ script rest)
      (last : transfer.trace.getLast? = some (byteEvent transfer.mem msg count))
      (within : Within (serveMsgs chips done mem).1 (serveMsgs chips done mem).2 msg count bus
        transfer.mem) :
      Progress populated chips mem msgs transfer bus
        (msg.len.toNat - count + irqsOn populated rest)
  | finished (iicstat : UInt32)
      (slots : transfer.slots = [])
      (last : transfer.trace.getLast? = some (.stop iicstat))
      (result : transfer.result =
        some (if acknowledged populated msgs = msgs then 0 else -ENODEV))
      (served : (bus.chips, transfer.mem) =
        serveMsgs chips (acknowledged populated msgs) mem) :
      Progress populated chips mem msgs transfer bus 0

section

variable {populated : List UInt8} {chips : UInt8 → Chip} {mem : Mem} {msgs : List I2cMsg}

theorem acknowledged_of_all (acked : ∀ msg ∈ msgs, target msg ∈ populated) :
    acknowledged populated msgs = msgs := by
  rw [acknowledged, List.takeWhile_eq_self_iff]
  intro msg member
  exact decide_eq_true (acked msg member)

theorem acknowledged_of_first {done rest : List I2cMsg} {msg : I2cMsg}
    (acked : ∀ other ∈ done, target other ∈ populated) (refused : target msg ∉ populated) :
    acknowledged populated (done ++ msg :: rest) = done := by
  rw [acknowledged, List.takeWhile_append_of_pos]
  · rw [List.takeWhile_cons_of_neg (by simpa using refused), List.append_nil]
  · intro other member
    exact decide_eq_true (acked other member)

/-- After slot `count` of a message, which was acknowledged: its next byte, the next message
or the end. -/
theorem Progress.after {done rest : List I2cMsg} {msg : I2cMsg} {count : Nat} {bus : Bus}
    {memNow : Mem} {trace : List BusEvent} (split : msgs = done ++ msg :: rest)
    (acked : ∀ other ∈ done, target other ∈ populated) (here : target msg ∈ populated)
    (bound : count ≤ msg.len.toNat)
    (within : Within (serveMsgs chips done mem).1 (serveMsgs chips done mem).2 msg count bus
      memNow) :
    Progress populated chips mem msgs
      { slots := (msg.slots (closing rest)).drop (count + 1) ++ script rest
        mem := memNow
        trace := trace ++ [(msg.slot (closing rest) count).event memNow]
        result :=
          if (msg.slots (closing rest)).drop (count + 1) ++ script rest = [] then some 0
          else none }
      bus (msg.len.toNat - count + irqsOn populated rest) := by
  have allAcked : ∀ other ∈ done ++ [msg], target other ∈ populated := by
    intro other member
    rcases List.mem_append.mp member with earlier | last
    · exact acked other earlier
    · rw [List.mem_singleton.mp last]
      exact here
  rcases Nat.lt_or_eq_of_le bound with more | rfl
  · refine .byte done msg rest count split acked here more rfl ?_ within
    rw [List.getLast?_concat, Slot.event, I2cMsg.slot]
    simp only [if_pos more]
  · have none : (msg.slots (closing rest)).drop (msg.len.toNat + 1) = [] :=
      List.drop_eq_nil_of_le (Nat.le_of_eq (msg.slots_length _))
    have served : (bus.chips, memNow) = serveMsgs chips (done ++ [msg]) mem := by
      rw [within.served, serveMsgs_concat]
    have action : (msg.slot (closing rest) msg.len.toNat).action = closing rest :=
      if_neg (Nat.lt_irrefl _)
    rw [none, List.nil_append, Nat.sub_self, Nat.zero_add]
    cases rest with
    | nil =>
        have all : acknowledged populated msgs = msgs := by
          rw [split]
          exact acknowledged_of_all allAcked
        refine .finished (if msg.isRead then 0x90 else 0xd0) rfl ?_ ?_ ?_
        · rw [List.getLast?_concat, Slot.event, action]
          rfl
        · rw [all, if_pos rfl]
          rfl
        · rw [all, split]
          exact served
    | cons next rest =>
        refine .address (done ++ [msg]) next rest ?_ allAcked rfl ?_ served
        · rw [split, List.append_assoc]
          rfl
        · rw [List.getLast?_concat, Slot.event, action]
          rfl

variable {transfer : Transfer} {bus : Bus} {left : Nat}

/-- The chip of the address is there. -/
theorem Progress.answered {done rest : List I2cMsg} {msg : I2cMsg}
    (split : msgs = done ++ msg :: rest) (acked : ∀ other ∈ done, target other ∈ populated)
    (slots : transfer.slots =
      msg.slot (closing rest) 0 :: ((msg.slots (closing rest)).drop 1 ++ script rest))
    (served : (bus.chips, transfer.mem) = serveMsgs chips done mem)
    (here : target msg ∈ populated) {irq : Irq} (answer : irq.lastBit = false) :
    Progress populated chips mem msgs (transfer.step irq) (bus.react (startEvent msg))
      (msg.len.toNat + irqsOn populated rest) := by
  have ack : (msg.slot (closing rest) 0).nacked irq = false := by
    rw [Slot.nacked, answer, Bool.and_false]
  have keeps : overlay transfer.mem ((msg.slot (closing rest) 0).received irq) =
      transfer.mem := by
    have nowhere : (msg.slot (closing rest) 0).dest = none :=
      if_neg fun reads => Nat.lt_irrefl 0 reads.2
    rw [Slot.received, nowhere]
    rfl
  have within := within_start bus msg transfer.mem
  rw [(Prod.mk.inj served).1, (Prod.mk.inj served).2] at within
  rw [Transfer.step_acked slots ack, keeps, (Prod.mk.inj served).2]
  exact .after split acked here (Nat.zero_le _) within

/-- No chip has the address: the transfer is over. -/
theorem Progress.refused {done rest : List I2cMsg} {msg : I2cMsg}
    (split : msgs = done ++ msg :: rest) (acked : ∀ other ∈ done, target other ∈ populated)
    (slots : transfer.slots =
      msg.slot (closing rest) 0 :: ((msg.slots (closing rest)).drop 1 ++ script rest))
    (served : (bus.chips, transfer.mem) = serveMsgs chips done mem)
    (nowhere : target msg ∉ populated) {irq : Irq} (answer : irq.lastBit = true) :
    Progress populated chips mem msgs (transfer.step irq) (bus.react (startEvent msg)) 0 := by
  have nack : (msg.slot (closing rest) 0).nacked irq = true := by
    rw [Slot.nacked, answer, Bool.and_true]
    rfl
  have first : acknowledged populated msgs = done := by
    rw [split]
    exact acknowledged_of_first acked nowhere
  have notAll : acknowledged populated msgs ≠ msgs := by
    rw [first, split]
    intro same
    have lengths := congrArg List.length same
    rw [List.length_append, List.length_cons] at lengths
    omega
  rw [Transfer.step_nacked slots nack]
  refine .finished (if msg.isRead then 0x90 else 0xd0) rfl ?_ ?_ ?_
  · exact List.getLast?_concat
  · rw [if_neg notAll]
  · rw [first, ← served]
    refine congrArg (·, transfer.mem) ?_
    funext address
    rw [Bus.chips, Bus.react, startEvent, Slave.react]
    split <;> rfl

/-- A byte of a message, of the driver or of the chip. -/
theorem Progress.transferred {done rest : List I2cMsg} {msg : I2cMsg} {count : Nat}
    (split : msgs = done ++ msg :: rest) (acked : ∀ other ∈ done, target other ∈ populated)
    (here : target msg ∈ populated) (more : count < msg.len.toNat)
    (slots : transfer.slots = msg.slot (closing rest) (count + 1) ::
      ((msg.slots (closing rest)).drop (count + 1 + 1) ++ script rest))
    (within : Within (serveMsgs chips done mem).1 (serveMsgs chips done mem).2 msg count bus
      transfer.mem) {irq : Irq}
    (reported : reports (bus.drive populated (byteEvent transfer.mem msg count)) irq
      (byteEvent transfer.mem msg count) = true) :
    Progress populated chips mem msgs (transfer.step irq)
      (bus.react (byteEvent transfer.mem msg count))
      (msg.len.toNat - (count + 1) + irqsOn populated rest) := by
  cases direction : msg.isRead with
  | false =>
      obtain ⟨pulled, next⟩ := within.write_byte here direction
      have ack : (msg.slot (closing rest) (count + 1)).nacked irq = false := by
        have answer : irq.lastBit = false := by
          rw [byteEvent, direction] at reported pulled
          have beq := eq_of_beq reported
          rw [beq, pulled]
          rfl
        rw [Slot.nacked, answer, Bool.and_false]
      have keeps : overlay transfer.mem
          ((msg.slot (closing rest) (count + 1)).received irq) = transfer.mem := by
        have nowhere : (msg.slot (closing rest) (count + 1)).dest = none :=
          if_neg fun reads => Bool.false_ne_true (direction.symm.trans reads.1)
        rw [Slot.received, nowhere]
        rfl
      rw [Transfer.step_acked slots ack, keeps]
      exact .after split acked here more next
  | true =>
      have ack : (msg.slot (closing rest) (count + 1)).nacked irq = false := by
        have phase : (msg.slot (closing rest) (count + 1)).phase = .read := by
          rw [I2cMsg.slot, direction]
          rfl
        rw [Slot.nacked, phase]
        rfl
      have shown : irq.iicds.toUInt8 =
          (bus.drive populated (byteEvent transfer.mem msg count)).sda := by
        rw [byteEvent, direction] at reported ⊢
        exact eq_of_beq reported
      have stores : overlay transfer.mem
          ((msg.slot (closing rest) (count + 1)).received irq) =
            Function.update transfer.mem (msg.buf + count) irq.iicds.toUInt8 := by
        have dest : (msg.slot (closing rest) (count + 1)).dest = some (msg.buf + count) :=
          if_pos ⟨direction, Nat.succ_pos count⟩
        rw [Slot.received, dest]
        rfl
      rw [Transfer.step_acked slots ack, stores]
      exact .after split acked here more (within.read_byte here direction more shown)

/-- An interrupt takes one event's answer to the next event. -/
theorem Progress.step (progress : Progress populated chips mem msgs transfer bus left)
    {event : BusEvent} (last : transfer.trace.getLast? = some event) {irq : Irq}
    (reported : reports (bus.drive populated event) irq event = true) :
    0 < left ∧
      Progress populated chips mem msgs (transfer.step irq) (bus.react event) (left - 1) := by
  cases progress with
  | address done msg rest split acked slots started served =>
      obtain rfl := Option.some.inj (started.symm.trans last)
      have answer : irq.lastBit = !decide (target msg ∈ populated) := by
        rw [← drive_startEvent populated bus msg]
        exact eq_of_beq reported
      have remaining : transfer.slots =
          msg.slot (closing rest) 0 ::
            ((msg.slots (closing rest)).drop 1 ++ script rest) := by
        rw [slots, script, ← List.drop_zero (l := msg.slots (closing rest)),
          msg.slots_drop _ (Nat.zero_le _)]
        rfl
      by_cases here : target msg ∈ populated
      · have left_eq : msg.len.toNat + 1 + irqsOn populated rest - 1 =
            msg.len.toNat + irqsOn populated rest := by omega
        rw [irqsOn, if_pos here, left_eq]
        rw [decide_eq_true here] at answer
        exact ⟨by omega, .answered split acked remaining served here answer⟩
      · rw [irqsOn, if_neg here]
        rw [decide_eq_false here] at answer
        exact ⟨Nat.one_pos, .refused split acked remaining served here answer⟩
  | byte done msg rest count split acked here more slots sent within =>
      obtain rfl := Option.some.inj (sent.symm.trans last)
      have remaining : transfer.slots =
          msg.slot (closing rest) (count + 1) ::
            ((msg.slots (closing rest)).drop (count + 1 + 1) ++ script rest) := by
        rw [slots, msg.slots_drop _ more]
        rfl
      have left_eq : msg.len.toNat - count + irqsOn populated rest - 1 =
          msg.len.toNat - (count + 1) + irqsOn populated rest := by omega
      rw [left_eq]
      exact ⟨by omega, .transferred split acked here more remaining within reported⟩
  | finished iicstat slots stopped result served =>
      obtain rfl := Option.some.inj (stopped.symm.trans last)
      contradiction

end

/-! ## The driver and the chips together -/

/-- The driver has done what the transfer has, and the chips have served what it asked. -/
def Serving (populated : List UInt8) (chips : UInt8 → Chip) (mem : Mem) (msgs : List I2cMsg)
    (base : List BufAccess) (wired : Wired) (left : Nat) : Prop :=
  ∃ transfer, Refines msgs base wired.ctl transfer ∧
    Progress populated chips mem msgs transfer wired.bus left

section

variable {populated : List UInt8} {chips : UInt8 → Chip} {mem : Mem} {msgs : List I2cMsg}
variable {base : List BufAccess} {wired : Wired} {left : Nat}

theorem Serving.step (serving : Serving populated chips mem msgs base wired left) {irq : Irq}
    {next : Wired} (taken : Wired.step populated wired irq = some next) :
    0 < left ∧ Serving populated chips mem msgs base next (left - 1) := by
  obtain ⟨transfer, refines, progress⟩ := serving
  rw [Wired.step] at taken
  cases last : wired.ctl.trace.getLast? with
  | none =>
      rw [last] at taken
      contradiction
  | some event =>
      rw [last] at taken
      simp only [Option.ite_none_right_eq_some] at taken
      obtain ⟨reported, taken⟩ := taken
      obtain ⟨ctl, delivered, refinesNext⟩ := refines.deliver irq
      rw [show deliver wired.ctl irq = .ok ctl from delivered] at taken
      obtain rfl := Option.some.inj taken
      rw [refines.trace] at last
      obtain ⟨positive, progressNext⟩ := progress.step last reported
      exact ⟨positive, transfer.step irq, refinesNext, progressNext⟩

theorem Serving.run (serving : Serving populated chips mem msgs base wired left)
    {irqs : List Irq} {final : Wired}
    (reached : (Wired.step populated).run wired irqs = some final) :
    irqs.length ≤ left ∧ Serving populated chips mem msgs base final (left - irqs.length) := by
  induction irqs generalizing wired left with
  | nil =>
      obtain rfl := Option.some.inj reached
      exact ⟨Nat.zero_le _, serving⟩
  | cons irq irqs ih =>
      obtain ⟨next, taken, reached⟩ := Option.bind_eq_some_iff.mp reached
      obtain ⟨positive, servingNext⟩ := serving.step taken
      obtain ⟨bound, servingFinal⟩ := ih servingNext reached
      rw [List.length_cons]
      refine ⟨by omega, ?_⟩
      rw [Nat.add_comm, ← Nat.sub_sub]
      exact servingFinal

theorem lastBit_of_pulls (pulls : Bool) (iicds : UInt32) :
    Irq.lastBit ⟨if pulls then 0 else 1, iicds⟩ = !pulls := by
  cases pulls with
  | false => exact (by decide : ((1 : UInt32) &&& S3C2410_IICSTAT_LASTBIT != 0) = true)
  | true => exact (by decide : ((0 : UInt32) &&& S3C2410_IICSTAT_LASTBIT != 0) = false)

/-- There is an interrupt for every event but a STOP. -/
theorem exists_reports (shown : Drive) (event : BusEvent)
    (noStop : ∀ iicstat, event ≠ .stop iicstat) : ∃ irq, reports shown irq event = true := by
  refine ⟨⟨if shown.pulls then 0 else 1, shown.sda.toUInt32⟩, ?_⟩
  cases event with
  | start iicds iicstat => exact beq_iff_eq.mpr (lastBit_of_pulls _ _)
  | data iicds => exact beq_iff_eq.mpr (lastBit_of_pulls _ _)
  | receive iiccon => exact beq_iff_eq.mpr (UInt8.toUInt8_toUInt32 _)
  | stop iicstat => exact absurd rfl (noStop iicstat)

/-- The bus does not hang: while the driver is at work the chips let it go on. -/
theorem Serving.live (serving : Serving populated chips mem msgs base wired left)
    (more : 0 < left) : ∃ irq next, Wired.step populated wired irq = some next := by
  obtain ⟨transfer, refines, progress⟩ := serving
  have event : ∃ event, wired.ctl.trace.getLast? = some event ∧
      ∀ iicstat, event ≠ .stop iicstat := by
    rw [refines.trace]
    cases progress with
    | address done msg rest split acked slots started served =>
        exact ⟨_, started, fun iicstat => by rw [startEvent]; exact BusEvent.noConfusion⟩
    | byte done msg rest count split acked here more slots sent within =>
        refine ⟨_, sent, fun iicstat => ?_⟩
        rw [byteEvent]
        split <;> exact BusEvent.noConfusion
    | finished iicstat slots stopped result served => exact absurd more (Nat.lt_irrefl 0)
  obtain ⟨event, last, noStop⟩ := event
  obtain ⟨irq, reported⟩ := exists_reports (wired.bus.drive populated event) event noStop
  obtain ⟨ctl, delivered, -⟩ := refines.deliver irq
  refine ⟨irq, ⟨ctl, wired.bus.react event⟩, ?_⟩
  rw [Wired.step, last]
  simp only [if_pos reported]
  rw [show deliver wired.ctl irq = .ok ctl from delivered]

/-- The driver is stopped when no interrupt is to come. -/
theorem Serving.stopped_iff (serving : Serving populated chips mem msgs base wired left) :
    wired.ctl.data.state = .stop ↔ left = 0 := by
  obtain ⟨transfer, refines, progress⟩ := serving
  rw [refines.state_eq_stop_iff]
  have running (some : transfer.slots ≠ []) : transfer.result = none := by
    cases refines.status with
    | running done msg rest index split current atSlot err slots result => exact result
    | finished done msg rest split current state slots result => exact absurd slots some
  cases progress with
  | address done msg rest split acked slots started served =>
      have some : transfer.slots ≠ [] := by
        rw [slots, ne_eq, ← List.length_eq_zero_iff, script_length, interruptCount_cons]
        omega
      have positive : irqsOn populated (msg :: rest) ≠ 0 := by
        rw [irqsOn]
        split <;> omega
      exact iff_of_false (fun result => result (running some)) positive
  | byte done msg rest count split acked here more slots sent within =>
      have some : transfer.slots ≠ [] := by
        rw [slots, msg.slots_drop _ more]
        exact List.cons_ne_nil _ _
      exact iff_of_false (fun result => result (running some)) (by omega)
  | finished iicstat slots stopped result served =>
      exact iff_of_true (by simp [result]) rfl

/-- A stopped driver has the result that the addresses give, and the messages up to the
first one that is refused are served. -/
theorem Serving.done (serving : Serving populated chips mem msgs base wired 0) :
    wired.ctl.data.err = (if acknowledged populated msgs = msgs then 0 else -ENODEV) ∧
      (wired.settled.chips, wired.ctl.mem) =
        serveMsgs chips (acknowledged populated msgs) mem := by
  have stopped := serving.stopped_iff.mpr rfl
  obtain ⟨transfer, refines, progress⟩ := serving
  rw [refines.state_eq_stop_iff] at stopped
  generalize zero : 0 = left at progress
  cases progress with
  | address done msg rest split acked slots started served =>
      rw [irqsOn] at zero
      split at zero <;> omega
  | byte done msg rest count split acked here more slots sent within => omega
  | finished iicstat slots last result served =>
      have chips_eq : wired.settled.chips = wired.bus.chips := by
        rw [Wired.settled, refines.trace, last]
        rfl
      rw [refines.err_eq, result, chips_eq, refines.mem]
      exact ⟨rfl, served⟩

/-- The driver begins a transfer, whatever the chips are doing. -/
theorem serving_begin (populated : List UInt8) (ctl : Ctl) (bus : Bus) (msg : I2cMsg)
    (rest : List I2cMsg) :
    ∃ started, s3c2440I2cXfer (msg :: rest) ctl = .ok started ∧
      Serving populated bus.chips ctl.mem (msg :: rest) ctl.accesses ⟨started, bus⟩
        (irqsOn populated (msg :: rest)) := by
  obtain ⟨started, begun, refines⟩ := xfer_refines ctl msg rest
  refine ⟨started, begun, _, refines, ?_⟩
  refine .address [] msg rest rfl ?_ rfl List.getLast?_concat rfl
  intro other member
  exact absurd member List.not_mem_nil

end

/-- For every array of messages, every population of the bus and every order of answers that
the chips give: no access fails and the bus never hangs, the transfer ends after the one
number of interrupts that the addresses determine, and then its result, which the call returns
if time is left, is 0 when every address is populated and `-ENODEV` otherwise; the messages
before the first address that is not have been served in order, each at its own chip, and no
other byte has changed. -/
theorem wired_serves (populated : List UInt8) (ctl : Ctl) (bus : Bus) (msg : I2cMsg)
    (rest : List I2cMsg) :
    ∃ started, s3c2440I2cXfer (msg :: rest) ctl = .ok started ∧
      ∀ irqs final, (Wired.step populated).run ⟨started, bus⟩ irqs = some final →
        irqs.length ≤ irqsOn populated (msg :: rest) ∧
        (final.ctl.data.state = .stop ↔ irqs.length = irqsOn populated (msg :: rest)) ∧
        (final.ctl.data.state ≠ .stop →
          ∃ irq next, Wired.step populated final irq = some next) ∧
        (final.ctl.data.state = .stop →
          final.ctl.data.err =
            (if acknowledged populated (msg :: rest) = msg :: rest then 0 else -ENODEV) ∧
          (final.settled.chips, final.ctl.mem) =
            serveMsgs bus.chips (acknowledged populated (msg :: rest)) ctl.mem ∧
          ∀ left, 0 < left →
            s3c2440I2cXferReturn (waitEventTimeout (final.ctl.data.state == .stop) left)
                final.ctl =
              (if acknowledged populated (msg :: rest) = msg :: rest then 0 else -ENODEV,
                final.ctl)) := by
  obtain ⟨started, begun, serving⟩ := serving_begin populated ctl bus msg rest
  refine ⟨started, begun, ?_⟩
  intro irqs final reached
  obtain ⟨bound, servingFinal⟩ := serving.run reached
  have stopped := servingFinal.stopped_iff
  refine ⟨bound, ?_, ?_, ?_⟩
  · rw [stopped]
    omega
  · intro running
    rw [ne_eq, stopped] at running
    exact servingFinal.live (Nat.pos_of_ne_zero running)
  · intro state
    rw [stopped.mp state] at servingFinal
    obtain ⟨result, served⟩ := servingFinal.done
    refine ⟨result, served, fun left inTime => ?_⟩
    rw [state, beq_self_eq_true, waitEventTimeout, if_pos rfl, s3c2440I2cXferReturn,
      if_neg (Nat.ne_of_gt inTime), result]

end Mini2440.Eeprom
