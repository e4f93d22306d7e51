import Mini2440.I2c.Buffers

/-!
# The flags of a message

`s3c2440_i2c_func` announces that the adapter takes the flags that change the protocol.
The bus trace that these flags define is stated over the items of an array, its addresses
and its bytes, and compared with the trace of the driver, which reads `I2C_M_RD` only.
-/

namespace Mini2440.I2c

open Overlay

/-- The flags of a message that change the protocol. -/
def I2C_M_NOSTART : UInt16 := 0x4000
def I2C_M_REV_DIR_ADDR : UInt16 := 0x2000
def I2C_M_IGNORE_NAK : UInt16 := 0x1000
def I2C_M_NO_RD_ACK : UInt16 := 0x0800

/-- What an adapter may announce. -/
def I2C_FUNC_I2C : UInt32 := 0x00000001
def I2C_FUNC_PROTOCOL_MANGLING : UInt32 := 0x00000004

/-- `s3c2440_i2c_func`; the value of `I2C_FUNC_SMBUS_EMUL` is the kernel's. -/
def s3c2440I2cFunc (I2C_FUNC_SMBUS_EMUL : UInt32) : UInt32 :=
  I2C_FUNC_I2C ||| I2C_FUNC_SMBUS_EMUL ||| I2C_FUNC_PROTOCOL_MANGLING

namespace I2cMsg

/-- No START goes out before the message. -/
def noStart (msg : I2cMsg) : Bool := msg.flags &&& I2C_M_NOSTART != 0

/-- The address goes out with the other direction. -/
def revDirAddr (msg : I2cMsg) : Bool := msg.flags &&& I2C_M_REV_DIR_ADDR != 0

/-- A missing acknowledge counts as one. -/
def ignoreNak (msg : I2cMsg) : Bool := msg.flags &&& I2C_M_IGNORE_NAK != 0

/-- No byte received is acknowledged. -/
def noRdAck (msg : I2cMsg) : Bool := msg.flags &&& I2C_M_NO_RD_ACK != 0

end I2cMsg

/-! ## The bus -/

/-- What is seen on the bus. -/
inductive Wire where
  | start (address : UInt32) (read : Bool)
  | data (byte : UInt32)
  | receive (ack : Bool)
  | stop
  deriving DecidableEq, Repr

/-- Bit 6 of IICSTAT selects a transmission, bit 7 of IICCON enables the acknowledge. -/
def BusEvent.wire : BusEvent → Wire
  | .start iicds iicstat => .start iicds (iicstat &&& 0x40 == 0)
  | .data iicds => .data iicds
  | .receive iiccon => .receive (iiccon &&& 0x80 != 0)
  | .stop _ => .stop

/-- What an array asks for, one item for each interrupt: an address or a byte. -/
inductive Item where
  | address (msg : I2cMsg)
  | byte (msg : I2cMsg) (index : Nat)
  deriving DecidableEq, Repr

/-- The items of an array, in order. -/
def items (msgs : List I2cMsg) : List Item :=
  msgs.flatMap fun msg => .address msg :: (List.range msg.len.toNat).map (.byte msg)

namespace Item

/-- The message of an item. -/
def msg : Item → I2cMsg
  | .address msg | .byte msg _ => msg

/-- An address or a byte sent is to be acknowledged by the device. -/
def awaitsAck : Item → Bool
  | .address _ => true
  | .byte msg _ => !msg.isRead

/-- The interrupt reports that the item was not acknowledged. -/
def nacked (item : Item) (irq : Irq) : Bool := item.awaitsAck && irq.lastBit

/-- Where a byte that is received goes. -/
def dest : Item → Option Nat
  | .address _ => none
  | .byte msg index => if msg.isRead then some (msg.buf + index) else none

/-- The memory after the interrupt of the item. -/
def store (item : Item) (irq : Irq) (mem : Nat → UInt8) : Nat → UInt8 :=
  overlay mem (item.dest.toList.map fun dest => (dest, irq.iicds.toUInt8))

/-- The driver puts an item on the bus. -/
def event (mem : Nat → UInt8) : Item → BusEvent
  | .address msg => startEvent msg
  | .byte msg index => byteEvent mem msg index

/-- There is no START and no address byte before a message with `I2C_M_NOSTART`. -/
def goesOut : Item → Bool
  | .address msg => !msg.noStart
  | .byte .. => true

end Item

/-- How a master puts an item on the bus, and whether it takes a missing acknowledge for
one. -/
structure Master where
  wire : (Nat → UInt8) → Item → Wire
  ignoresNak : I2cMsg → Bool

/-- What a master does on the bus while `current` is on it and `left` is to come: each
interrupt brings the next item, the STOP, or the end at a missing acknowledge. -/
def Master.run (master : Master) :
    (Nat → UInt8) → Item → List Item → List Irq → List Wire
  | _, _, _, [] => []
  | mem, current, left, irq :: irqs =>
      if current.nacked irq && !master.ignoresNak current.msg then
        [.stop]
      else
        match left with
        | [] => [.stop]
        | next :: left =>
            master.wire (current.store irq mem) next ::
              master.run (current.store irq mem) next left irqs
termination_by structural _ _ _ irqs => irqs

namespace Master

variable (master : Master) (mem : Nat → UInt8) {current next : Item} {left : List Item}
  {irq : Irq} {irqs : List Irq}

@[simp] theorem run_nil (current : Item) (left : List Item) :
    master.run mem current left [] = [] := rfl

theorem run_abandoned (nacked : current.nacked irq = true)
    (heeded : master.ignoresNak current.msg = false) :
    master.run mem current left (irq :: irqs) = [.stop] := by
  cases left <;> simp [run, nacked, heeded]

/-- Acknowledged or not, the last item is followed by the STOP. -/
theorem run_last (current : Item) : master.run mem current [] (irq :: irqs) = [.stop] := by
  simp [run]

theorem run_next (acked : current.nacked irq = false ∨ master.ignoresNak current.msg = true) :
    master.run mem current (next :: left) (irq :: irqs) =
      master.wire (current.store irq mem) next ::
        master.run (current.store irq mem) next left irqs := by
  rcases acked with acked | ignored
  · simp [run, acked]
  · simp [run, ignored]

end Master

/-- The driver: it looks at `I2C_M_RD` and at no other flag. -/
def plain : Master where
  wire mem item := (item.event mem).wire
  ignoresNak _ := false

/-- The flags as the I2C interface defines them: the direction of the address is inverted
under `I2C_M_REV_DIR_ADDR`, no byte received is acknowledged under `I2C_M_NO_RD_ACK`, and
a missing acknowledge counts as one under `I2C_M_IGNORE_NAK`. -/
def flagged : Master where
  wire mem
    | .address msg => .start (msg.addr.toUInt32 <<< 1) (msg.isRead ^^ msg.revDirAddr)
    | .byte msg index =>
        if msg.isRead then .receive (!(msg.noRdAck || index + 1 == msg.len.toNat))
        else .data (mem (msg.buf + index)).toUInt32
  ignoresNak msg := msg.ignoreNak

/-- The bus trace that the flags define. -/
def flaggedTrace (mem : Nat → UInt8) (msgs : List I2cMsg) (irqs : List Irq) : List Wire :=
  match (items msgs).filter Item.goesOut with
  | [] => []
  | first :: left => flagged.wire mem first :: flagged.run mem first left irqs

/-- The trace of the driver is the one that the flags define. -/
def HonoursFlags (ctl : Ctl) (msgs : List I2cMsg) (irqs : List Irq) : Prop :=
  ∃ final new, xferRun ctl msgs irqs = .ok final ∧ final.trace = ctl.trace ++ new ∧
    new.map BusEvent.wire = flaggedTrace ctl.mem msgs irqs

/-! ## When the flags do not matter -/

/-- No flag changes how the item is put on the bus: it is the address of a message without
`I2C_M_NOSTART` and `I2C_M_REV_DIR_ADDR`, or a byte that is sent, that is the last of its
message or whose message lacks `I2C_M_NO_RD_ACK`. -/
def Item.Plain : Item → Prop
  | .address msg => msg.noStart = false ∧ msg.revDirAddr = false
  | .byte msg index =>
      msg.isRead = true → msg.noRdAck = true → index + 1 = msg.len.toNat

instance : (item : Item) → Decidable item.Plain
  | .address _ => inferInstanceAs (Decidable (_ ∧ _))
  | .byte .. => inferInstanceAs (Decidable (_ → _ → _))

/-- Each item that the interrupts bring is plain, and the first missing acknowledge comes
where it is not ignored or where nothing is left. -/
def Unaffected : Item → List Item → List Irq → Prop
  | _, _, [] => True
  | current, left, irq :: irqs =>
      if current.nacked irq then
        current.msg.ignoreNak = false ∨ left.filter Item.goesOut = []
      else
        match left with
        | [] => True
        | next :: left => next.Plain ∧ Unaffected next left irqs
termination_by structural _ _ irqs => irqs

instance decidableUnaffected :
    (current : Item) → (left : List Item) → (irqs : List Irq) →
      Decidable (Unaffected current left irqs)
  | _, _, [] => inferInstanceAs (Decidable True)
  | current, left, irq :: irqs =>
      if nacked : current.nacked irq = true then
        decidable_of_iff (current.msg.ignoreNak = false ∨ left.filter Item.goesOut = [])
          (by simp [Unaffected, nacked])
      else
        match left with
        | [] => .isTrue (by simp [Unaffected, nacked])
        | next :: left =>
            have := decidableUnaffected next left irqs
            decidable_of_iff (next.Plain ∧ Unaffected next left irqs)
              (by simp [Unaffected, nacked])

/-- No flag but `I2C_M_RD` comes into play during the interrupts. -/
def FlagsUnaffected (msgs : List I2cMsg) (irqs : List Irq) : Prop :=
  match items msgs with
  | [] => True
  | first :: left => first.Plain ∧ Unaffected first left irqs

theorem startEvent_wire (msg : I2cMsg) :
    (startEvent msg).wire = .start (msg.addr.toUInt32 <<< 1) msg.isRead := by
  cases read : msg.isRead <;> simp [startEvent, BusEvent.wire, read] <;> decide

theorem byteEvent_wire (mem : Nat → UInt8) (msg : I2cMsg) (index : Nat) :
    (byteEvent mem msg index).wire =
      if msg.isRead then .receive (!(index + 1 == msg.len.toNat))
      else .data (mem (msg.buf + index)).toUInt32 := by
  unfold byteEvent
  split
  next =>
      by_cases last : index + 1 = msg.len.toNat
      · simp only [ackControl, last, BusEvent.wire, if_true, beq_self_eq_true]
        decide
      · simp only [ackControl, last, BusEvent.wire, if_false, beq_eq_false_iff_ne.mpr last]
        decide
  next => rfl

theorem plain_iff_wire_eq (mem : Nat → UInt8) (item : Item) :
    item.Plain ↔ item.goesOut = true ∧ plain.wire mem item = flagged.wire mem item := by
  cases item with
  | address msg =>
      simp only [Item.Plain, Item.goesOut, plain, flagged, Item.event, startEvent_wire]
      cases msg.isRead <;> cases msg.revDirAddr <;> simp
  | byte msg index =>
      simp only [Item.Plain, Item.goesOut, plain, flagged, Item.event, byteEvent_wire]
      cases msg.isRead <;> cases msg.noRdAck <;> simp

theorem flagged_wire_ne_stop (mem : Nat → UInt8) (item : Item) :
    flagged.wire mem item ≠ .stop := by
  cases item with
  | address msg => simp [flagged]
  | byte msg index =>
      simp only [flagged]
      split <;> simp

/-! ## Two masters -/

/-- Where no flag comes into play the two masters do the same. -/
theorem run_eq_of_unaffected {mem : Nat → UInt8} {current : Item} {left : List Item}
    {irqs : List Irq} (unaffected : Unaffected current left irqs) :
    plain.run mem current left irqs =
      flagged.run mem current (left.filter Item.goesOut) irqs := by
  induction irqs generalizing mem current left with
  | nil => rfl
  | cons irq irqs ih =>
      unfold Unaffected at unaffected
      split at unaffected
      next nacked =>
          rw [plain.run_abandoned mem nacked rfl]
          rcases unaffected with heeded | nothing
          · exact (flagged.run_abandoned mem nacked heeded).symm
          · rw [nothing, flagged.run_last]
      next notNacked =>
          have acked : current.nacked irq = false := Bool.eq_false_iff.mpr notNacked
          cases left with
          | nil => rw [plain.run_last, List.filter_nil, flagged.run_last]
          | cons next left =>
              obtain ⟨isPlain, later⟩ := unaffected
              obtain ⟨kept, wire⟩ :=
                (plain_iff_wire_eq (current.store irq mem) next).mp isPlain
              rw [List.filter_cons_of_pos kept, plain.run_next mem (.inl acked),
                flagged.run_next mem (.inl acked), wire, ih later]

/-- With an acknowledge at every interrupt each item takes one, and so does the STOP. -/
theorem length_run_acked (master : Master) (mem : Nat → UInt8) {current : Item}
    (left : List Item) {irq : Irq} (acked : current.nacked irq = false) (count : Nat) :
    (master.run mem current left (irq :: List.replicate count ⟨0, 0⟩)).length =
      min (count + 1) (left.length + 1) := by
  induction count generalizing mem current left irq with
  | zero =>
      cases left with
      | nil => simp [master.run_last]
      | cons next left => simp [master.run_next mem (.inl acked)]
  | succ count ih =>
      cases left with
      | nil => simp [master.run_last]
      | cons next left =>
          have ackedNext : next.nacked ⟨0, 0⟩ = false := by simp [Item.nacked, Irq.lastBit]
          rw [master.run_next mem (.inl acked), List.replicate_succ, List.length_cons,
            ih _ left ackedNext, List.length_cons]
          omega

/-- Where a flag comes into play, the two masters can be told apart. -/
theorem exists_run_ne {mem : Nat → UInt8} {current : Item} {left : List Item}
    {irqs : List Irq} (affected : ¬ Unaffected current left irqs) :
    ∃ first rest more, irqs = first ++ rest ∧
      plain.run mem current left (first ++ more) ≠
        flagged.run mem current (left.filter Item.goesOut) (first ++ more) := by
  induction irqs generalizing mem current left with
  | nil => exact absurd trivial affected
  | cons irq irqs ih =>
      unfold Unaffected at affected
      split at affected
      next nacked =>
          -- The driver gives up, the flags let the next item go out.
          obtain ⟨ignored, something⟩ := not_or.mp affected
          obtain ⟨next, others, kept⟩ := List.exists_cons_of_ne_nil something
          refine ⟨[irq], irqs, [], rfl, ?_⟩
          have ignoresNak : flagged.ignoresNak current.msg = true :=
            (Bool.not_eq_false _).mp ignored
          rw [kept, List.append_nil, plain.run_abandoned mem nacked rfl,
            flagged.run_next mem (.inr ignoresNak)]
          intro same
          exact flagged_wire_ne_stop _ next (List.cons.inj same).1.symm
      next notNacked =>
          have acked : current.nacked irq = false := Bool.eq_false_iff.mpr notNacked
          cases left with
          | nil => exact absurd trivial affected
          | cons next left =>
              have wire_iff := plain_iff_wire_eq (current.store irq mem) next
              cases goesOut : next.goesOut with
              | false =>
                  -- It goes out or not, and each item left takes one interrupt.
                  refine ⟨[irq], irqs, List.replicate (left.length + 2) ⟨0, 0⟩, rfl, ?_⟩
                  intro same
                  have lengths := congrArg List.length same
                  have fewer := List.length_filter_le Item.goesOut left
                  rw [List.singleton_append, length_run_acked plain mem _ acked,
                    length_run_acked flagged mem _ acked,
                    List.filter_cons_of_neg (by simp [goesOut]), List.length_cons] at lengths
                  omega
              | true =>
                  rw [List.filter_cons_of_pos goesOut]
                  by_cases isPlain : next.Plain
                  · obtain ⟨first, rest, more, irqs_eq, differ⟩ :=
                      @ih (current.store irq mem) next left fun later =>
                        affected ⟨isPlain, later⟩
                    refine ⟨irq :: first, rest, more, by rw [irqs_eq]; rfl, ?_⟩
                    rw [List.cons_append, plain.run_next mem (.inl acked),
                      flagged.run_next mem (.inl acked)]
                    intro same
                    exact differ (List.cons.inj same).2
                  · -- It goes out in two ways.
                    refine ⟨[irq], irqs, [], rfl, ?_⟩
                    rw [List.append_nil, plain.run_next mem (.inl acked),
                      flagged.run_next mem (.inl acked)]
                    intro same
                    exact isPlain (wire_iff.mpr ⟨goesOut, (List.cons.inj same).1⟩)

/-! ## The driver is the plain master -/

/-- A slot of the script is the interrupt of an item. -/
structure Fits (slot : Slot) (item : Item) : Prop where
  awaitsAck : slot.phase.awaitsAck = item.awaitsAck
  dest : slot.dest = item.dest

/-- The slots are the interrupts of the item on the bus and of those to come, and each
brings the item after its own. -/
inductive Matches : List Slot → Item → List Item → Prop
  | last {slot : Slot} {current : Item} (fits : Fits slot current)
      (stop : slot.action = .stop) : Matches [slot] current []
  | next {slot : Slot} {slots : List Slot} {current item : Item} {left : List Item}
      (fits : Fits slot current) (event : ∀ mem, slot.event mem = item.event mem)
      (later : Matches slots item left) : Matches (slot :: slots) current (item :: left)

/-- The item before interrupt `index` of a message. -/
def I2cMsg.item (msg : I2cMsg) : Nat → Item
  | 0 => .address msg
  | index + 1 => .byte msg index

theorem I2cMsg.slot_fits (msg : I2cMsg) (close : Action) (index : Nat) :
    Fits (msg.slot close index) (msg.item index) := by
  cases index with
  | zero => exact ⟨rfl, by simp [slot, item, Item.dest]⟩
  | succ index =>
      cases read : msg.isRead <;> constructor <;>
        simp [slot, item, Item.awaitsAck, Item.dest, read, XferState.awaitsAck]

theorem items_cons (msg : I2cMsg) (rest : List I2cMsg) :
    items (msg :: rest) =
      .address msg :: ((List.range msg.len.toNat).map (.byte msg) ++ items rest) := rfl

/-- The slots of a message from any of its interrupts on, by induction on how many bytes
are left of it. -/
theorem matches_drop {msg : I2cMsg} {rest : List I2cMsg}
    (later : ∀ next others, rest = next :: others →
      Matches (script rest) (.address next)
        ((List.range next.len.toNat).map (.byte next) ++ items others))
    {index : Nat} (inBounds : index ≤ msg.len.toNat) :
    Matches ((msg.slots (closing rest)).drop index ++ script rest) (msg.item index)
      (((List.range msg.len.toNat).drop index).map (.byte msg) ++ items rest) := by
  induction bytes : msg.len.toNat - index generalizing index with
  | zero =>
      have atEnd : msg.len.toNat = index := by omega
      have ended : (msg.slots (closing rest)).drop (index + 1) = [] := by
        apply List.drop_eq_nil_of_le
        rw [I2cMsg.slots_length]
        omega
      have noBytes : (List.range msg.len.toNat).drop index = [] := by
        apply List.drop_eq_nil_of_le
        rw [List.length_range]
        omega
      rw [msg.slots_drop _ inBounds, ended, noBytes]
      cases rest with
      | nil => exact .last (msg.slot_fits _ index) (by simp [I2cMsg.slot, atEnd, closing])
      | cons next others =>
          refine .next (msg.slot_fits _ index) ?_ (later next others rfl)
          intro mem
          simp [Slot.event, I2cMsg.slot, atEnd, closing, Item.event]
  | succ bytes' ih =>
      have more : index < msg.len.toNat := by omega
      have range : (List.range msg.len.toNat).drop index =
          index :: (List.range msg.len.toNat).drop (index + 1) := by
        rw [List.drop_eq_getElem_cons (by simpa using more), List.getElem_range]
      rw [msg.slots_drop _ inBounds, range]
      refine .next (msg.slot_fits _ index) ?_ (ih more (by omega))
      intro mem
      simp [Slot.event, I2cMsg.slot, more, Item.event]

theorem matches_script (msg : I2cMsg) (rest : List I2cMsg) :
    Matches (script (msg :: rest)) (.address msg)
      ((List.range msg.len.toNat).map (.byte msg) ++ items rest) := by
  induction rest generalizing msg with
  | nil => exact matches_drop (fun _ _ other => by contradiction) (Nat.zero_le _)
  | cons next others ih =>
      refine matches_drop ?_ (Nat.zero_le _)
      intro next' others' split
      obtain ⟨rfl, rfl⟩ := List.cons.inj split
      exact ih next

/-- What the interrupts add to the trace of a transfer is what the plain master does. -/
theorem Matches.run_trace {transfer : Transfer} {current : Item} {left : List Item}
    (aligned : Matches transfer.slots current left) (irqs : List Irq) :
    ∃ new, (transfer.run irqs).trace = transfer.trace ++ new ∧
      new.map BusEvent.wire = plain.run transfer.mem current left irqs := by
  induction irqs generalizing transfer current left with
  | nil => exact ⟨[], (List.append_nil _).symm, by simp⟩
  | cons irq irqs ih =>
      rw [Transfer.run_cons]
      cases remaining : transfer.slots with
      | nil =>
          rw [remaining] at aligned
          cases aligned
      | cons slot slots =>
          rw [remaining] at aligned
          have fits : Fits slot current := by
            cases aligned with
            | last fits => exact fits
            | next fits => exact fits
          have nacked_eq : slot.nacked irq = current.nacked irq := by
            rw [Slot.nacked, fits.awaitsAck, Item.nacked]
          have mem_eq : overlay transfer.mem (slot.received irq) =
              current.store irq transfer.mem := by
            rw [Slot.received, fits.dest, Item.store]
          cases nacked : current.nacked irq with
          | true =>
              rw [Transfer.step_nacked remaining (nacked_eq.trans nacked),
                Transfer.run_of_slots_eq_nil rfl, plain.run_abandoned _ nacked rfl]
              exact ⟨[stopEvent slot.msg], rfl, rfl⟩
          | false =>
              have step_eq := Transfer.step_acked remaining (nacked_eq.trans nacked)
              rw [mem_eq] at step_eq
              rw [step_eq]
              cases aligned with
              | last fits stop =>
                  rw [Transfer.run_of_slots_eq_nil rfl, plain.run_last]
                  exact ⟨[stopEvent slot.msg], by simp [Slot.event, stop], rfl⟩
              | next fits event later =>
                  obtain ⟨new, trace, wires⟩ := @ih
                    { slots := slots
                      mem := current.store irq transfer.mem
                      trace := transfer.trace ++ [slot.event (current.store irq transfer.mem)]
                      result := if slots = [] then some 0 else none } _ _ later
                  rw [List.append_assoc] at trace
                  refine ⟨_, trace, ?_⟩
                  rw [plain.run_next _ (.inl nacked), ← wires, event]
                  rfl

theorem xferRun_wires (ctl : Ctl) (msg : I2cMsg) (rest : List I2cMsg) (irqs : List Irq) :
    ∃ final new, xferRun ctl (msg :: rest) irqs = .ok final ∧
      final.trace = ctl.trace ++ new ∧
      new.map BusEvent.wire = plain.wire ctl.mem (.address msg) ::
        plain.run ctl.mem (.address msg)
          ((List.range msg.len.toNat).map (.byte msg) ++ items rest) irqs := by
  obtain ⟨final, ran, refines⟩ := xferRun_refines ctl msg rest irqs
  have aligned : Matches (Transfer.begin ctl.mem ctl.trace msg rest).slots (.address msg) _ :=
    matches_script msg rest
  obtain ⟨new, trace, wires⟩ := aligned.run_trace irqs
  refine ⟨final, startEvent msg :: new, ran, ?_, ?_⟩
  · rw [refines.trace, trace]
    simp [Transfer.begin]
  · rw [List.map_cons, wires]
    rfl

/-! ## The announced capability -/

/-- The two traces of an array whose first message has its START. -/
theorem honoursFlags_iff (ctl : Ctl) {msg : I2cMsg} (started : msg.noStart = false)
    (rest : List I2cMsg) (irqs : List Irq) :
    HonoursFlags ctl (msg :: rest) irqs ↔
      plain.wire ctl.mem (.address msg) = flagged.wire ctl.mem (.address msg) ∧
      plain.run ctl.mem (.address msg)
          ((List.range msg.len.toNat).map (.byte msg) ++ items rest) irqs =
        flagged.run ctl.mem (.address msg)
          (((List.range msg.len.toNat).map (Item.byte msg) ++ items rest).filter Item.goesOut)
          irqs := by
  have kept : (Item.address msg).goesOut = true := by simp [Item.goesOut, started]
  obtain ⟨final, new, ran, trace, wires⟩ := xferRun_wires ctl msg rest irqs
  rw [HonoursFlags, flaggedTrace, items_cons, List.filter_cons_of_pos kept]
  constructor
  · rintro ⟨final', new', ran', trace', wires'⟩
    obtain rfl := Except.ok.inj (ran.symm.trans ran')
    obtain rfl := List.append_cancel_left (trace.symm.trans trace')
    exact List.cons.inj (wires.symm.trans wires')
  · rintro ⟨first, later⟩
    exact ⟨final, new, ran, trace, by rw [wires, first, later]⟩

/-- The adapter announces `I2C_FUNC_PROTOCOL_MANGLING` and looks at no flag but
`I2C_M_RD`.  For every array, its first message without `I2C_M_NOSTART`, the trace is the
one that the flags define in every run in which none of them comes into play; in any other
run one does, and the traces differ from there on. -/
theorem flags_honoured_of_unaffected (ctl : Ctl) (msg : I2cMsg) (rest : List I2cMsg)
    (started : msg.noStart = false) (irqs : List Irq) :
    (FlagsUnaffected (msg :: rest) irqs → HonoursFlags ctl (msg :: rest) irqs) ∧
    (¬ FlagsUnaffected (msg :: rest) irqs →
      ∃ first rest' more, irqs = first ++ rest' ∧
        ¬ HonoursFlags ctl (msg :: rest) (first ++ more)) := by
  have wire_iff := plain_iff_wire_eq ctl.mem (.address msg)
  constructor
  · rintro ⟨isPlain, unaffected⟩
    rw [honoursFlags_iff ctl started]
    exact ⟨(wire_iff.mp isPlain).2, run_eq_of_unaffected unaffected⟩
  · intro affected
    by_cases isPlain : (Item.address msg).Plain
    · obtain ⟨first, rest', more, irqs_eq, differ⟩ :=
        @exists_run_ne ctl.mem _ _ _ fun unaffected => affected ⟨isPlain, unaffected⟩
      refine ⟨first, rest', more, irqs_eq, ?_⟩
      rw [honoursFlags_iff ctl started]
      exact fun same => differ same.2
    · refine ⟨[], irqs, [], rfl, ?_⟩
      rw [honoursFlags_iff ctl started]
      exact fun same => isPlain (wire_iff.mpr ⟨by simp [Item.goesOut, started], same.1⟩)

/-- Two messages of one byte to one device, with one START. -/
def oneStart : List I2cMsg := [⟨0x50, 0, 1, 0⟩, ⟨0x50, I2C_M_NOSTART, 1, 8⟩]

/-- Two bytes are sent with `I2C_M_IGNORE_NAK`, and each is acknowledged. -/
theorem twoBytes_honoured :
    HonoursFlags (i2cBusS3c2440Init fun _ => 0x12) [⟨0x50, I2C_M_IGNORE_NAK, 2, 0⟩]
      [⟨0, 0⟩, ⟨0, 0⟩, ⟨0, 0⟩] :=
  (flags_honoured_of_unaffected (i2cBusS3c2440Init fun _ => 0x12)
    ⟨0x50, I2C_M_IGNORE_NAK, 2, 0⟩ [] (by decide) [⟨0, 0⟩, ⟨0, 0⟩, ⟨0, 0⟩]).1
      ⟨by decide, by decide⟩

theorem announces_protocol_mangling (I2C_FUNC_SMBUS_EMUL : UInt32) :
    s3c2440I2cFunc I2C_FUNC_SMBUS_EMUL &&& I2C_FUNC_PROTOCOL_MANGLING ≠ 0 := by
  intro unset
  have bit := congrArg (fun value : UInt32 => value.toNat.testBit 2) unset
  have set : I2C_FUNC_PROTOCOL_MANGLING.toNat.testBit 2 = true := by decide
  simp [s3c2440I2cFunc, set] at bit

/-- Each of the four flags is announced and none is honoured: the address goes out in the
direction of the data, a second START is sent, a missing acknowledge ends the transfer,
and a byte received is acknowledged. -/
theorem announced_not_honoured :
    (∀ emul, s3c2440I2cFunc emul &&& I2C_FUNC_PROTOCOL_MANGLING ≠ 0) ∧
      ¬ HonoursFlags (i2cBusS3c2440Init fun _ => 0) [⟨0x50, I2C_M_REV_DIR_ADDR, 1, 0⟩] [] ∧
      ¬ HonoursFlags (i2cBusS3c2440Init fun _ => 0) oneStart [⟨0, 0⟩, ⟨0, 0⟩] ∧
      ¬ HonoursFlags (i2cBusS3c2440Init fun _ => 0) [⟨0x50, I2C_M_IGNORE_NAK, 1, 0⟩]
        [⟨1, 0⟩] ∧
      ¬ HonoursFlags (i2cBusS3c2440Init fun _ => 0)
        [⟨0x50, I2C_M_RD ||| I2C_M_NO_RD_ACK, 2, 0⟩] [⟨0, 0⟩] := by
  refine ⟨announces_protocol_mangling, ?_, ?_, ?_, ?_⟩
  · rw [honoursFlags_iff _ (by decide)]
    decide
  · rw [oneStart, honoursFlags_iff _ (by decide)]
    decide
  · rw [honoursFlags_iff _ (by decide)]
    decide
  · rw [honoursFlags_iff _ (by decide)]
    decide

end Mini2440.I2c
