import Mathlib.Data.List.Nodup
import Mathlib.Data.List.Pairwise
import Mini2440.I2c.Refinement

/-!
# Message buffers

Closed forms for transfers whose buffers do not overlap.  Which interrupt of the
script belongs to which byte is a matter of counting; once no byte belongs to two
messages, the bytes sent are those that the buffers held before the transfer, and
every byte received can be read back.
-/

namespace Mini2440.I2c

open Overlay

/-- The addresses of the bytes of a message. -/
def I2cMsg.bytes (msg : I2cMsg) : List Nat :=
  (List.range msg.len.toNat).map (msg.buf + ·)

theorem I2cMsg.mem_bytes {msg : I2cMsg} {addr : Nat} :
    addr ∈ msg.bytes ↔ ∃ index < msg.len.toNat, msg.buf + index = addr := by
  simp [I2cMsg.bytes]

/-- No byte belongs to two messages of the array. -/
def NoOverlap (msgs : List I2cMsg) : Prop :=
  msgs.Pairwise fun first second => ∀ addr ∈ first.bytes, addr ∉ second.bytes

instance (msgs : List I2cMsg) : Decidable (NoOverlap msgs) :=
  inferInstanceAs (Decidable (msgs.Pairwise _))

theorem NoOverlap.disjoint {msgs : List I2cMsg} (disjoint : NoOverlap msgs)
    {first second : I2cMsg} (firstMem : first ∈ msgs) (secondMem : second ∈ msgs)
    (different : first ≠ second) : ∀ addr ∈ first.bytes, addr ∉ second.bytes := by
  have symmetric : Std.Symm fun first second : I2cMsg =>
      ∀ addr ∈ first.bytes, addr ∉ second.bytes := by
    constructor
    intro first second apart addr inSecond inFirst
    exact apart addr inFirst inSecond
  exact List.Pairwise.forall disjoint firstMem secondMem different

/-! ## Positions in the script -/

theorem script_drop (done : List I2cMsg) (msg : I2cMsg) (rest : List I2cMsg) :
    (script (done ++ msg :: rest)).drop (interruptCount done) = script (msg :: rest) := by
  induction done with
  | nil => rfl
  | cons first done ih =>
      rw [List.cons_append, script, interruptCount_cons, ← I2cMsg.slots_length first
        (closing (done ++ msg :: rest)), List.drop_length_add_append]
      exact ih

/-- Interrupt `index` of a message, in the script of the whole array. -/
theorem script_getElem? (done : List I2cMsg) (msg : I2cMsg) (rest : List I2cMsg)
    {index : Nat} (bound : index ≤ msg.len.toNat) :
    (script (done ++ msg :: rest))[interruptCount done + index]? =
      some (msg.slot (closing rest) index) := by
  rw [← List.getElem?_drop, script_drop, script, List.getElem?_append_left]
  · simp [I2cMsg.slots, show index < msg.len.toNat + 1 by omega]
  · simp
    omega

/-- Every slot of the script belongs to a message of the array. -/
theorem mem_script {msgs : List I2cMsg} {slot : Slot} (member : slot ∈ script msgs) :
    ∃ msg ∈ msgs, ∃ rest, ∃ index ≤ msg.len.toNat,
      slot = msg.slot (closing rest) index := by
  induction msgs with
  | nil => simp [script] at member
  | cons msg rest ih =>
      rcases List.mem_append.mp member with here | later
      · obtain ⟨index, inRange, rfl⟩ := List.mem_map.mp here
        have bound : index ≤ msg.len.toNat := Nat.lt_succ_iff.mp (List.mem_range.mp inRange)
        exact ⟨msg, by simp, rest, index, bound, rfl⟩
      · obtain ⟨other, otherMem, found⟩ := ih later
        exact ⟨other, List.mem_cons_of_mem _ otherMem, found⟩

/-! ## What is received -/

/-- The bytes of a message that a transfer overwrites. -/
def I2cMsg.readBytes (msg : I2cMsg) : List Nat := if msg.isRead then msg.bytes else []

theorem slots_dests (msg : I2cMsg) (close : Action) :
    (msg.slots close).filterMap Slot.dest = msg.readBytes := by
  rw [I2cMsg.slots, List.range_succ_eq_map, List.map_cons, List.filterMap_cons]
  simp only [I2cMsg.slot, Nat.lt_irrefl, and_false, if_false, List.map_map]
  cases direction : msg.isRead with
  | true =>
      rw [I2cMsg.readBytes, if_pos direction, I2cMsg.bytes, List.filterMap_map,
        ← List.filterMap_eq_map]
      congr 1
      funext index
      simp [I2cMsg.slot, direction]
  | false =>
      rw [I2cMsg.readBytes, direction]
      simp [I2cMsg.slot, direction]

theorem script_dests (msgs : List I2cMsg) :
    (script msgs).filterMap Slot.dest = msgs.flatMap I2cMsg.readBytes := by
  induction msgs with
  | nil => rfl
  | cons msg rest ih =>
      rw [script, List.filterMap_append, slots_dests, ih, List.flatMap_cons]

/-- Without overlap no byte is received twice. -/
theorem NoOverlap.dests_nodup {msgs : List I2cMsg} (disjoint : NoOverlap msgs) :
    ((script msgs).filterMap Slot.dest).Nodup := by
  rw [script_dests, List.nodup_flatMap]
  constructor
  · intro msg _
    unfold I2cMsg.readBytes
    split
    · exact List.nodup_range.map fun left right equal => Nat.add_left_cancel equal
    · exact List.nodup_nil
  · apply disjoint.imp
    intro first second apart addr inFirst inSecond
    unfold I2cMsg.readBytes at inFirst inSecond
    split at inFirst <;> split at inSecond <;> simp_all

theorem dest_injective {slots : List Slot} (nodup : (slots.filterMap Slot.dest).Nodup)
    {i j : Nat} {left right : Slot} (leftAt : slots[i]? = some left)
    (rightAt : slots[j]? = some right) {addr : Nat} (leftDest : left.dest = some addr)
    (rightDest : right.dest = some addr) : i = j := by
  have pairwise := List.pairwise_iff_getElem.mp (List.pairwise_filterMap.mp nodup)
  obtain ⟨iBound, rfl⟩ := List.getElem?_eq_some_iff.mp leftAt
  obtain ⟨jBound, rfl⟩ := List.getElem?_eq_some_iff.mp rightAt
  rcases Nat.lt_trichotomy i j with before | equal | after
  · exact absurd rfl (pairwise i j iBound jBound before addr leftDest addr rightDest)
  · exact equal
  · exact absurd rfl (pairwise j i jBound iBound after addr rightDest addr leftDest)

theorem mem_stored {slots : List Slot} {irqs : List Irq} {addr : Nat} {value : UInt8} :
    (addr, value) ∈ stored slots irqs ↔
      ∃ (k : Nat) (slot : Slot) (irq : Irq), slots[k]? = some slot ∧ irqs[k]? = some irq ∧
        slot.dest = some addr ∧ irq.iicds.toUInt8 = value := by
  induction slots generalizing irqs with
  | nil => simp [stored]
  | cons slot slots ih =>
      cases irqs with
      | nil => simp [stored]
      | cons irq irqs =>
          rw [stored, List.mem_append, ih]
          constructor
          · rintro (here | ⟨k, later⟩)
            · refine ⟨0, slot, irq, rfl, rfl, ?_⟩
              simpa [Slot.received] using here
            · exact ⟨k + 1, later⟩
          · rintro ⟨k, other, sample, slotAt, irqAt, dest, value_eq⟩
            cases k with
            | zero =>
                obtain rfl : slot = other := by simpa using slotAt
                obtain rfl : irq = sample := by simpa using irqAt
                left
                simp [Slot.received, dest, value_eq]
            | succ k => exact .inr ⟨k, other, sample, slotAt, irqAt, dest, value_eq⟩

theorem stored_sublist (slots : List Slot) (irqs : List Irq) :
    ((stored slots irqs).map Prod.fst).Sublist (slots.filterMap Slot.dest) := by
  induction slots generalizing irqs with
  | nil => simp [stored]
  | cons slot slots ih =>
      cases irqs with
      | nil => simp [stored]
      | cons irq irqs =>
          rw [stored, List.map_append, List.filterMap_cons]
          cases dest : slot.dest with
          | none => simpa [Slot.received, dest] using ih irqs
          | some addr => simpa [Slot.received, dest] using ih irqs

/-- A byte that no interrupt has stored keeps its value. -/
theorem overlay_stored_of_not_received (mem : Nat → UInt8) {slots : List Slot}
    {irqs : List Irq} {addr : Nat}
    (fresh : ∀ (k : Nat) slot, k < irqs.length → slots[k]? = some slot →
      slot.dest ≠ some addr) :
    overlay mem (stored slots irqs) addr = mem addr := by
  apply overlay_of_notMem
  intro member
  obtain ⟨⟨other, value⟩, stored, rfl⟩ := List.mem_map.mp member
  obtain ⟨k, slot, irq, slotAt, irqAt, dest, -⟩ := mem_stored.mp stored
  exact fresh k slot (List.getElem?_eq_some_iff.mp irqAt).1 slotAt dest

/-- Byte `index` of a read buffer: the value sampled at interrupt `index + 1` after
the one of the address, and what was there before as long as it has not come. -/
theorem NoOverlap.received {done rest : List I2cMsg} {msg : I2cMsg}
    (disjoint : NoOverlap (done ++ msg :: rest)) (mem : Nat → UInt8) (irqs : List Irq)
    (direction : msg.isRead = true) {index : Nat} (bound : index < msg.len.toNat) :
    overlay mem (stored (script (done ++ msg :: rest)) irqs) (msg.buf + index) =
      match irqs[interruptCount done + (index + 1)]? with
      | some irq => irq.iicds.toUInt8
      | none => mem (msg.buf + index) := by
  have slotAt := script_getElem? done msg rest (show index + 1 ≤ msg.len.toNat from bound)
  have dest : (msg.slot (closing rest) (index + 1)).dest = some (msg.buf + index) := by
    simp [I2cMsg.slot, direction]
  split
  next irq irqAt =>
      apply overlay_of_mem
      · exact disjoint.dests_nodup.sublist (stored_sublist _ irqs)
      · exact mem_stored.mpr ⟨_, _, irq, slotAt, irqAt, dest, rfl⟩
  next absent =>
      apply overlay_stored_of_not_received
      intro k slot taken otherAt otherDest
      have same := dest_injective disjoint.dests_nodup otherAt slotAt otherDest dest
      rw [← same, List.getElem?_eq_none_iff] at absent
      omega

/-- A byte outside the read buffers is never written. -/
theorem overlay_stored_of_not_readBytes (mem : Nat → UInt8) {msgs : List I2cMsg}
    (irqs : List Irq) {addr : Nat} (outside : ∀ msg ∈ msgs, addr ∉ msg.readBytes) :
    overlay mem (stored (script msgs) irqs) addr = mem addr := by
  apply overlay_of_notMem
  intro member
  have dests := (stored_sublist (script msgs) irqs).subset member
  rw [script_dests, List.mem_flatMap] at dests
  obtain ⟨msg, msgMem, inside⟩ := dests
  exact outside msg msgMem inside

/-! ## What is sent -/

/-- The byte of memory that a slot sends. -/
def Slot.source (slot : Slot) : Option Nat :=
  match slot.action with
  | .byte index => if slot.msg.isRead then none else some (slot.msg.buf + index)
  | .start _ | .stop => none

theorem Slot.event_congr {slot : Slot} {mem mem' : Nat → UInt8}
    (agree : ∀ addr, slot.source = some addr → mem addr = mem' addr) :
    slot.event mem = slot.event mem' := by
  unfold Slot.source at agree
  unfold Slot.event
  cases action : slot.action with
  | byte index =>
      simp only [action, byteEvent] at agree ⊢
      cases direction : slot.msg.isRead with
      | true => rfl
      | false =>
          simp only [direction, Bool.false_eq_true, if_false, Option.some.injEq] at agree ⊢
          rw [agree _ rfl]
  | start next => rfl
  | stop => rfl

/-- Where no byte received is sent again, the bytes sent are those of any memory that
agrees with the first one on what is sent. -/
theorem sent_eq_map {slots : List Slot}
    (independent : ∀ slot ∈ slots, ∀ other ∈ slots, ∀ addr, slot.dest = some addr →
      other.source ≠ some addr)
    {mem mem' : Nat → UInt8}
    (agree : ∀ slot ∈ slots, ∀ addr, slot.source = some addr → mem addr = mem' addr)
    (irqs : List Irq) :
    sent mem slots irqs = (slots.take irqs.length).map (Slot.event mem') := by
  induction slots generalizing mem irqs with
  | nil => simp [sent]
  | cons slot slots ih =>
      cases irqs with
      | nil => simp [sent]
      | cons irq irqs =>
          have agreeNext : ∀ other ∈ slot :: slots, ∀ addr, other.source = some addr →
              overlay mem (slot.received irq) addr = mem' addr := by
            intro other otherMem addr source
            rw [overlay_of_notMem]
            · exact agree other otherMem addr source
            · intro member
              have dest : slot.dest = some addr := by simpa [Slot.received] using member
              exact independent slot (by simp) other otherMem addr dest source
          rw [sent, List.length_cons, List.take_succ_cons, List.map_cons]
          congr 1
          · exact Slot.event_congr (agreeNext slot (by simp))
          · apply ih
            · intro first firstMem second secondMem
              exact independent first (List.mem_cons_of_mem _ firstMem) second
                (List.mem_cons_of_mem _ secondMem)
            · intro other otherMem
              exact agreeNext other (List.mem_cons_of_mem _ otherMem)

theorem I2cMsg.slot_dest_mem {msg : I2cMsg} {close : Action} {index addr : Nat}
    (bound : index ≤ msg.len.toNat)
    (dest : (msg.slot close index).dest = some addr) :
    msg.isRead = true ∧ addr ∈ msg.bytes := by
  simp only [I2cMsg.slot, Option.ite_none_right_eq_some, Option.some.injEq] at dest
  obtain ⟨⟨direction, positive⟩, rfl⟩ := dest
  exact ⟨direction, I2cMsg.mem_bytes.mpr ⟨index - 1, by omega, rfl⟩⟩

theorem I2cMsg.slot_source_mem {msg : I2cMsg} {rest : List I2cMsg} {index addr : Nat}
    (source : (msg.slot (closing rest) index).source = some addr) :
    msg.isRead = false ∧ addr ∈ msg.bytes := by
  by_cases more : index < msg.len.toNat
  · cases direction : msg.isRead with
    | true => simp [Slot.source, I2cMsg.slot, more, direction] at source
    | false =>
        simp only [Slot.source, I2cMsg.slot, more, if_true, direction, Bool.false_eq_true,
          if_false, Option.some.injEq] at source
        exact ⟨rfl, I2cMsg.mem_bytes.mpr ⟨index, more, source⟩⟩
  · cases rest <;> simp [Slot.source, I2cMsg.slot, more, closing] at source

/-- Without overlap every byte sent is the one that its buffer held to begin with. -/
theorem NoOverlap.sent_eq {msgs : List I2cMsg} (disjoint : NoOverlap msgs)
    (mem : Nat → UInt8) (irqs : List Irq) :
    sent mem (script msgs) irqs =
      ((script msgs).take irqs.length).map (Slot.event mem) := by
  apply sent_eq_map
  · intro slot slotMem other otherMem addr dest source
    obtain ⟨reader, readerMem, rest, index, bound, rfl⟩ := mem_script slotMem
    obtain ⟨writer, writerMem, rest', index', bound', rfl⟩ := mem_script otherMem
    obtain ⟨reads, inReader⟩ := I2cMsg.slot_dest_mem bound dest
    obtain ⟨writes, inWriter⟩ := I2cMsg.slot_source_mem source
    have different : reader ≠ writer := by
      rintro rfl
      rw [reads] at writes
      contradiction
    exact disjoint.disjoint readerMem writerMem different addr inReader inWriter
  · intros
    rfl

theorem slots_events (mem : Nat → UInt8) (msg : I2cMsg) (close : Action) :
    (msg.slots close).map (Slot.event mem) =
      (List.range msg.len.toNat).map (byteEvent mem msg) ++
        [(msg.slot close msg.len.toNat).event mem] := by
  rw [I2cMsg.slots, List.range_succ, List.map_append, List.map_append, List.map_map]
  congr 1
  apply List.map_congr_left
  intro index member
  simp [I2cMsg.slot, Slot.event, List.mem_range.mp member]

/-- The first START and the events of the script are the bus trace of the array. -/
theorem busTrace_eq (mem : Nat → UInt8) (msg : I2cMsg) (rest : List I2cMsg) :
    busTrace mem (msg :: rest) =
      startEvent msg :: (script (msg :: rest)).map (Slot.event mem) := by
  induction rest generalizing msg with
  | nil =>
      simp [busTrace, msgTrace, script, slots_events, I2cMsg.slot, Slot.event, closing]
  | cons next rest ih =>
      have split : script (msg :: next :: rest) =
          msg.slots (.start next) ++ script (next :: rest) := rfl
      rw [busTrace, ih next, split, List.map_append, slots_events]
      simp [msgTrace, I2cMsg.slot, Slot.event]

end Mini2440.I2c
