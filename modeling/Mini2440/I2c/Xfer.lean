import Mini2440.I2c.Buffers

/-!
# What a transfer does

The results about `s3c2440_i2c_xfer` and its interrupt handler, for every array of
messages and every sequence of interrupts: the run in which everything is
acknowledged, the run that meets a missing acknowledge, and index safety.
-/

namespace Mini2440.I2c

open Overlay

variable {ctl : Ctl} {msgs rest : List I2cMsg} {msg : I2cMsg} {irqs : List Irq}

/-- Interrupt `k` of the run, counted from 0, is taken in `STATE_START` or
`STATE_WRITE` and reads IICSTAT with the last bit set. -/
def NackAt (ctl : Ctl) (msgs : List I2cMsg) (irqs : List Irq) (k : Nat) : Prop :=
  ∃ irq before, irqs[k]? = some irq ∧ xferRun ctl msgs (irqs.take k) = .ok before ∧
    before.data.state.awaitsAck = true ∧ irq.lastBit = true

/-! ## Interrupts and slots -/

theorem begin_run_acked (ctl : Ctl) (msg : I2cMsg) (rest : List I2cMsg)
    (acked : Acked (script (msg :: rest)) irqs) :
    (Transfer.begin ctl.mem ctl.trace msg rest).run irqs =
      { slots := (script (msg :: rest)).drop irqs.length
        mem := overlay ctl.mem (stored (script (msg :: rest)) irqs)
        trace := ctl.trace ++ startEvent msg :: sent ctl.mem (script (msg :: rest)) irqs
        result := if interruptCount (msg :: rest) ≤ irqs.length then some 0 else none } := by
  rw [Transfer.run_acked acked]
  have nonempty : script (msg :: rest) ≠ [] := by
    rw [← List.length_pos_iff_ne_nil, script_length, interruptCount_cons]
    omega
  cases irqs with
  | nil => simp [Transfer.begin, stored, sent, interruptCount_cons]
  | cons irq irqs =>
      simp only [Transfer.begin, script_length, ne_eq, nonempty, not_false_eq_true,
        reduceCtorEq, and_self, if_true, List.append_assoc, List.singleton_append]

theorem Acked.take {slots : List Slot} (acked : Acked slots irqs) (k : Nat) :
    Acked slots (irqs.take k) := by
  rw [acked_iff] at acked ⊢
  intro i slot irq slotAt irqAt
  rw [List.getElem?_take] at irqAt
  split at irqAt
  · exact acked i slot irq slotAt irqAt
  · contradiction

/-- The driver is stopped only after a missing acknowledge or the last interrupt. -/
theorem acked_of_not_stopped {final : Ctl}
    (ran : xferRun ctl (msg :: rest) irqs = .ok final)
    (running : final.data.state ≠ .stop) :
    Acked (script (msg :: rest)) irqs ∧
      irqs.length < interruptCount (msg :: rest) := by
  obtain ⟨final', ran', refines⟩ := xferRun_refines ctl msg rest irqs
  obtain rfl : final = final' := Except.ok.inj (ran.symm.trans ran')
  have unfinished := not_iff_not.mpr refines.state_eq_stop_iff
  rcases acked_or_first_nack (script (msg :: rest)) irqs with
    acked | ⟨before, irq, after, slot, split_eq, acked, slotAt, nacked⟩
  · refine ⟨acked, ?_⟩
    rw [begin_run_acked ctl msg rest acked] at unfinished
    by_contra complete
    exact unfinished.mp running (by simp [Nat.le_of_not_lt complete])
  · rw [split_eq, Transfer.run_nacked _ acked slotAt nacked] at unfinished
    exact absurd (by simp) (unfinished.mp running)

/-- A missing acknowledge of the driver is one of the script: it is the first, and its
slot is one that waits for an acknowledge. -/
theorem nackAt_iff {k : Nat} :
    NackAt ctl (msg :: rest) irqs k ↔
      ∃ irq slot, irqs[k]? = some irq ∧ Acked (script (msg :: rest)) (irqs.take k) ∧
        (script (msg :: rest))[k]? = some slot ∧ slot.nacked irq = true := by
  obtain ⟨before, ran, refines⟩ := xferRun_refines ctl msg rest (irqs.take k)
  constructor
  · rintro ⟨irq, before', irqAt, ran', awaits, lastBit⟩
    obtain rfl : before = before' := Except.ok.inj (ran.symm.trans ran')
    have running : before.data.state ≠ .stop := by
      intro state
      simp [state, XferState.awaitsAck] at awaits
    obtain ⟨acked, -⟩ := acked_of_not_stopped ran running
    obtain ⟨slot, slots, remaining⟩ := refines.exists_slot running
    have length_take : (irqs.take k).length = k :=
      List.length_take_of_le (Nat.le_of_lt (List.getElem?_eq_some_iff.mp irqAt).1)
    refine ⟨irq, slot, irqAt, acked, ?_, ?_⟩
    · rw [begin_run_acked ctl msg rest acked, length_take] at remaining
      have head := congrArg (fun slots : List Slot => slots[0]?) remaining
      simpa [List.getElem?_drop] using head
    · rw [Slot.nacked, ← refines.state_eq remaining, awaits, lastBit]
      rfl
  · rintro ⟨irq, slot, irqAt, acked, slotAt, nacked⟩
    have length_take : (irqs.take k).length = k :=
      List.length_take_of_le (Nat.le_of_lt (List.getElem?_eq_some_iff.mp irqAt).1)
    obtain ⟨bound, slotEq⟩ := List.getElem?_eq_some_iff.mp slotAt
    have remaining : ((Transfer.begin ctl.mem ctl.trace msg rest).run (irqs.take k)).slots =
        slot :: (script (msg :: rest)).drop (k + 1) := by
      rw [begin_run_acked ctl msg rest acked, length_take, ← slotEq]
      exact List.drop_eq_getElem_cons bound
    obtain ⟨awaits, lastBit⟩ := Bool.and_eq_true_iff.mp nacked
    exact ⟨irq, before, irqAt, ran, (refines.state_eq remaining).symm ▸ awaits, lastBit⟩

/-- Nothing is missing exactly when the script is acknowledged. -/
theorem acked_iff_forall_not_nackAt :
    Acked (script (msg :: rest)) irqs ↔ ∀ k, ¬ NackAt ctl (msg :: rest) irqs k := by
  constructor
  · intro acked k nack
    obtain ⟨irq, slot, irqAt, -, slotAt, nacked⟩ := nackAt_iff.mp nack
    rw [acked_iff.mp acked k slot irq slotAt irqAt] at nacked
    contradiction
  · intro none_missing
    rcases acked_or_first_nack (script (msg :: rest)) irqs with
      acked | ⟨before, irq, after, slot, split_eq, acked, slotAt, nacked⟩
    · exact acked
    · refine absurd (nackAt_iff.mpr ⟨irq, slot, ?_, ?_, slotAt, nacked⟩)
        (none_missing before.length)
      · simp [split_eq]
      · rw [split_eq, List.take_left]
        exact acked

/-! ## Success -/

/-- The state after a transfer in which everything was acknowledged: stopped without
error, the bus trace is that of the array, every byte of a read buffer is the value
sampled at its interrupt and no other byte has changed. -/
structure Completed (ctl : Ctl) (msgs : List I2cMsg) (irqs : List Irq) (final : Ctl) :
    Prop where
  state : final.data.state = .stop
  err : final.data.err = 0
  trace : final.trace = ctl.trace ++ busTrace ctl.mem msgs
  received : ∀ done msg rest, msgs = done ++ msg :: rest → msg.isRead = true →
    ∀ index < msg.len.toNat, ∃ irq,
      irqs[interruptCount done + (index + 1)]? = some irq ∧
        final.mem (msg.buf + index) = irq.iicds.toUInt8
  unchanged : ∀ addr, (∀ msg ∈ msgs, addr ∉ msg.readBytes) →
    final.mem addr = ctl.mem addr

/-- The success path: for every array of messages without overlap, in every run in
which no address or sent byte lacks its acknowledge, the driver is busy up to the last
of the `interruptCount msgs` interrupts, and has completed the transfer from then on. -/
theorem xferRun_of_acked (ctl : Ctl) {msgs : List I2cMsg} {irqs : List Irq}
    (nonempty : msgs ≠ []) (disjoint : NoOverlap msgs)
    (acked : ∀ k, ¬ NackAt ctl msgs irqs k) :
    ∀ k ≤ irqs.length, ∃ final, xferRun ctl msgs (irqs.take k) = .ok final ∧
      (k < interruptCount msgs → final.data.state ≠ .stop) ∧
      (interruptCount msgs ≤ k → Completed ctl msgs irqs final) := by
  intro k inRange
  obtain ⟨msg, rest, rfl⟩ := List.exists_cons_of_ne_nil nonempty
  obtain ⟨final, ran, refines⟩ := xferRun_refines ctl msg rest (irqs.take k)
  have ackedTake := (acked_iff_forall_not_nackAt.mpr acked).take k
  have length_take : (irqs.take k).length = k := List.length_take_of_le inRange
  have result := begin_run_acked ctl msg rest ackedTake
  rw [length_take] at result
  have mem_eq : final.mem =
      overlay ctl.mem (stored (script (msg :: rest)) (irqs.take k)) :=
    refines.mem.trans (congrArg Transfer.mem result)
  have trace_eq : final.trace = ctl.trace ++
      startEvent msg :: sent ctl.mem (script (msg :: rest)) (irqs.take k) :=
    refines.trace.trans (congrArg Transfer.trace result)
  refine ⟨final, ran, ?_, ?_⟩
  · intro early
    rw [Ne, refines.state_eq_stop_iff, result]
    simp [Nat.not_le.mpr early]
  · intro complete
    constructor
    · rw [refines.state_eq_stop_iff, result]
      simp [complete]
    · rw [refines.err_eq, result]
      simp [complete]
    · have whole : (script (msg :: rest)).take k = script (msg :: rest) :=
        List.take_of_length_le (by rwa [script_length])
      rw [trace_eq, disjoint.sent_eq, length_take, whole, busTrace_eq]
    · intro done other after split_eq direction index bound
      rw [split_eq] at disjoint complete mem_eq
      have inside : interruptCount done + (index + 1) < k := by
        refine Nat.lt_of_lt_of_le ?_ complete
        simp only [interruptCount, List.map_append, List.map_cons, List.sum_append,
          List.sum_cons]
        omega
      have inIrqs : interruptCount done + (index + 1) < irqs.length :=
        Nat.lt_of_lt_of_le inside inRange
      have irqAt : irqs[interruptCount done + (index + 1)]? =
          some irqs[interruptCount done + (index + 1)] := List.getElem?_eq_getElem inIrqs
      refine ⟨_, irqAt, ?_⟩
      rw [mem_eq, disjoint.received _ _ direction bound, List.getElem?_take,
        if_pos inside, irqAt]
    · intro addr outside
      rw [mem_eq]
      exact overlay_stored_of_not_readBytes _ _ outside

/-- The messages of a random read: the address in the device, then one byte. -/
def randomRead : List I2cMsg := [⟨0x50, 0, 1, 0⟩, ⟨0x50, 1, 1, 8⟩]

/-- Its interrupts; the last one is taken in `STATE_READ`, with the last bit set. -/
def randomReadIrqs : List Irq := [⟨0, 0⟩, ⟨0, 0⟩, ⟨0, 0⟩, ⟨1, 0x5a⟩]

theorem randomRead_completed :
    ∃ final, xferRun (i2cBusS3c2440Init fun _ => 0x12) randomRead randomReadIrqs =
        .ok final ∧
      Completed (i2cBusS3c2440Init fun _ => 0x12) randomRead randomReadIrqs final := by
  obtain ⟨final, ran, -, completed⟩ :=
    xferRun_of_acked (i2cBusS3c2440Init fun _ => 0x12) (by decide) (by decide)
      (acked_iff_forall_not_nackAt.mp (by decide : Acked (script randomRead) randomReadIrqs))
      4 (by decide)
  exact ⟨final, ran, completed (by decide)⟩

/-! ## A missing acknowledge -/

theorem sent_isPrefix_append (mem : Nat → UInt8) (slots : List Slot)
    (irqs more : List Irq) : sent mem slots irqs <+: sent mem slots (irqs ++ more) := by
  induction slots generalizing mem irqs with
  | nil => simp [sent]
  | cons slot slots ih =>
      cases irqs with
      | nil => simp [sent]
      | cons irq irqs =>
          simp only [List.cons_append, sent]
          exact List.cons_prefix_cons.mpr ⟨rfl, ih _ irqs⟩

theorem mem_sent {mem : Nat → UInt8} {slots : List Slot} {irqs : List Irq}
    {event : BusEvent} (member : event ∈ sent mem slots irqs) :
    ∃ (k : Nat) (slot : Slot) (mem' : Nat → UInt8), k < irqs.length ∧
      slots[k]? = some slot ∧ event = slot.event mem' := by
  induction slots generalizing mem irqs with
  | nil => simp [sent] at member
  | cons slot slots ih =>
      cases irqs with
      | nil => simp [sent] at member
      | cons irq irqs =>
          rcases List.mem_cons.mp member with here | later
          · exact ⟨0, slot, _, by simp, rfl, here⟩
          · obtain ⟨k, other, mem', bound, slotAt, event_eq⟩ := ih later
            exact ⟨k + 1, other, mem', by simpa using bound, slotAt, event_eq⟩

theorem Slot.action_eq_stop {slot : Slot} {mem : Nat → UInt8} {iicstat : UInt32}
    (event : slot.event mem = .stop iicstat) : slot.action = .stop := by
  unfold Slot.event at event
  cases action : slot.action with
  | byte index =>
      simp only [action, byteEvent] at event
      split at event <;> contradiction
  | start next =>
      simp only [action, startEvent] at event
      contradiction
  | stop => rfl

/-- The script stops the bus in its last slot only. -/
theorem script_stop_last {msgs : List I2cMsg} {k : Nat} {slot : Slot}
    (slotAt : (script msgs)[k]? = some slot) (stop : slot.action = .stop) :
    k + 1 = interruptCount msgs := by
  induction msgs generalizing k with
  | nil => simp [script] at slotAt
  | cons msg rest ih =>
      rw [script] at slotAt
      rcases Nat.lt_or_ge k (msg.slots (closing rest)).length with here | later
      · rw [List.getElem?_append_left here] at slotAt
        obtain ⟨index, -, rfl⟩ := List.mem_map.mp (List.mem_of_getElem? slotAt)
        have bound : k ≤ msg.len.toNat := by simpa [Nat.lt_succ_iff] using here
        have slot_eq : msg.slot (closing rest) k = msg.slot (closing rest) index := by
          simpa [I2cMsg.slots, Nat.lt_succ_iff.mpr bound] using slotAt
        rw [← slot_eq] at stop
        rcases Nat.lt_or_eq_of_le bound with more | atEnd
        · simp [I2cMsg.slot, more] at stop
        · cases rest with
          | nil => simp [interruptCount_cons, atEnd]
          | cons next rest => simp [I2cMsg.slot, atEnd, closing] at stop
      · rw [List.getElem?_append_right later] at slotAt
        have last := ih slotAt
        rw [I2cMsg.slots_length] at last later
        rw [interruptCount_cons]
        omega

theorem stop_notMem_sent (mem : Nat → UInt8) {msgs : List I2cMsg} {irqs : List Irq}
    (unfinished : irqs.length < interruptCount msgs) (iicstat : UInt32) :
    BusEvent.stop iicstat ∉ sent mem (script msgs) irqs := by
  intro member
  obtain ⟨k, slot, mem', bound, slotAt, event_eq⟩ := mem_sent member
  have last := script_stop_last slotAt (Slot.action_eq_stop event_eq.symm)
  omega

/-- The state around interrupt `k`, the first that reports a missing acknowledge:
`before` and `after` it, and `final` at the end of the run. -/
structure Abandoned (ctl : Ctl) (msgs : List I2cMsg) (irqs : List Irq) (k : Nat)
    (before after final : Ctl) : Prop where
  first : ∀ other, NackAt ctl msgs irqs other → other = k
  state : after.data.state = .stop
  err : after.data.err = -ENODEV
  stop : ∃ msg, before.msg = .ok msg ∧ after.trace = before.trace ++ [stopEvent msg]
  noStop : ∃ done, before.trace = ctl.trace ++ done ∧ ∀ iicstat, .stop iicstat ∉ done
  sent : NoOverlap msgs → before.trace <+: ctl.trace ++ busTrace ctl.mem msgs
  sentAlike : ∀ irqs' success, irqs.take k <+: irqs' →
    (∀ other, ¬ NackAt ctl msgs irqs' other) → xferRun ctl msgs irqs' = .ok success →
      before.trace <+: success.trace
  mem : after.mem = overlay ctl.mem (stored (script msgs) (irqs.take k))
  received : NoOverlap msgs → ∀ done msg rest, msgs = done ++ msg :: rest →
    msg.isRead = true → ∀ index < msg.len.toNat,
      after.mem (msg.buf + index) =
        match (irqs.take k)[interruptCount done + (index + 1)]? with
        | some irq => irq.iicds.toUInt8
        | none => ctl.mem (msg.buf + index)
  unchanged : ∀ addr, (∀ msg ∈ msgs, addr ∉ msg.readBytes) →
    after.mem addr = ctl.mem addr
  quiet : final.data.state = .stop ∧ final.data.err = -ENODEV ∧
    final.trace = after.trace ∧ final.mem = after.mem

theorem abandoned_of_nackAt {k : Nat} (nack : NackAt ctl (msg :: rest) irqs k) :
    ∃ before after final, xferRun ctl (msg :: rest) (irqs.take k) = .ok before ∧
      xferRun ctl (msg :: rest) (irqs.take (k + 1)) = .ok after ∧
      xferRun ctl (msg :: rest) irqs = .ok final ∧
      Abandoned ctl (msg :: rest) irqs k before after final := by
  obtain ⟨irq, slot, irqAt, acked, slotAt, nacked⟩ := nackAt_iff.mp nack
  obtain ⟨kBound, irq_eq⟩ := List.getElem?_eq_some_iff.mp irqAt
  obtain ⟨slotBound, slot_eq⟩ := List.getElem?_eq_some_iff.mp slotAt
  have length_take : (irqs.take k).length = k := List.length_take_of_le (Nat.le_of_lt kBound)
  have upTo : irqs.take (k + 1) = irqs.take k ++ irq :: [] := by
    rw [List.take_succ_eq_append_getElem kBound, irq_eq]
  have whole : irqs = irqs.take k ++ irq :: irqs.drop (k + 1) := by
    rw [← irq_eq, ← List.drop_eq_getElem_cons kBound, List.take_append_drop]
  obtain ⟨before, ranBefore, refinesBefore⟩ := xferRun_refines ctl msg rest (irqs.take k)
  obtain ⟨after, ranAfter, refinesAfter⟩ := xferRun_refines ctl msg rest (irqs.take (k + 1))
  obtain ⟨final, ranFinal, refinesFinal⟩ := xferRun_refines ctl msg rest irqs
  have beforeRun := begin_run_acked ctl msg rest acked
  have slotAt' : (Transfer.begin ctl.mem ctl.trace msg rest).slots[(irqs.take k).length]? =
      some slot := by rw [length_take]; exact slotAt
  have afterRun := Transfer.run_nacked [] acked slotAt' nacked
  have finalRun := Transfer.run_nacked (irqs.drop (k + 1)) acked slotAt' nacked
  rw [← upTo] at afterRun
  rw [← whole] at finalRun
  rw [afterRun] at refinesAfter
  rw [finalRun] at refinesFinal
  have unfinished : (irqs.take k).length < interruptCount (msg :: rest) := by
    rw [length_take, ← script_length]
    exact slotBound
  have trace_eq : before.trace = ctl.trace ++
      startEvent msg :: sent ctl.mem (script (msg :: rest)) (irqs.take k) :=
    refinesBefore.trace.trans (congrArg Transfer.trace beforeRun)
  have mem_eq : after.mem = overlay ctl.mem (stored (script (msg :: rest)) (irqs.take k)) :=
    refinesAfter.mem
  refine ⟨before, after, final, ranBefore, ranAfter, ranFinal, ?_⟩
  constructor
  case first =>
    intro other otherNack
    obtain ⟨irq', slot', irqAt', acked', slotAtOther, nacked'⟩ := nackAt_iff.mp otherNack
    rcases Nat.lt_trichotomy other k with earlier | equal | later
    · have contradicts := acked_iff.mp acked other slot' irq' slotAtOther
        (by rw [List.getElem?_take, if_pos earlier, irqAt'])
      rw [contradicts] at nacked'
      contradiction
    · exact equal
    · have contradicts := acked_iff.mp acked' k slot irq slotAt
        (by rw [List.getElem?_take, if_pos later, irqAt])
      rw [contradicts] at nacked
      contradiction
  case state => exact refinesAfter.state_eq_stop_iff.mpr (by simp)
  case err => simpa using refinesAfter.err_eq
  case stop =>
    have remaining : ((Transfer.begin ctl.mem ctl.trace msg rest).run (irqs.take k)).slots =
        slot :: (script (msg :: rest)).drop (k + 1) := by
      rw [beforeRun, length_take, ← slot_eq]
      exact List.drop_eq_getElem_cons slotBound
    refine ⟨slot.msg, refinesBefore.msg_eq remaining, ?_⟩
    rw [refinesAfter.trace, trace_eq]
    simp [Transfer.begin]
  case noStop =>
    refine ⟨_, trace_eq, ?_⟩
    intro iicstat member
    rcases List.mem_cons.mp member with start | later
    · simp [startEvent] at start
    · exact stop_notMem_sent ctl.mem unfinished iicstat later
  case sent =>
    intro disjoint
    rw [trace_eq, disjoint.sent_eq, busTrace_eq]
    refine (List.prefix_append_right_inj ctl.trace).mpr (List.cons_prefix_cons.mpr ⟨rfl, ?_⟩)
    exact (List.take_prefix _ _).map _
  case sentAlike =>
    intro irqs' success extends_ noNack ran
    obtain ⟨success', ran', refines'⟩ := xferRun_refines ctl msg rest irqs'
    obtain rfl : success = success' := Except.ok.inj (ran.symm.trans ran')
    have acked' := acked_iff_forall_not_nackAt.mpr noNack
    obtain ⟨more, rfl⟩ := extends_
    rw [trace_eq, refines'.trace, begin_run_acked ctl msg rest acked']
    refine (List.prefix_append_right_inj ctl.trace).mpr (List.cons_prefix_cons.mpr ⟨rfl, ?_⟩)
    exact sent_isPrefix_append _ _ _ _
  case mem => exact mem_eq
  case received =>
    intro disjoint done other after' split_eq direction index bound
    rw [mem_eq, split_eq]
    rw [split_eq] at disjoint
    exact disjoint.received _ _ direction bound
  case unchanged =>
    intro addr outside
    rw [mem_eq]
    exact overlay_stored_of_not_readBytes _ _ outside
  case quiet =>
    refine ⟨refinesFinal.state_eq_stop_iff.mpr (by simp), by simpa using refinesFinal.err_eq,
      ?_, ?_⟩
    · rw [refinesFinal.trace, refinesAfter.trace]
    · rw [refinesFinal.mem, refinesAfter.mem]

/-- The other run samples the same bytes and sees the same last bit, except in
`STATE_READ`. -/
def AlikeButReads (ctl : Ctl) (msgs : List I2cMsg) (irqs irqs' : List Irq) : Prop :=
  irqs'.length = irqs.length ∧
    ∀ (k : Nat) irq irq' before, irqs[k]? = some irq → irqs'[k]? = some irq' →
      xferRun ctl msgs (irqs.take k) = .ok before →
        irq'.iicds = irq.iicds ∧
          (before.data.state ≠ .read → irq'.lastBit = irq.lastBit)

/-- The last bit is not looked at in `STATE_READ`. -/
theorem run_eq_of_alikeButReads {irqs' : List Irq}
    (alike : AlikeButReads ctl (msg :: rest) irqs irqs') :
    (Transfer.begin ctl.mem ctl.trace msg rest).run irqs' =
      (Transfer.begin ctl.mem ctl.trace msg rest).run irqs := by
  obtain ⟨length_eq, alike⟩ := alike
  suffices agree : ∀ k ≤ irqs.length,
      (Transfer.begin ctl.mem ctl.trace msg rest).run (irqs'.take k) =
        (Transfer.begin ctl.mem ctl.trace msg rest).run (irqs.take k) by
    have whole := agree irqs.length (Nat.le_refl _)
    rwa [List.take_length, List.take_of_length_le (Nat.le_of_eq length_eq)] at whole
  intro k
  induction k with
  | zero => intro; rfl
  | succ k ih =>
      intro bound
      have bound' : k < irqs'.length := by omega
      rw [List.take_succ_eq_append_getElem bound, List.take_succ_eq_append_getElem bound',
        Transfer.run_append, Transfer.run_append, ih (by omega), Transfer.run_cons,
        Transfer.run_cons, Transfer.run_nil, Transfer.run_nil]
      obtain ⟨before, ran, refines⟩ := xferRun_refines ctl msg rest (irqs.take k)
      obtain ⟨iicds, lastBit⟩ := alike k irqs[k] irqs'[k] before
        (List.getElem?_eq_getElem bound) (List.getElem?_eq_getElem bound') ran
      apply Transfer.step_congr
      intro slot slots remaining
      refine ⟨iicds, ?_⟩
      have phase_eq := refines.state_eq remaining
      unfold Slot.nacked
      by_cases reading : slot.phase = .read
      · simp [reading, XferState.awaitsAck]
      · rw [lastBit (by rwa [phase_eq])]

/-- The NACK path: for every array of messages and every sequence of interrupts, a
stopped transfer has failed exactly when an interrupt of it reported a missing
acknowledge in `STATE_START` or `STATE_WRITE`; the first such interrupt abandons the
transfer, and the last bit has no effect in `STATE_READ`. -/
theorem xferRun_nack (ctl : Ctl) {msgs : List I2cMsg} (nonempty : msgs ≠ [])
    (irqs : List Irq) :
    (∃ final, xferRun ctl msgs irqs = .ok final ∧
      (final.data.state = .stop →
        (final.data.err = -ENODEV ↔ ∃ k, NackAt ctl msgs irqs k))) ∧
    (∀ k, NackAt ctl msgs irqs k → ∃ before after final,
      xferRun ctl msgs (irqs.take k) = .ok before ∧
        xferRun ctl msgs (irqs.take (k + 1)) = .ok after ∧
        xferRun ctl msgs irqs = .ok final ∧
        Abandoned ctl msgs irqs k before after final) ∧
    (∀ irqs', AlikeButReads ctl msgs irqs irqs' → ∃ final final',
      xferRun ctl msgs irqs = .ok final ∧ xferRun ctl msgs irqs' = .ok final' ∧
        (final'.data.state = .stop ↔ final.data.state = .stop) ∧
        final'.data.err = final.data.err ∧ final'.trace = final.trace ∧
        final'.mem = final.mem) := by
  obtain ⟨msg, rest, rfl⟩ := List.exists_cons_of_ne_nil nonempty
  obtain ⟨final, ran, refines⟩ := xferRun_refines ctl msg rest irqs
  refine ⟨⟨final, ran, ?_⟩, fun k nack => abandoned_of_nackAt nack, ?_⟩
  · intro stopped
    constructor
    · intro failed
      by_contra none_missing
      have acked : Acked (script (msg :: rest)) irqs :=
        acked_iff_forall_not_nackAt.mpr fun k nack => none_missing ⟨k, nack⟩
      have result := refines.state_eq_stop_iff.mp stopped
      have err := refines.err_eq
      rw [begin_run_acked ctl msg rest acked] at result err
      split at result
      next complete => simp [complete, failed, ENODEV] at err
      next => exact result rfl
    · rintro ⟨k, nack⟩
      obtain ⟨before, after, final', -, -, ran', abandoned⟩ := abandoned_of_nackAt nack
      obtain rfl : final = final' := Except.ok.inj (ran.symm.trans ran')
      exact abandoned.quiet.2.1
  · intro irqs' alike
    obtain ⟨final', ran', refines'⟩ := xferRun_refines ctl msg rest irqs'
    rw [run_eq_of_alikeButReads alike] at refines'
    refine ⟨final, final', ran, ran', ?_, ?_, ?_, ?_⟩
    · rw [refines.state_eq_stop_iff, refines'.state_eq_stop_iff]
    · rw [refines.err_eq, refines'.err_eq]
    · rw [refines.trace, refines'.trace]
    · rw [refines.mem, refines'.mem]

theorem randomRead_nack :
    NackAt (i2cBusS3c2440Init fun _ => 0x12) randomRead [⟨0, 0⟩, ⟨1, 0⟩] 1 ∧
      ∃ final, xferRun (i2cBusS3c2440Init fun _ => 0x12) randomRead [⟨0, 0⟩, ⟨1, 0⟩] =
          .ok final ∧
        (final.data.state = .stop →
          (final.data.err = -ENODEV ↔ ∃ k,
            NackAt (i2cBusS3c2440Init fun _ => 0x12) randomRead [⟨0, 0⟩, ⟨1, 0⟩] k)) :=
  ⟨nackAt_iff.mpr ⟨⟨1, 0⟩, _, rfl, by decide, rfl, by decide⟩,
    (xferRun_nack (i2cBusS3c2440Init fun _ => 0x12) (by decide : randomRead ≠ [])
      [⟨0, 0⟩, ⟨1, 0⟩]).1⟩

/-! ## Index safety -/

/-- For every array of messages and every sequence of interrupts no access faults:
`msgs` is the original array plus `cur_msgs`, which stays below `num`, and every byte
loaded or stored lies inside its message. -/
theorem xferRun_index_safe (ctl : Ctl) {msgs : List I2cMsg} (nonempty : msgs ≠ [])
    (irqs : List Irq) :
    ∃ final, xferRun ctl msgs irqs = .ok final ∧
      final.data.array = msgs ∧ final.data.msgs = final.data.curMsgs ∧
      final.data.curMsgs < msgs.length ∧
      ∃ new, final.accesses = ctl.accesses ++ new ∧
        ∀ access ∈ new, InRange msgs access := by
  obtain ⟨msg, rest, rfl⟩ := List.exists_cons_of_ne_nil nonempty
  obtain ⟨final, ran, refines⟩ := xferRun_refines ctl msg rest irqs
  obtain ⟨array, msgs_eq, bound⟩ := refines.cursor
  exact ⟨final, ran, array, msgs_eq, bound, refines.accesses⟩

theorem randomRead_index_safe :
    ∃ final, xferRun (i2cBusS3c2440Init fun _ => 0x12) randomRead randomReadIrqs =
        .ok final ∧
      final.data.array = randomRead ∧ final.data.msgs = final.data.curMsgs ∧
      final.data.curMsgs < randomRead.length ∧
      ∃ new, final.accesses = [] ++ new ∧ ∀ access ∈ new, InRange randomRead access :=
  xferRun_index_safe (i2cBusS3c2440Init fun _ => 0x12) (by decide) randomReadIrqs

end Mini2440.I2c
