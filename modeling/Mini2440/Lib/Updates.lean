import Mini2440.Lib.Bits
import Mini2440.Lib.History
import Mini2440.Lib.Transition

/-!
# Updates of registers in two halves

Processes change bits of common registers with `*r &= ~mask` and `*r |= mask`.  Each of these
reads the register, computes, and writes it, and another process may run in between, so that
a write may be told by an old value.  A bit comes out as if each update were one step when no
update changes it, when every update sets it, and when every program clears it before it
copies it.
-/

namespace Mini2440.Updates

open Bits History Transition

/-- The bits to be cleared, and those to be set after that. -/
structure Update where
  clear : UInt32
  set : UInt32
  deriving DecidableEq, Repr

namespace Update

/-- The value after the update. -/
def apply (update : Update) (value : UInt32) : UInt32 :=
  (value &&& ~~~update.clear) ||| update.set

/-- What the update makes of a bit, nothing for a bit that it copies. -/
def sets (update : Update) (index : Nat) : Option Bool :=
  if bit update.set index then some true
  else if bit update.clear index then some false
  else none

theorem bit_apply (update : Update) (value : UInt32) (index : Nat) :
    bit (update.apply value) index = (update.sets index).getD (bit value index) := by
  rw [apply, sets, bit_or, bit_clear]
  cases bit update.set index <;> cases bit update.clear index <;> simp

end Update

/-! ## The machine -/

variable {Pid Register Command : Type*}

/-- The updates that a program has still to make, and the value that it has read for the
first of them. -/
structure Process (Register : Type*) where
  rest : List (Register × Update)
  loaded : Option UInt32

/-- The registers, the processes, and what has been written so far. -/
structure Machine (Pid Register : Type*) where
  registers : Register → UInt32
  process : Pid → Process Register
  stored : List (Pid × Register × Update)

/-- A process starts a program, or makes one half of its next update. -/
inductive Event (Pid Command : Type*) where
  | start (pid : Pid) (command : Command)
  | load (pid : Pid)
  | store (pid : Pid)

namespace Machine

/-- No process has anything to do. -/
def initial (registers : Register → UInt32) : Machine Pid Register :=
  ⟨registers, fun _ => ⟨[], none⟩, []⟩

variable [DecidableEq Pid] [DecidableEq Register]

/-- The processes in any order, one half of an update at a time. -/
def step (program : Command → List (Register × Update)) :
    Step (Machine Pid Register) (Event Pid Command)
  | machine, .start pid command =>
      match machine.process pid with
      | ⟨[], _⟩ => some { machine with
          process := Function.update machine.process pid ⟨program command, none⟩ }
      | ⟨_ :: _, _⟩ => none
  | machine, .load pid =>
      match machine.process pid with
      | ⟨(register, update) :: rest, none⟩ => some { machine with
          process := Function.update machine.process pid
            ⟨(register, update) :: rest, some (machine.registers register)⟩ }
      | ⟨_ :: _, some _⟩ | ⟨[], _⟩ => none
  | machine, .store pid =>
      match machine.process pid with
      | ⟨(register, update) :: rest, some value⟩ => some {
          registers := Function.update machine.registers register (update.apply value)
          process := Function.update machine.process pid ⟨rest, none⟩
          stored := machine.stored ++ [(pid, register, update)] }
      | ⟨_ :: _, none⟩ | ⟨[], _⟩ => none

/-- What an event does. -/
inductive Effect (program : Command → List (Register × Update))
    (before after : Machine Pid Register) : Prop
  | started (pid : Pid) (command : Command) (idle : (before.process pid).rest = [])
      (process : after.process = Function.update before.process pid ⟨program command, none⟩)
      (registers : after.registers = before.registers) (stored : after.stored = before.stored)
  | loaded (pid : Pid) (register : Register) (update : Update)
      (rest : List (Register × Update))
      (ahead : (before.process pid).rest = (register, update) :: rest)
      (process : after.process = Function.update before.process pid
        ⟨(register, update) :: rest, some (before.registers register)⟩)
      (registers : after.registers = before.registers) (stored : after.stored = before.stored)
  | written (pid : Pid) (register : Register) (update : Update)
      (rest : List (Register × Update)) (value : UInt32)
      (ahead : before.process pid = ⟨(register, update) :: rest, some value⟩)
      (process : after.process = Function.update before.process pid ⟨rest, none⟩)
      (registers : after.registers =
        Function.update before.registers register (update.apply value))
      (stored : after.stored = before.stored ++ [(pid, register, update)])

variable {program : Command → List (Register × Update)} {machine next : Machine Pid Register}

theorem effect_of_step {event : Event Pid Command}
    (taken : step program machine event = some next) : Effect program machine next := by
  cases event with
  | start pid command =>
      simp only [step] at taken
      split at taken
      next loaded process =>
          obtain rfl := Option.some.inj taken
          exact .started pid command (by rw [process]) rfl rfl rfl
      next => contradiction
  | load pid =>
      simp only [step] at taken
      split at taken
      next register update rest process =>
          obtain rfl := Option.some.inj taken
          exact .loaded pid register update rest (by rw [process]) rfl rfl rfl
      next => contradiction
      next => contradiction
  | store pid =>
      simp only [step] at taken
      split at taken
      next register update rest value process =>
          obtain rfl := Option.some.inj taken
          exact .written pid register update rest value process rfl rfl rfl
      next => contradiction
      next => contradiction

/-- A value that a process has read is the one of the register, unless it read it before. -/
theorem Effect.loaded_cases (effect : Effect program machine next) {pid : Pid}
    {register : Register} {update : Update} {rest : List (Register × Update)} {value : UInt32}
    (process : next.process pid = ⟨(register, update) :: rest, some value⟩) :
    machine.process pid = ⟨(register, update) :: rest, some value⟩ ∨
      value = machine.registers register ∧
        (machine.process pid).rest = (register, update) :: rest ∧
        next.registers = machine.registers ∧ next.stored = machine.stored := by
  cases effect with
  | started other command idle moved registers stored =>
      rw [moved, Function.update_apply] at process
      split at process
      · simp at process
      · exact .inl process
  | loaded other register' update' rest' ahead moved registers stored =>
      rw [moved, Function.update_apply] at process
      split at process
      next same =>
          simp only [Process.mk.injEq, List.cons.injEq, Prod.mk.injEq,
            Option.some.injEq] at process
          obtain ⟨⟨⟨rfl, rfl⟩, rfl⟩, rfl⟩ := process
          exact .inr ⟨rfl, same ▸ ahead, registers, stored⟩
      next => exact .inl process
  | written other register' update' rest' value' ahead moved registers stored =>
      rw [moved, Function.update_apply] at process
      split at process
      · simp at process
      · exact .inl process

/-! ## Every update that is waiting -/

/-- The updates that the processes have still to make are of some kind. -/
def Waiting (kind : Register × Update → Prop) (machine : Machine Pid Register) : Prop :=
  ∀ pid, ∀ entry ∈ (machine.process pid).rest, kind entry

theorem Waiting.step {kind : Register × Update → Prop}
    (programs : ∀ command, ∀ entry ∈ program command, kind entry)
    (waiting : machine.Waiting kind) (effect : Effect program machine next) :
    next.Waiting kind := by
  intro other entry member
  cases effect with
  | started pid command idle process registers stored =>
      rw [process, Function.update_apply] at member
      split at member
      · exact programs command entry member
      · exact waiting other entry member
  | loaded pid register update rest ahead process registers stored =>
      rw [process, Function.update_apply] at member
      split at member
      · exact waiting pid entry (ahead ▸ member)
      · exact waiting other entry member
  | written pid register update rest value ahead process registers stored =>
      rw [process, Function.update_apply] at member
      split at member
      · refine waiting pid entry ?_
        rw [ahead]
        exact List.mem_cons_of_mem _ member
      · exact waiting other entry member

/-- The updates that have been written are of some kind. -/
def Recorded (kind : Register × Update → Prop) (machine : Machine Pid Register) : Prop :=
  ∀ entry ∈ machine.stored, kind entry.2

theorem Recorded.step {kind : Register × Update → Prop} (recorded : machine.Recorded kind)
    (waiting : machine.Waiting kind) (effect : Effect program machine next) :
    next.Recorded kind := by
  cases effect with
  | started pid command idle process registers stored => simpa only [Recorded, stored]
  | loaded pid register update rest ahead process registers stored =>
      simpa only [Recorded, stored]
  | written pid register update rest value ahead process registers stored =>
      rw [Recorded, stored]
      refine List.forall_mem_append.mpr ⟨recorded, List.forall_mem_singleton.mpr ?_⟩
      refine waiting pid (register, update) ?_
      rw [ahead]
      exact List.mem_cons_self

theorem recorded_of_programs {kind : Register × Update → Prop}
    (programs : ∀ command, ∀ entry ∈ program command, kind entry) :
    (step program : Step (Machine Pid Register) (Event Pid Command)).Preserves (fun _ _ => True)
      fun machine => machine.Waiting kind ∧ machine.Recorded kind := by
  rintro machine event next ⟨waiting, recorded⟩ - taken
  have effect := effect_of_step taken
  exact ⟨waiting.step programs effect, recorded.step waiting effect⟩

/-- What the last write to a register made of a bit that it did not copy. -/
def lastSet (register : Register) (index : Nat) (stored : List (Pid × Register × Update)) :
    Option Bool :=
  last (fun entry => if entry.2.1 = register then entry.2.2.sets index else none) stored

/-- The bit is what the last write to set it made of it. -/
def AsLastSet (start : Register → UInt32) (register : Register) (index : Nat)
    (machine : Machine Pid Register) : Prop :=
  bit (machine.registers register) index =
    (lastSet register index machine.stored).getD (bit (start register) index)

section

variable {start : Register → UInt32} {register : Register} {index : Nat}

omit [DecidableEq Pid] in
theorem lastSet_concat (stored : List (Pid × Register × Update)) (pid : Pid) (other : Register)
    (update : Update) :
    lastSet register index (stored ++ [(pid, other, update)]) =
      (if other = register then update.sets index else none).or
        (lastSet register index stored) :=
  last_concat _ _ _

omit [DecidableEq Pid] in
theorem initial_asLastSet : AsLastSet start register index (initial start : Machine Pid Register) :=
  rfl

/-- A write keeps the law when the value that it was told by had the bit as the register has
it, or does not matter. -/
theorem AsLastSet.step (law : AsLastSet start register index machine)
    (effect : Effect program machine next)
    (fresh : ∀ pid update rest value,
      machine.process pid = ⟨(register, update) :: rest, some value⟩ →
        update.sets index = none → bit value index = bit (machine.registers register) index) :
    AsLastSet start register index next := by
  unfold AsLastSet at law ⊢
  cases effect with
  | started pid command idle process registers stored => rwa [registers, stored]
  | loaded pid other update rest ahead process registers stored => rwa [registers, stored]
  | written pid other update rest value ahead process registers stored =>
      rw [registers, stored, lastSet_concat]
      by_cases same : other = register
      · subst same
        rw [Function.update_self, Update.bit_apply, if_pos rfl]
        cases sets : update.sets index with
        | none =>
            rw [Option.none_or, Option.getD_none, fresh pid update rest value ahead sets]
            exact law
        | some value' => rfl
      · rw [Function.update_of_ne (Ne.symm same), if_neg same, Option.none_or]
        exact law

/-- Every update of the register sets the bit. -/
theorem asLastSet_of_sets (programs : ∀ command, ∀ entry ∈ program command,
      entry.1 = register → (entry.2.sets index).isSome = true) :
    (step program : Step (Machine Pid Register) (Event Pid Command)).Preserves (fun _ _ => True)
      fun machine => machine.AsLastSet start register index ∧
        machine.Waiting fun entry => entry.1 = register → (entry.2.sets index).isSome = true := by
  rintro machine event next ⟨law, waiting⟩ - taken
  have effect := effect_of_step taken
  refine ⟨law.step effect ?_, waiting.step programs effect⟩
  intro pid update rest value process copied
  have set := waiting pid (register, update) (by rw [process]; exact List.mem_cons_self) rfl
  rw [copied] at set
  contradiction

/-- No update of the register changes the bit. -/
structure Copied (start : Register → UInt32) (register : Register) (index : Nat)
    (machine : Machine Pid Register) : Prop where
  waiting : machine.Waiting fun entry => entry.1 = register → entry.2.sets index = none
  kept : bit (machine.registers register) index = bit (start register) index
  loaded : ∀ pid update rest value,
    machine.process pid = ⟨(register, update) :: rest, some value⟩ →
      bit value index = bit (start register) index

theorem copied_of_copies (programs : ∀ command, ∀ entry ∈ program command,
      entry.1 = register → entry.2.sets index = none) :
    (step program : Step (Machine Pid Register) (Event Pid Command)).Preserves (fun _ _ => True)
      (Copied start register index) := by
  rintro machine event next copied - taken
  have effect := effect_of_step taken
  refine ⟨copied.waiting.step programs effect, ?_, ?_⟩
  · cases effect with
    | started pid command idle process registers stored => exact registers ▸ copied.kept
    | loaded pid other update rest ahead process registers stored => exact registers ▸ copied.kept
    | written pid other update rest value ahead process registers stored =>
        rw [registers, Function.update_apply]
        split
        next same =>
            subst same
            have copies := copied.waiting pid (register, update)
              (by rw [ahead]; exact List.mem_cons_self) rfl
            rw [Update.bit_apply, copies]
            exact copied.loaded pid update rest value ahead
        next => exact copied.kept
  · intro pid update rest value process
    rcases effect.loaded_cases process with before | ⟨rfl, -⟩
    · exact copied.loaded pid update rest value before
    · exact copied.kept

omit [DecidableEq Pid] [DecidableEq Register] in
theorem initial_copied :
    (initial start : Machine Pid Register).Copied start register index := by
  refine ⟨?_, rfl, ?_⟩
  · intro pid entry member
    simp [initial] at member
  · intro pid update rest value process
    simp [initial] at process

/-- The first update of the register that a process has still to make. -/
def firstOn (register : Register) (rest : List (Register × Update)) : Option Update :=
  (rest.find? (·.1 = register)).map (·.2)

/-- Updates set the bit to `found` or copy it, and whoever copies it has set it before. -/
structure Settled (start : Register → UInt32) (register : Register) (index : Nat) (found : Bool)
    (machine : Machine Pid Register) : Prop where
  law : machine.AsLastSet start register index
  waiting : machine.Waiting fun entry =>
    entry.1 = register → ∀ value, entry.2.sets index = some value → value = found
  preceded : ∀ pid update, firstOn register (machine.process pid).rest = some update →
    update.sets index = none → lastSet register index machine.stored = some found
  fresh : ∀ pid update rest value,
    machine.process pid = ⟨(register, update) :: rest, some value⟩ →
      update.sets index = none → bit value index = found

omit [DecidableEq Pid] in
theorem firstOn_cons_self (update : Update) (rest : List (Register × Update)) :
    firstOn register ((register, update) :: rest) = some update := by
  simp [firstOn]

omit [DecidableEq Pid] in
theorem firstOn_cons_of_ne {other : Register} (different : other ≠ register) (update : Update)
    (rest : List (Register × Update)) :
    firstOn register ((other, update) :: rest) = firstOn register rest := by
  simp [firstOn, different]

omit [DecidableEq Pid] in
/-- Where a process is about to copy the bit, it has been set. -/
theorem Settled.current {found : Bool} (settled : machine.Settled start register index found)
    {pid : Pid} {update : Update} {rest : List (Register × Update)}
    (ahead : (machine.process pid).rest = (register, update) :: rest)
    (copies : update.sets index = none) : bit (machine.registers register) index = found := by
  have set := settled.preceded pid update (ahead ▸ firstOn_cons_self update rest) copies
  rw [settled.law, set]
  rfl

omit [DecidableEq Pid] in
theorem Settled.lastSet_concat {found : Bool}
    (settled : machine.Settled start register index found) {pid : Pid} {other : Register}
    {update : Update} (ahead : (other, update) ∈ (machine.process pid).rest)
    (set : lastSet register index machine.stored = some found ∨
      other = register ∧ update.sets index ≠ none) :
    lastSet register index (machine.stored ++ [(pid, other, update)]) = some found := by
  rw [Machine.lastSet_concat]
  by_cases same : other = register
  · rw [if_pos same]
    cases sets : update.sets index with
    | none =>
        rw [Option.none_or]
        exact set.resolve_right fun both => both.2 sets
    | some value => rw [Option.some_or, settled.waiting pid _ ahead same value sets]
  · rw [if_neg same, Option.none_or]
    exact set.resolve_right fun both => same both.1

theorem settled_of_clears {found : Bool}
    (programs : ∀ command, ∀ entry ∈ program command, entry.1 = register →
      ∀ value, entry.2.sets index = some value → value = found)
    (first : ∀ command update, firstOn register (program command) = some update →
      update.sets index ≠ none) :
    (step program : Step (Machine Pid Register) (Event Pid Command)).Preserves (fun _ _ => True)
      (Settled start register index found) := by
  rintro machine event next settled - taken
  have effect := effect_of_step taken
  refine ⟨settled.law.step effect ?_, settled.waiting.step programs effect, ?_, ?_⟩
  · intro pid update rest value process copies
    rw [settled.fresh pid update rest value process copies]
    exact (settled.current (by rw [process]) copies).symm
  · intro pid update ahead copies
    cases effect with
    | started other command idle process registers stored =>
        rw [process, Function.update_apply] at ahead
        rw [stored]
        split at ahead
        · exact absurd copies (first command update ahead)
        · exact settled.preceded pid update ahead copies
    | loaded other register' update' rest before process registers stored =>
        rw [process, Function.update_apply] at ahead
        rw [stored]
        split at ahead
        next same =>
            subst same
            exact settled.preceded pid update (before ▸ ahead) copies
        next => exact settled.preceded pid update ahead copies
    | written other register' update' rest value before process registers stored =>
        rw [process, Function.update_apply] at ahead
        rw [stored]
        have member : (register', update') ∈ (machine.process other).rest := by
          rw [before]
          exact List.mem_cons_self
        apply settled.lastSet_concat member
        split at ahead
        next same =>
            -- What this process makes next is behind what it has just written.
            subst same
            by_cases on : register' = register
            · by_cases copied : update'.sets index = none
              · left
                refine settled.preceded pid update' ?_ copied
                rw [before, on]
                exact firstOn_cons_self update' rest
              · exact .inr ⟨on, copied⟩
            · left
              refine settled.preceded pid update ?_ copies
              rw [before]
              exact (firstOn_cons_of_ne on update' rest).trans ahead
        next => exact .inl (settled.preceded pid update ahead copies)
  · intro pid update rest value process copies
    rcases effect.loaded_cases process with before | ⟨rfl, ahead, -⟩
    · exact settled.fresh pid update rest value before copies
    · exact settled.current ahead copies

omit [DecidableEq Pid] in
theorem initial_settled (found : Bool) :
    (initial start : Machine Pid Register).Settled start register index found := by
  refine ⟨rfl, ?_, ?_, ?_⟩
  · intro pid entry member
    simp [initial] at member
  · intro pid update ahead
    simp [initial, firstOn] at ahead
  · intro pid update rest value process
    simp [initial] at process

/-! ## Between the programs -/

/-- The process has no write to the register before it. -/
def Through (register : Register) (machine : Machine Pid Register) (pid : Pid) : Prop :=
  firstOn register (machine.process pid).rest = none

/-- Behind each update of the register that does not set the bit to `found` comes another. -/
def Followed (register : Register) (index : Nat) (found : Bool)
    (rest : List (Register × Update)) : Prop :=
  ∀ front update tail, rest = front ++ (register, update) :: tail →
    update.sets index = some found ∨ firstOn register tail ≠ none

/-- The bit has been set to `found` last, unless a process is about to set it. -/
structure Resting (register : Register) (index : Nat) (found : Bool)
    (machine : Machine Pid Register) : Prop where
  followed : ∀ pid, Followed register index found (machine.process pid).rest
  last : lastSet register index machine.stored = none ∨
    lastSet register index machine.stored = some found ∨ ∃ pid, ¬ machine.Through register pid

theorem resting_of_followed {found : Bool}
    (programs : ∀ command, Followed register index found (program command)) :
    (step program : Step (Machine Pid Register) (Event Pid Command)).Preserves (fun _ _ => True)
      (Resting register index found) := by
  rintro machine event next resting - taken
  cases effect_of_step taken with
  | started pid command idle process registers stored =>
      constructor
      case followed =>
        intro other
        rw [process, Function.update_apply]
        split
        · exact programs command
        · exact resting.followed other
      case last =>
        rw [stored]
        refine resting.last.imp id (Or.imp id ?_)
        rintro ⟨other, before⟩
        refine ⟨other, ?_⟩
        have different : other ≠ pid := by
          rintro rfl
          exact before (by rw [Through, idle]; rfl)
        rwa [Through, process, Function.update_of_ne different]
  | loaded pid other update rest ahead process registers stored =>
      have same (other : Pid) : (next.process other).rest = (machine.process other).rest := by
        rw [process, Function.update_apply]
        split
        next same => rw [same, ahead]
        next => rfl
      constructor
      case followed =>
        intro other
        rw [same]
        exact resting.followed other
      case last => simpa only [stored, Through, same] using resting.last
  | written pid other update rest value ahead process registers stored =>
      have whole := resting.followed pid
      rw [ahead] at whole
      constructor
      case followed =>
        intro other'
        rw [process, Function.update_apply]
        split
        · intro front update' tail rest_eq
          exact whole ((other, update) :: front) update' tail
            (congrArg ((other, update) :: ·) rest_eq)
        · exact resting.followed other'
      case last =>
        rw [stored, lastSet_concat]
        by_cases on : other = register
        · rw [if_pos on]
          rcases whole [] update rest (by rw [on]; rfl) with set | more
          · rw [set, Option.some_or]
            exact .inr (.inl rfl)
          · refine .inr (.inr ⟨pid, ?_⟩)
            rwa [Through, process, Function.update_self]
        · rw [if_neg on, Option.none_or]
          refine resting.last.imp id (Or.imp id ?_)
          rintro ⟨other', before⟩
          refine ⟨other', ?_⟩
          rw [Through, process, Function.update_apply]
          split
          next same =>
              rw [Through, same, ahead, firstOn_cons_of_ne on] at before
              exact before
          next => exact before

omit [DecidableEq Pid] in
theorem initial_resting (found : Bool) :
    (initial start : Machine Pid Register).Resting register index found := by
  refine ⟨?_, .inl rfl⟩
  intro pid front update tail rest_eq
  simp [initial] at rest_eq

omit [DecidableEq Pid] in
theorem lastSet_isSome {stored : List (Pid × Register × Update)} {pid : Pid} {update : Update}
    (member : (pid, register, update) ∈ stored) (sets : (update.sets index).isSome = true) :
    (lastSet register index stored).isSome = true := by
  obtain ⟨value, set⟩ := Option.isSome_iff_exists.mp sets
  rw [lastSet, last, List.getLast?_isSome]
  have found : value ∈ stored.filterMap fun entry =>
      if entry.2.1 = register then entry.2.2.sets index else none :=
    List.mem_filterMap.mpr ⟨_, member, (if_pos rfl).trans set⟩
  exact List.ne_nil_of_mem found

omit [DecidableEq Pid] in
theorem exists_of_lastSet {stored : List (Pid × Register × Update)} {value : Bool}
    (set : lastSet register index stored = some value) :
    ∃ entry ∈ stored, entry.2.1 = register ∧ entry.2.2.sets index = some value := by
  obtain ⟨entry, member, found⟩ := List.mem_filterMap.mp (List.mem_of_getLast? set)
  split at found
  next same => exact ⟨entry, member, same, found⟩
  next => contradiction

omit [DecidableEq Pid] in
/-- With every process through, the bit has been set to `found` if it has been set at all. -/
theorem Resting.set {found : Bool} (resting : machine.Resting register index found)
    (through : ∀ pid, machine.Through register pid)
    (some_set : (lastSet register index machine.stored).isSome = true) :
    lastSet register index machine.stored = some found := by
  rcases resting.last with none_set | set | ⟨pid, before⟩
  · rw [none_set] at some_set
    contradiction
  · exact set
  · exact absurd (through pid) before

end

end Machine

end Mini2440.Updates
