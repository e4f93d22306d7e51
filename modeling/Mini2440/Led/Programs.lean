import Mini2440.Led.FirstDrv
import Mini2440.Lib.Updates

/-!
# Programs that share the LEDs

Any number of `firstdrvtest` run at once, and nobody else writes port B.  The driver has no
lock, and each of its updates of GPBCON and GPBDAT reads the register and writes it with
whatever runs in between.  The LEDs come out as if the updates were single steps: they show
what the last of them asked for, all four alike, and no other pin is disturbed.
-/

namespace Mini2440.Led

open Bits History Transition Updates

/-! ## `firstdrvtest` -/

/-- The two registers of port B. -/
inductive Port where
  | gpbcon
  | gpbdat
  deriving DecidableEq, Repr

/-- `*gpbcon &= ~(...)` of `first_drv_open`. -/
def conClear : Port × Update := (.gpbcon, ⟨conFields, 0⟩)

/-- `*gpbcon |= (...)` of `first_drv_open`. -/
def conSet : Port × Update := (.gpbcon, ⟨0, conOutput⟩)

/-- The pins go low. -/
def ledOn : Update := ⟨datPins, 0⟩

/-- The pins go high. -/
def ledOff : Update := ⟨0, datPins⟩

/-- The update that `first_drv_write` makes for the value that it has copied. -/
def datUpdate (desVal : Nat) : Port × Update :=
  (.gpbdat, if 1 = desVal then ledOn else ledOff)

/-- A call of the program, and whether `/dev/zfw` can be opened. -/
structure Invocation where
  opens : Bool
  argv : List String
  deriving DecidableEq, Repr

/-- `val` when it is written, nothing when the program returns before. -/
def Invocation.val (invocation : Invocation) : Option Nat :=
  if invocation.argv.length ≠ 2 then none
  else if invocation.argv.getD 1 "" = "on" then some 1
  else some 0

/-- What `main` prints. -/
def Invocation.printed (invocation : Invocation) : List String :=
  (if invocation.opens then [] else ["can't open!\n"]) ++
    if invocation.argv.length ≠ 2 then
      ["Usage :\n", invocation.argv.getD 0 "" ++ " <on|off>\n"]
    else []

/-- The updates that `main` leads to; without the device its write fails. -/
def Invocation.updates (invocation : Invocation) : List (Port × Update) :=
  if invocation.opens then
    [conClear, conSet] ++ (invocation.val.map datUpdate).toList
  else []

/-! ## One program alone -/

/-- The bytes of `val`. -/
def intBytes (val : Nat) : List UInt8 := [val.toUInt8, 0, 0, 0]

/-- The calls of the driver that the program makes. -/
def Invocation.calls (invocation : Invocation) (stack : Nat → UInt8) : List Call :=
  if invocation.opens then
    [.opened] ++ (invocation.val.map fun val => .write sizeofInt (intBytes val) stack).toList
  else []

/-- The registers of the driver, by name. -/
def FirstDrv.ports (drv : FirstDrv) : Port → UInt32
  | .gpbcon => drv.gpbcon
  | .gpbdat => drv.gpbdat

/-- The registers after updates that nothing interrupts. -/
def runAlone (registers : Port → UInt32) (updates : List (Port × Update)) : Port → UInt32 :=
  updates.foldl (fun registers entry =>
    Function.update registers entry.1 (entry.2.apply (registers entry.1))) registers

theorem apply_clear (mask value : UInt32) :
    (⟨mask, 0⟩ : Update).apply value = value &&& ~~~mask := UInt32.or_zero

theorem apply_set (mask value : UInt32) :
    (⟨0, mask⟩ : Update).apply value = value ||| mask := by
  rw [Update.apply, UInt32.not_zero, UInt32.and_neg_one]

theorem Invocation.val_lt (invocation : Invocation) {val : Nat}
    (written : invocation.val = some val) : val < 2 := by
  unfold Invocation.val at written
  split at written
  · contradiction
  · split at written <;> cases written <;> decide

theorem datUpdate_apply {val : Nat} (small : val < 2) (stack : Nat → UInt8) (gpbdat : UInt32) :
    (datUpdate val).2.apply gpbdat = writtenDat sizeofInt (intBytes val) stack gpbdat := by
  have lights : Lights sizeofInt (intBytes val) stack ↔ 1 = val := by
    rw [lights_iff_of_whole stack (Nat.le_refl sizeofInt) (Nat.le_refl sizeofInt) (.inl rfl)]
    match val, small with
    | 0, _ => decide
    | 1, _ => decide
  unfold writtenDat datUpdate
  by_cases on : 1 = val
  · rw [if_pos on, if_pos (lights.mpr on)]
    exact apply_clear datPins gpbdat
  · rw [if_neg on, if_neg (mt lights.mp on)]
    exact apply_set datPins gpbdat

/-- A program that runs alone has the effect of its calls. -/
theorem runAlone_updates (invocation : Invocation) (stack : Nat → UInt8) (drv : FirstDrv) :
    runAlone drv.ports invocation.updates =
      ((invocation.calls stack).foldl Call.apply drv).ports := by
  unfold Invocation.updates Invocation.calls
  split
  next opens =>
      have opened : runAlone drv.ports [conClear, conSet] = (firstDrvOpen drv).ports := by
        funext port
        cases port with
        | gpbcon =>
            exact (apply_set conOutput _).trans (congrArg (· ||| conOutput) (apply_clear _ _))
        | gpbdat => rfl
      cases written : invocation.val with
      | none => exact opened
      | some val =>
          have small := invocation.val_lt written
          have wrote : (firstDrvWrite sizeofInt (intBytes val) stack (firstDrvOpen drv)).2.gpbdat =
              (datUpdate val).2.apply (firstDrvOpen drv).gpbdat := by
            rw [datUpdate_apply small stack]
            exact firstDrvWrite_gpbdat (Nat.le_refl sizeofInt) stack _
          have con : (firstDrvWrite sizeofInt (intBytes val) stack (firstDrvOpen drv)).2.gpbcon =
              (firstDrvOpen drv).gpbcon := by
            rw [firstDrvWrite_of_copied (Nat.le_refl sizeofInt)]
          unfold runAlone at opened ⊢
          rw [List.foldl_append, opened]
          funext port
          cases port with
          | gpbcon => exact con.symm
          | gpbdat => exact wrote.symm
  next => rfl

/-! ## The updates of the program -/

/-- The updates that `main` can lead to. -/
inductive Known : Port × Update → Prop
  | clear : Known conClear
  | set : Known conSet
  | on : Known (.gpbdat, ledOn)
  | off : Known (.gpbdat, ledOff)

theorem known_of_updates (invocation : Invocation) :
    ∀ entry ∈ invocation.updates, Known entry := by
  intro entry member
  unfold Invocation.updates at member
  split at member
  next =>
      simp only [List.cons_append, List.nil_append, List.mem_cons, Option.mem_toList,
        Option.map_eq_some_iff] at member
      rcases member with rfl | rfl | ⟨val, -, rfl⟩
      · exact .clear
      · exact .set
      · unfold datUpdate
        split
        · exact .on
        · exact .off
  next => simp at member

theorem bit_conOutput {pin : Nat} (above : 5 ≤ pin) (below : pin < 9) :
    bit conOutput (2 * pin) = true ∧ bit conOutput (2 * pin + 1) = false := by
  have pins : pin = 5 ∨ pin = 6 ∨ pin = 7 ∨ pin = 8 := by omega
  rcases pins with rfl | rfl | rfl | rfl <;> decide

theorem bit_conOutput_outside {index : Nat} (outside : index < 10 ∨ 18 ≤ index) :
    bit conOutput index = false := by
  have within : conOutput = conOutput &&& conFields := by decide
  have fields : bit conFields index = false := by
    rw [bit_conFields]
    exact decide_eq_false (by omega)
  rw [within, bit_and, fields, Bool.and_false]

section

variable {index pin : Nat} {entry : Port × Update}

theorem con_outside (known : Known entry) (outside : index < 10 ∨ 18 ≤ index)
    (port : entry.1 = .gpbcon) : entry.2.sets index = none := by
  have fields : bit conFields index = false := by
    rw [bit_conFields]
    exact decide_eq_false (by omega)
  cases known with
  | clear => simp [conClear, Update.sets, fields]
  | set => simp [conSet, Update.sets, bit_conOutput_outside outside]
  | on => contradiction
  | off => contradiction

theorem dat_outside (known : Known entry) (outside : index < 5 ∨ 9 ≤ index)
    (port : entry.1 = .gpbdat) : entry.2.sets index = none := by
  have pins : bit datPins index = false := by
    rw [bit_datPins]
    exact decide_eq_false (by omega)
  cases known with
  | clear => contradiction
  | set => contradiction
  | on => simp [ledOn, Update.sets, pins]
  | off => simp [ledOff, Update.sets, pins]

theorem con_low (known : Known entry) (above : 5 ≤ pin) (below : pin < 9)
    (port : entry.1 = .gpbcon) : (entry.2.sets (2 * pin)).isSome = true := by
  have fields : bit conFields (2 * pin) = true := by
    rw [bit_conFields]
    exact decide_eq_true (by omega)
  cases known with
  | clear => simp [conClear, Update.sets, fields]
  | set => simp [conSet, Update.sets, (bit_conOutput above below).1]
  | on => contradiction
  | off => contradiction

theorem con_high (known : Known entry) (above : 5 ≤ pin) (below : pin < 9)
    (port : entry.1 = .gpbcon) {value : Bool}
    (sets : entry.2.sets (2 * pin + 1) = some value) : value = false := by
  cases known with
  | clear =>
      have fields : bit conFields (2 * pin + 1) = true := by
        rw [bit_conFields]
        exact decide_eq_true (by omega)
      simp only [conClear, Update.sets, bit_zero, fields] at sets
      exact (Option.some.inj sets).symm
  | set => simp [conSet, Update.sets, (bit_conOutput above below).2] at sets
  | on => contradiction
  | off => contradiction

/-- A pin is low for an LED that is lit. -/
theorem dat_pin (known : Known entry) (above : 5 ≤ pin) (below : pin < 9)
    (port : entry.1 = .gpbdat) : entry.2.sets pin = some (!decide (entry.2 = ledOn)) := by
  have pins : bit datPins pin = true := by
    rw [bit_datPins]
    exact decide_eq_true ⟨above, below⟩
  cases known with
  | clear => contradiction
  | set => contradiction
  | on => simp [ledOn, Update.sets, pins]
  | off =>
      have high : ledOff.sets pin = some true := by simp [ledOff, Update.sets, pins]
      have different : ledOff ≠ ledOn := by decide
      rw [high, decide_eq_false different]
      rfl

end

/-- The program clears the fields before it sets them. -/
theorem clear_first (invocation : Invocation) {pin : Nat} (above : 5 ≤ pin) (below : pin < 9)
    (update : Update)
    (first : Machine.firstOn Port.gpbcon invocation.updates = some update) :
    update.sets (2 * pin + 1) ≠ none := by
  have fields : bit conFields (2 * pin + 1) = true := by
    rw [bit_conFields]
    exact decide_eq_true (by omega)
  unfold Invocation.updates at first
  split at first
  next =>
      obtain rfl : (⟨conFields, 0⟩ : Update) = update := Option.some.inj first
      simp [Update.sets, fields]
  next => contradiction

/-- Behind each clearing of the fields comes their setting. -/
theorem clear_followed (invocation : Invocation) {pin : Nat} (above : 5 ≤ pin)
    (below : pin < 9) :
    Machine.Followed Port.gpbcon (2 * pin) true invocation.updates := by
  intro front update tail split_eq
  unfold Invocation.updates at split_eq
  split at split_eq
  next =>
      match front with
      | [] =>
          obtain ⟨-, tail_eq⟩ := List.cons.inj split_eq
          right
          rw [← tail_eq]
          simp [conSet, Machine.firstOn]
      | [_] =>
          obtain ⟨set, -⟩ := List.cons.inj (List.cons.inj split_eq).2
          obtain rfl : conSet.2 = update := congrArg Prod.snd set
          left
          simp [conSet, Update.sets, (bit_conOutput above below).1]
      | _ :: _ :: front =>
          have rest_eq : (invocation.val.map datUpdate).toList =
              front ++ (Port.gpbcon, update) :: tail :=
            (List.cons.inj (List.cons.inj split_eq).2).2
          have written : (Port.gpbcon, update) ∈ (invocation.val.map datUpdate).toList := by
            rw [rest_eq]
            exact List.mem_append_right _ List.mem_cons_self
          simp [datUpdate] at written
  next => simp at split_eq

/-! ## Any number of programs -/

section

variable {Pid : Type*}

/-- What the last write to GPBDAT asked for. -/
def lastShown (stored : List (Pid × Port × Update)) : Option Bool :=
  last (fun entry => if entry.2.1 = .gpbdat then some (decide (entry.2.2 = ledOn)) else none)
    stored

theorem lastSet_pin {stored : List (Pid × Port × Update)}
    (known : ∀ entry ∈ stored, Known entry.2) {pin : Nat} (above : 5 ≤ pin) (below : pin < 9) :
    Machine.lastSet Port.gpbdat pin stored = (lastShown stored).map (!·) := by
  have same : stored.filterMap (fun entry =>
        if entry.2.1 = Port.gpbdat then entry.2.2.sets pin else none) =
      (stored.filterMap fun entry =>
        if entry.2.1 = Port.gpbdat then some (decide (entry.2.2 = ledOn)) else none).map (!·) := by
    rw [List.map_filterMap]
    apply List.filterMap_congr
    intro entry member
    split
    next port => exact dat_pin (known entry member) above below port
    next => rfl
  rw [Machine.lastSet, last, same, List.getLast?_map]
  rfl

/-- What holds before every step of the programs: the pins of other devices are as they were,
the four LEDs are as the last write to GPBDAT has asked, and once the device has been opened
the four pins are outputs, unless a program is in the middle of opening it. -/
structure Shared (start : Port → UInt32) (machine : Machine Pid Port) : Prop where
  con : ∀ index, index < 10 ∨ 18 ≤ index →
    bit (machine.registers .gpbcon) index = bit (start .gpbcon) index
  dat : ∀ index, index < 5 ∨ 9 ≤ index →
    bit (machine.registers .gpbdat) index = bit (start .gpbdat) index
  leds : ∀ pin, 5 ≤ pin → pin < 9 → bit (machine.registers .gpbdat) pin =
    ((lastShown machine.stored).map (!·)).getD (bit (start .gpbdat) pin)
  output : (∃ pid, (pid, conClear) ∈ machine.stored) →
    (∀ pid, machine.Through .gpbcon pid) → ∀ pin, 5 ≤ pin → pin < 9 →
      bit (machine.registers .gpbcon) (2 * pin) = true ∧
        bit (machine.registers .gpbcon) (2 * pin + 1) = false

/-- The laws of the bits of both registers. -/
structure Kept (start : Port → UInt32) (machine : Machine Pid Port) : Prop where
  known : machine.Waiting Known ∧ machine.Recorded Known
  con : ∀ index, index < 10 ∨ 18 ≤ index → machine.Copied start .gpbcon index
  dat : ∀ index, index < 5 ∨ 9 ≤ index → machine.Copied start .gpbdat index
  leds : ∀ pin, 5 ≤ pin → pin < 9 → machine.AsLastSet start .gpbdat pin ∧
    machine.Waiting fun entry => entry.1 = .gpbdat → (entry.2.sets pin).isSome = true
  low : ∀ pin, 5 ≤ pin → pin < 9 → machine.AsLastSet start .gpbcon (2 * pin) ∧
    machine.Waiting fun entry => entry.1 = .gpbcon → (entry.2.sets (2 * pin)).isSome = true
  high : ∀ pin, 5 ≤ pin → pin < 9 → machine.Settled start .gpbcon (2 * pin + 1) false
  resting : ∀ pin, 5 ≤ pin → pin < 9 → machine.Resting .gpbcon (2 * pin) true

theorem Kept.shared {start : Port → UInt32} {machine : Machine Pid Port}
    (kept : Kept start machine) : Shared start machine := by
  constructor
  case con => exact fun index outside => (kept.con index outside).kept
  case dat => exact fun index outside => (kept.dat index outside).kept
  case leds =>
    intro pin above below
    rw [← lastSet_pin kept.known.2 above below]
    exact (kept.leds pin above below).1
  case output =>
    rintro ⟨pid, opened⟩ through pin above below
    have fields (index : Nat) (inside : 10 ≤ index ∧ index < 18) :
        (conClear.2.sets index).isSome = true := by
      have set : bit conFields index = true := by
        rw [bit_conFields]
        exact decide_eq_true inside
      simp [conClear, Update.sets, set]
    constructor
    · have set := (kept.resting pin above below).set through
        (Machine.lastSet_isSome opened (fields (2 * pin) (by omega)))
      rw [(kept.low pin above below).1, set]
      rfl
    · obtain ⟨value, set⟩ := Option.isSome_iff_exists.mp
        (Machine.lastSet_isSome opened (fields (2 * pin + 1) (by omega)))
      obtain ⟨entry, member, port, sets⟩ := Machine.exists_of_lastSet set
      rw [(kept.high pin above below).law, set]
      exact con_high (kept.known.2 entry member) above below port sets

theorem initial_kept (start : Port → UInt32) :
    Kept start (Machine.initial start : Machine Pid Port) := by
  have waiting (kind : Port × Update → Prop) :
      (Machine.initial start : Machine Pid Port).Waiting kind := by
    intro pid entry member
    simp [Machine.initial] at member
  constructor
  case known => exact ⟨waiting Known, fun entry member => by simp [Machine.initial] at member⟩
  case con => exact fun index _ => Machine.initial_copied
  case dat => exact fun index _ => Machine.initial_copied
  case leds => exact fun pin _ _ => ⟨Machine.initial_asLastSet, waiting _⟩
  case low => exact fun pin _ _ => ⟨Machine.initial_asLastSet, waiting _⟩
  case high => exact fun pin _ _ => Machine.initial_settled false
  case resting => exact fun pin _ _ => Machine.initial_resting true

variable [DecidableEq Pid]

theorem step_kept (start : Port → UInt32) :
    (Machine.step Invocation.updates : Step (Machine Pid Port) (Event Pid Invocation)).Preserves
      (fun _ _ => True) (Kept start) := by
  intro machine event next kept _ taken
  constructor
  case known =>
    exact Machine.recorded_of_programs known_of_updates machine event next kept.known trivial taken
  case con =>
    intro index outside
    refine Machine.copied_of_copies ?_ machine event next (kept.con index outside) trivial taken
    exact fun invocation entry member =>
      con_outside (known_of_updates invocation entry member) outside
  case dat =>
    intro index outside
    refine Machine.copied_of_copies ?_ machine event next (kept.dat index outside) trivial taken
    exact fun invocation entry member =>
      dat_outside (known_of_updates invocation entry member) outside
  case leds =>
    intro pin above below
    refine Machine.asLastSet_of_sets ?_ machine event next (kept.leds pin above below) trivial taken
    intro invocation entry member port
    rw [dat_pin (known_of_updates invocation entry member) above below port]
    rfl
  case low =>
    intro pin above below
    refine Machine.asLastSet_of_sets ?_ machine event next (kept.low pin above below) trivial taken
    exact fun invocation entry member =>
      con_low (known_of_updates invocation entry member) above below
  case high =>
    intro pin above below
    refine Machine.settled_of_clears ?_ ?_ machine event next (kept.high pin above below) trivial
      taken
    · exact fun invocation entry member port value =>
        con_high (known_of_updates invocation entry member) above below port
    · exact fun invocation => clear_first invocation above below
  case resting =>
    intro pin above below
    refine Machine.resting_of_followed ?_ machine event next (kept.resting pin above below) trivial
      taken
    exact fun invocation => clear_followed invocation above below

end

/-- For any number of programs with any arguments, started at any time, and every order of the
halves of their updates, where nobody else writes the two registers: no pin of another device
is disturbed, the four LEDs show together what the last write to GPBDAT asked for, and they
are driven whenever the device has been opened and no program is opening it. -/
theorem programs_share_leds {Pid : Type} [DecidableEq Pid] (start : Port → UInt32)
    (events : List (Event Pid Invocation)) :
    (Machine.step Invocation.updates).Along (fun machine _ => Shared start machine)
      (Machine.initial start) events := by
  refine (step_kept start).strengthen ?_ (initial_kept start)
    (Step.along_of_splits fun _ _ _ _ _ _ => trivial)
  exact fun _ _ kept _ => kept.shared

end Mini2440.Led
