import Mini2440.Lib.History
import Mini2440.Lcd.Display

/-!
# The commands of `fb_test`

With a command the program reads or writes the frame buffer in units of 8, 16 or 32 bits; without
one it draws the test picture, and a device of the name `set` has its mode changed first.  Nothing
but the mapping bounds what a command reaches.  Over a session of any processes the frame buffer
is a store of bytes: each holds what the last process wrote there, which is what later ones read
and what the screen shows.
-/

namespace Mini2440.Lcd

open History Loops Memory Raster

/-! ## The program -/

/-- What a command's pointer points to: `pdwAddr`, `pwAddr` or `pcAddr`. -/
inductive Pointee where
  | dword
  | word
  | char
  deriving DecidableEq, Repr

/-- The bytes that the pointer points to. -/
def Pointee.size : Pointee → Nat
  | .dword => 4
  | .word => 2
  | .char => 1

/-- What `main` comes to for its arguments. -/
inductive Command where
  | usage
  | notOpened
  | modeUsage
  | modeRefused
  | picture
  | read (pointee : Pointee) (dwOffset num : UInt32)
  | write (pointee : Pointee) (dwOffset dwVal num : UInt32)
  | nothing
  deriving DecidableEq, Repr

/-- The arguments of a process, and whether the first of them is a frame buffer that can be
opened. -/
structure Process where
  opened : Bool
  argv : List String
  deriving DecidableEq, Repr

namespace Process

variable (strtoul : String → UInt32) (process : Process)

/-- The branches of `main` on the mapped frame buffer. -/
def onMapping : Command :=
  let argc := process.argv.length
  let argv := fun index => process.argv.getD index ""
  let read := fun pointee => Command.read pointee (strtoul (argv 3))
    (if argc ≥ 5 then strtoul (argv 4) else 1)
  let write := fun pointee => Command.write pointee (strtoul (argv 3)) (strtoul (argv 4))
    (if argc ≥ 6 then strtoul (argv 5) else 1)
  if argc = 2 ∨ argc > 2 ∧ argv 2 = "set" then .picture
  else if argc ≥ 4 ∧ argv 2 = "r32" then read .dword
  else if argc ≥ 5 ∧ argv 2 = "w32" then write .dword
  else if argc ≥ 4 ∧ argv 2 = "r16" then read .word
  else if argc ≥ 5 ∧ argv 2 = "w16" then write .word
  else if argc ≥ 4 ∧ argv 2 = "r8" then read .char
  else if argc ≥ 5 ∧ argv 2 = "w8" then write .char
  else .nothing

/-- `main` up to the mapping, with what the driver's mode is then.  `present` is what
`FBIOGET_VSCREENINFO` gives and `putVscreeninfo` what `FBIOPUT_VSCREENINFO` makes of the mode it
is asked for.  The width, the height and the depth are read without a look at `argc`; there is
no value where one of them is missing. -/
def command (putVscreeninfo : FbVar → Option FbVar) (present : FbVar) : Option (FbVar × Command) :=
  let argc := process.argv.length
  let argv := fun index => process.argv.getD index ""
  if argc < 2 then some (present, .usage)
  else if !process.opened then some (present, .notOpened)
  else if argv 1 = "set" then
    if argc < 6 then none
    else
      let width := strtoul (argv 3)
      let height := strtoul (argv 4)
      let bpp := strtoul (argv 5)
      if width = 0 ∨ height = 0 ∨ bpp = 0 then some (present, .modeUsage)
      else
        match putVscreeninfo ⟨width, height, bpp⟩ with
        | none => some (present, .modeRefused)
        | some fbVar => some (fbVar, process.onMapping strtoul)
  else some (present, process.onMapping strtoul)

end Process

/-- What the program has mapped, and where. -/
structure Mapping where
  fbVar : FbVar
  fbBaseAddr : Nat

namespace Mapping

variable (mapping : Mapping)

/-- An access that has a value: in the mapping, which starts a page, and aligned. -/
def Accessible (pointee : Pointee) (offset : Nat) : Prop :=
  offset % pointee.size = 0 ∧ offset + pointee.size ≤ screensize mapping.fbVar

instance (pointee : Pointee) (offset : Nat) : Decidable (mapping.Accessible pointee offset) :=
  inferInstanceAs (Decidable (_ ∧ _))

/-- `for (i = 0; i < num; i++)` over what is handed to `printf`. -/
def readLoop (pointee : Pointee) (dwOffset num : UInt32) (mem : Mem) : Option (List UInt32) :=
  (List.range num.toNat).mapM fun i =>
    let offset := dwOffset.toNat + pointee.size * i
    if mapping.Accessible pointee offset then
      some (wordOf (load mem (mapping.fbBaseAddr + offset) pointee.size))
    else none

/-- `for (i = 0; i < num; i++)` over the assignments. -/
def writeLoop (pointee : Pointee) (dwOffset dwVal num : UInt32) (mem : Mem) : Option Mem :=
  (List.range num.toNat).foldlM (fun mem i =>
    let offset := dwOffset.toNat + pointee.size * i
    if mapping.Accessible pointee offset then
      some (store mem (mapping.fbBaseAddr + offset) (lowBytes pointee.size dwVal))
    else none) mem

end Mapping

/-- What a process hands to `printf` for the frame buffer, and its exit status. -/
structure Outcome where
  values : List UInt32
  status : Int
  deriving DecidableEq, Repr

/-- The exit status of `main`. -/
def Command.status : Command → Int
  | .usage => -1
  | .notOpened | .modeRefused => 1
  | .modeUsage | .picture | .read .. | .write .. | .nothing => 0

/-- What is left of `main` once it knows its command. -/
def Command.run (mapping : Mapping) (mem : Mem) : Command → Option (Outcome × Mem)
  | .picture => do
      let mem ← drawTestPicture mapping.fbVar mapping.fbBaseAddr mem
      return (⟨[], Command.picture.status⟩, mem)
  | .read pointee dwOffset num => do
      let values ← mapping.readLoop pointee dwOffset num mem
      return (⟨values, (Command.read pointee dwOffset num).status⟩, mem)
  | .write pointee dwOffset dwVal num => do
      let mem ← mapping.writeLoop pointee dwOffset dwVal num mem
      return (⟨[], (Command.write pointee dwOffset dwVal num).status⟩, mem)
  | .usage => return (⟨[], Command.usage.status⟩, mem)
  | .notOpened => return (⟨[], Command.notOpened.status⟩, mem)
  | .modeUsage => return (⟨[], Command.modeUsage.status⟩, mem)
  | .modeRefused => return (⟨[], Command.modeRefused.status⟩, mem)
  | .nothing => return (⟨[], Command.nothing.status⟩, mem)

/-- The calls of `struct fb_ops` that a change of the mode depends on. -/
structure FbOps where
  fbCheckVar : Bool
  deriving DecidableEq, Repr

/-- `s3c_lcdfb_ops` sets colours and draws, and has no `fb_check_var`. -/
def s3cLcdfbOps : FbOps := ⟨false⟩

/-- `FBIOPUT_VSCREENINFO` of the core: the mode of the driver after it, or an error. -/
abbrev PutVscreeninfo := FbOps → FbVar → FbVar → Option FbVar

/-- Without `fb_check_var` the mode stays, and the program gets it back. -/
def KeepsMode (putVscreeninfo : PutVscreeninfo) : Prop :=
  ∀ fbOps present asked, fbOps.fbCheckVar = false →
    putVscreeninfo fbOps present asked = some present

/-- Processes one after the other; each finds the mode that the one before it has left. -/
def session (strtoul : String → UInt32) (putVscreeninfo : PutVscreeninfo) (fbBaseAddr : Nat) :
    FbVar → List Process → Mem → Option (List Outcome × Mem)
  | _, [], mem => some ([], mem)
  | present, process :: processes, mem => do
      let (fbVar, command) ←
        process.command strtoul (putVscreeninfo s3cLcdfbOps present) present
      let (outcome, mem) ← command.run ⟨fbVar, fbBaseAddr⟩ mem
      let (outcomes, mem) ← session strtoul putVscreeninfo fbBaseAddr fbVar processes mem
      return (outcome :: outcomes, mem)

/-- Commands one after the other, in one mode. -/
def runAll (mapping : Mapping) : List Command → Mem → Option (List Outcome × Mem)
  | [], mem => some ([], mem)
  | command :: commands, mem => do
      let (outcome, mem) ← command.run mapping mem
      let (outcomes, mem) ← runAll mapping commands mem
      return (outcome :: outcomes, mem)

/-- What a process asks of a frame buffer whose mode stays. -/
def Process.request (strtoul : String → UInt32) (process : Process) : Option Command :=
  (process.command strtoul (fun _ => some lcdVar) lcdVar).map Prod.snd

/-! ## The frame buffer as a store of bytes -/

/-- What a loop reaches is aligned and on the screen. -/
def LoopInside (fbVar : FbVar) (pointee : Pointee) (dwOffset num : UInt32) : Prop :=
  num.toNat = 0 ∨ dwOffset.toNat % pointee.size = 0 ∧
    dwOffset.toNat + pointee.size * num.toNat ≤ screensize fbVar

instance (fbVar : FbVar) (pointee : Pointee) (dwOffset num : UInt32) :
    Decidable (LoopInside fbVar pointee dwOffset num) :=
  inferInstanceAs (Decidable (_ ∨ _))

/-- The loop of the command stays inside the frame buffer. -/
def Command.Inside (fbVar : FbVar) : Command → Prop
  | .read pointee dwOffset num | .write pointee dwOffset _ num =>
      LoopInside fbVar pointee dwOffset num
  | .usage | .notOpened | .modeUsage | .modeRefused | .picture | .nothing => True

instance (fbVar : FbVar) : (command : Command) → Decidable (command.Inside fbVar)
  | .read pointee dwOffset num | .write pointee dwOffset _ num =>
      inferInstanceAs (Decidable (LoopInside fbVar pointee dwOffset num))
  | .usage | .notOpened | .modeUsage | .modeRefused | .picture | .nothing =>
      inferInstanceAs (Decidable True)

/-- The byte that a command writes to a place of the screen, if it writes there. -/
def Command.written (mode : Mode) (offset : Nat) : Command → Option UInt8
  | .picture =>
      if offset < screensize mode.fbVar then
        (mode.cell (offset / mode.width / mode.fbVar.xres.toNat)
          (offset / mode.width % mode.fbVar.xres.toNat))[offset % mode.width]?
      else none
  | .write pointee dwOffset dwVal num =>
      if dwOffset.toNat ≤ offset ∧ offset < dwOffset.toNat + pointee.size * num.toNat then
        (lowBytes pointee.size dwVal)[(offset - dwOffset.toNat) % pointee.size]?
      else none
  | .usage | .notOpened | .modeUsage | .modeRefused | .read .. | .nothing => none

/-- What the screen holds after the commands: the byte of the last one that writes there. -/
def held (mode : Mode) (start : Nat → UInt8) (commands : List Command) (offset : Nat) : UInt8 :=
  (last (Command.written mode offset) commands).getD (start offset)

/-- The units that a command reads from a screen. -/
def Command.values (screen : Nat → UInt8) : Command → List UInt32
  | .read pointee dwOffset num =>
      (List.range num.toNat).map fun i =>
        wordOf (load screen (dwOffset.toNat + pointee.size * i) pointee.size)
  | .usage | .notOpened | .modeUsage | .modeRefused | .picture | .write .. | .nothing => []

/-! ## The loops -/

section

variable (mode : Mode) (base : Nat) (pointee : Pointee) (dwOffset dwVal num : UInt32) (mem : Mem)

/-- The mapping of a program in a mode. -/
def Mode.mapping : Mapping := ⟨mode.fbVar, base⟩

/-- All accesses of a loop have a value if the first and the last one do. -/
theorem accessible_iff :
    (∀ i ∈ List.range num.toNat,
        (mode.mapping base).Accessible pointee (dwOffset.toNat + pointee.size * i)) ↔
      LoopInside mode.fbVar pointee dwOffset num := by
  unfold LoopInside Mapping.Accessible
  constructor
  · intro accessible
    rcases Nat.eq_zero_or_pos num.toNat with none_read | positive
    · exact .inl none_read
    · obtain ⟨aligned, -⟩ := accessible 0 (List.mem_range.mpr positive)
      obtain ⟨-, fits⟩ := accessible (num.toNat - 1) (List.mem_range.mpr (by omega))
      rw [Nat.add_assoc, ← Nat.mul_succ, Nat.succ_eq_add_one, Nat.sub_add_cancel positive] at fits
      exact .inr ⟨aligned, fits⟩
  · rintro (none_read | ⟨aligned, fits⟩) i member
    · rw [none_read] at member
      exact absurd member List.not_mem_nil
    · have before : pointee.size * (i + 1) ≤ pointee.size * num.toNat :=
        Nat.mul_le_mul_left _ (List.mem_range.mp member)
      rw [Nat.mul_succ] at before
      rw [Nat.add_mul_mod_self_left]
      exact ⟨aligned, show _ ≤ screensize mode.fbVar by omega⟩

theorem readLoop_eq :
    (mode.mapping base).readLoop pointee dwOffset num mem =
      if LoopInside mode.fbVar pointee dwOffset num then
        some ((Command.read pointee dwOffset num).values fun offset => mem (base + offset))
      else none := by
  refine (mapM_guard _ _ _).trans (if_congr (accessible_iff mode base _ _ _) ?_ rfl)
  congr 1
  apply List.map_congr_left
  intro i _
  congr 1
  apply List.map_congr_left
  intro index _
  rw [Nat.add_assoc]
  rfl

theorem writeLoop_eq :
    (mode.mapping base).writeLoop pointee dwOffset dwVal num mem =
      if LoopInside mode.fbVar pointee dwOffset num then
        some (store mem (base + dwOffset.toNat)
          ((List.range num.toNat).flatMap fun _ => lowBytes pointee.size dwVal))
      else none := by
  refine (foldlM_guard _ _ _ _).trans (if_congr (accessible_iff mode base _ _ _) ?_ rfl)
  rw [← foldl_store fun _ => Mode.length_lowBytes pointee.size dwVal]
  simp only [Nat.add_assoc]
  rfl

end

/-! ## One command -/

/-- The memory after a command that has a value. -/
def Command.apply (mode : Mode) (base : Nat) (mem : Mem) : Command → Mem
  | .picture => mode.drawn base mem
  | .write pointee dwOffset dwVal num =>
      store mem (base + dwOffset.toNat)
        ((List.range num.toNat).flatMap fun _ => lowBytes pointee.size dwVal)
  | .usage | .notOpened | .modeUsage | .modeRefused | .read .. | .nothing => mem

/-- The outcome of a command on a screen. -/
def Command.outcome (screen : Nat → UInt8) (command : Command) : Outcome :=
  ⟨command.values screen, command.status⟩

section

variable (mode : Mode) (base : Nat) (mem : Mem) (command : Command)

theorem Command.run_eq :
    command.run (mode.mapping base) mem =
      if command.Inside mode.fbVar then
        some (command.outcome fun offset => mem (base + offset), command.apply mode base mem)
      else none := by
  cases command with
  | picture =>
      rw [Command.run]
      exact congrArg (Option.bind · _) (mode.drawTestPicture_eq base mem)
  | read pointee dwOffset num =>
      rw [Command.run, readLoop_eq]
      by_cases inside : LoopInside mode.fbVar pointee dwOffset num
      · rw [if_pos inside]
        exact (if_pos inside).symm
      · rw [if_neg inside]
        exact (if_neg inside).symm
  | write pointee dwOffset dwVal num =>
      rw [Command.run, writeLoop_eq]
      by_cases inside : LoopInside mode.fbVar pointee dwOffset num
      · rw [if_pos inside]
        exact (if_pos inside).symm
      · rw [if_neg inside]
        exact (if_neg inside).symm
  | usage | notOpened | modeUsage | modeRefused | nothing => rfl

/-- What a command does to the places of the screen. -/
theorem Command.apply_screen (offset : Nat) :
    command.apply mode base mem (base + offset) =
      (command.written mode offset).getD (mem (base + offset)) := by
  cases command with
  | picture =>
      have place : base + offset - base = offset := Nat.add_sub_cancel_left base offset
      rw [Command.apply, Mode.drawn, store_apply, stored, if_pos (Nat.le_add_right base offset),
        place, getElem?_rows mode.length_cell, Command.written, mode.screensize_eq, Mode.pixels,
        Nat.mul_assoc]
  | write pointee dwOffset dwVal num =>
      rw [Command.apply, store_apply, stored, Command.written]
      by_cases above : dwOffset.toNat ≤ offset
      · have place : base + offset - (base + dwOffset.toNat) = offset - dwOffset.toNat := by omega
        rw [if_pos (by omega), place,
          getElem?_cells fun _ => Mode.length_lowBytes pointee.size dwVal]
        congr 1
        exact if_congr (by omega) rfl rfl
      · rw [if_neg (by omega), if_neg (by omega)]
  | usage | notOpened | modeUsage | modeRefused | read | nothing => rfl

/-- No command that has a value reaches beyond the screen. -/
theorem Command.apply_outside (inside : command.Inside mode.fbVar) {address : Nat}
    (outside : address < base ∨ base + screensize mode.fbVar ≤ address) :
    command.apply mode base mem address = mem address := by
  cases command with
  | picture => exact mode.drawn_of_outside mem outside
  | write pointee dwOffset dwVal num =>
      apply store_of_outside
      rw [length_cells fun _ => Mode.length_lowBytes pointee.size dwVal]
      rcases inside with none_written | ⟨-, fits⟩
      · rw [none_written, Nat.mul_zero]
        omega
      · omega
  | usage | notOpened | modeUsage | modeRefused | read | nothing => rfl

end

/-! ## A session -/

section

variable (mode : Mode) (base : Nat)

/-- What the commands give, one after the other. -/
def outcomes : Mem → List Command → List Outcome
  | _, [] => []
  | mem, command :: commands =>
      command.outcome (fun offset => mem (base + offset)) ::
        outcomes (command.apply mode base mem) commands

theorem runAll_eq (commands : List Command) (mem : Mem) :
    runAll (mode.mapping base) commands mem =
      if ∀ command ∈ commands, command.Inside mode.fbVar then
        some (outcomes mode base mem commands, after (Command.apply mode base) mem commands)
      else none := by
  induction commands generalizing mem with
  | nil => rfl
  | cons command commands ih =>
      simp only [runAll, List.forall_mem_cons, Command.run_eq, ih]
      by_cases inside : command.Inside mode.fbVar
      · simp only [inside, true_and, if_true, Option.bind_eq_bind, Option.bind_some]
        split <;> rfl
      · simp [inside]

/-- All commands have a result if each of them alone has one. -/
theorem runAll_isSome_iff (commands : List Command) (mem : Mem) :
    (runAll (mode.mapping base) commands mem).isSome = true ↔
      ∀ command ∈ commands, command.Inside mode.fbVar := by
  rw [runAll_eq]
  split
  next inside => exact iff_of_true rfl inside
  next outside => exact iff_of_false Bool.false_ne_true outside

/-- The screen after commands. -/
theorem after_held (mem : Mem) (commands : List Command) :
    (fun offset => after (Command.apply mode base) mem commands (base + offset)) =
      held mode (fun offset => mem (base + offset)) commands := by
  funext offset
  have register := after_register mem commands (fun mem => mem (base + offset))
    (Command.written mode offset) id fun mem command _ =>
      (command.apply_screen mode base mem offset).trans (by rw [Option.map_id]; rfl)
  rw [Option.map_id] at register
  exact register

theorem after_outside (mem : Mem) {commands : List Command}
    (inside : ∀ command ∈ commands, command.Inside mode.fbVar) {address : Nat}
    (outside : address < base ∨ base + screensize mode.fbVar ≤ address) :
    after (Command.apply mode base) mem commands address = mem address := by
  induction commands generalizing mem with
  | nil => rfl
  | cons command commands ih =>
      obtain ⟨first, inside⟩ := List.forall_mem_cons.mp inside
      exact (ih _ inside).trans (command.apply_outside mode base mem first outside)

theorem length_outcomes (mem : Mem) (commands : List Command) :
    (outcomes mode base mem commands).length = commands.length := by
  induction commands generalizing mem with
  | nil => rfl
  | cons command commands ih => rw [outcomes, List.length_cons, ih, List.length_cons]

/-- Each command finds what those before it have left. -/
theorem getElem?_outcomes (mem : Mem) (before : List Command) (command : Command)
    (rest : List Command) :
    (outcomes mode base mem (before ++ command :: rest))[before.length]? =
      some (command.outcome fun offset =>
        after (Command.apply mode base) mem before (base + offset)) := by
  induction before generalizing mem with
  | nil => rfl
  | cons first before ih => exact ih (first.apply mode base mem)

/-- A session over the frame buffer, in any mode with whole bytes. -/
theorem runAll_held (mem : Mem) {commands : List Command} {results : List Outcome} {final : Mem}
    (ran : runAll (mode.mapping base) commands mem = some (results, final)) :
    (∀ offset, final (base + offset) =
        held mode (fun offset => mem (base + offset)) commands offset) ∧
      (∀ address, address < base ∨ base + screensize mode.fbVar ≤ address →
        final address = mem address) ∧
      results.length = commands.length ∧
      ∀ before command rest, commands = before ++ command :: rest →
        results[before.length]? =
          some (command.outcome (held mode (fun offset => mem (base + offset)) before)) := by
  rw [runAll_eq] at ran
  split at ran
  next inside =>
      obtain ⟨rfl, rfl⟩ := Prod.mk.inj (Option.some.inj ran)
      refine ⟨fun offset => congrFun (after_held mode base mem commands) offset,
        fun address outside => after_outside mode base mem inside outside,
        length_outcomes mode base mem commands, ?_⟩
      rintro before command rest rfl
      rw [getElem?_outcomes, after_held]
  next => contradiction

end

/-! ## A mode that stays -/

section

variable {strtoul : String → UInt32} {putVscreeninfo : PutVscreeninfo}

/-- Whatever mode a process asks for, the driver's is the one it computes with. -/
theorem Process.command_eq (keeps : KeepsMode putVscreeninfo) (process : Process) :
    process.command strtoul (putVscreeninfo s3cLcdfbOps lcdVar) lcdVar =
      (process.request strtoul).map fun command => (lcdVar, command) := by
  have stays : putVscreeninfo s3cLcdfbOps lcdVar = fun _ => some lcdVar :=
    funext fun asked => keeps s3cLcdfbOps lcdVar asked rfl
  rw [stays]
  simp only [Process.request, Process.command]
  split_ifs <;> rfl

/-- The session is the commands of its processes, if each of them has one. -/
theorem session_eq (keeps : KeepsMode putVscreeninfo) (base : Nat) (processes : List Process)
    (mem : Mem) :
    session strtoul putVscreeninfo base lcdVar processes mem =
      (processes.mapM (Process.request strtoul)).bind fun commands =>
        runAll ⟨lcdVar, base⟩ commands mem := by
  induction processes generalizing mem with
  | nil => rfl
  | cons process processes ih =>
      simp only [session, List.mapM_cons, Process.command_eq keeps]
      cases process.request strtoul with
      | none => rfl
      | some command =>
          simp only [Option.map_some, Option.bind_eq_bind, Option.bind_some, ih]
          cases processes.mapM (Process.request strtoul) with
          | none => exact Option.bind_fun_none _
          | some commands => rfl

end

/-! ## The screen -/

/-- Processes of any number and with any arguments, one after the other, on the frame buffer
that `lcd_init` has set up: all of them have a result if and only if none that changes the mode
lacks an argument and each stays aligned and on the screen.  Then every byte holds what the last
process wrote that writes it, each process reads what those before it have left, the panel shows
the low bits of what each place holds, and no byte outside the frame buffer has changed. -/
theorem screen_shows_session (strtoul : String → UInt32) {putVscreeninfo : PutVscreeninfo}
    (keeps : KeepsMode putVscreeninfo) (buffer : DmaBuffer) (mem : Mem)
    (processes : List Process) :
    let base := buffer.start.toNat
    let requests := processes.mapM (Process.request strtoul)
    let start := fun offset => mem (base + offset)
    ((session strtoul putVscreeninfo base lcdVar processes mem).isSome = true ↔
        ∃ commands, requests = some commands ∧ ∀ command ∈ commands, command.Inside lcdVar) ∧
      ∀ commands results final, requests = some commands →
        session strtoul putVscreeninfo base lcdVar processes mem = some (results, final) →
        (∀ line column, shown (lcdInitRegs buffer.start) final line column =
          if line < 240 ∧ column < 320 then
            some (wordOf (load (held lcdMode start commands) (4 * (line * 320 + column)) 4) &&&
              0xffffff)
          else none) ∧
        (∀ address, address < base ∨ base + smemLen.toNat ≤ address →
          final address = mem address) ∧
        results.length = processes.length ∧
        ∀ before command rest, commands = before ++ command :: rest →
          results[before.length]? = some (command.outcome (held lcdMode start before)) := by
  intro base requests start
  have size : screensize lcdVar = smemLen.toNat := by decide
  constructor
  · rw [session_eq keeps, Option.isSome_bind, Option.any_eq_true]
    exact exists_congr fun commands =>
      and_congr_right fun _ => runAll_isSome_iff lcdMode base commands mem
  · intro commands results final requested ran
    have requested : processes.mapM (Process.request strtoul) = some commands := requested
    rw [session_eq keeps, requested, Option.bind_some] at ran
    obtain ⟨screen, beyond, count, reads⟩ := runAll_held lcdMode base mem ran
    refine ⟨?_, ?_, count.trans (length_of_mapM requested), reads⟩
    · intro line column
      rw [shown, lcdInit_showsTft24, lcdInit_lines, lcdInit_columns]
      by_cases inside : line < 240 ∧ column < 320
      · rw [if_pos ⟨rfl, inside⟩, if_pos inside, pixelAddress_eq buffer inside.1 inside.2]
        have place : load final (base + 4 * (line * 320 + column)) 4 =
            load (held lcdMode start commands) (4 * (line * 320 + column)) 4 := by
          apply List.map_congr_left
          intro index _
          rw [Nat.add_assoc]
          exact screen _
        rw [place]
      · rw [if_neg inside, if_neg fun every => inside every.2]
    · intro address outside
      rw [← size] at outside
      exact beyond address outside

/-- `strtoul` on the arguments of `setAndRead`. -/
def smallNumbers (text : String) : UInt32 :=
  if text = "16" then 16 else if text = "127" then 127 else if text = "1" then 1 else 0

/-- A byte is written through a device of the name `set` and read back through another. -/
def setAndRead : List Process :=
  [⟨true, ["fb_test", "set", "w8", "16", "127", "1"]⟩,
    ⟨true, ["fb_test", "/dev/fb0", "r8", "16"]⟩]

/-- A core that lets a driver with `fb_check_var` have every mode. -/
def putAny : PutVscreeninfo := fun fbOps present asked =>
  some (if fbOps.fbCheckVar then asked else present)

theorem setAndRead_held :
    ∃ results final,
      session smallNumbers putAny dmaBuffer.start.toNat lcdVar setAndRead (fun _ => 0) =
          some (results, final) ∧
        results[1]? = some ⟨[127], 0⟩ := by
  have keeps : KeepsMode putAny := by
    intro fbOps present asked fixed
    simp [putAny, fixed]
  obtain ⟨possible, screen⟩ :=
    screen_shows_session smallNumbers keeps dmaBuffer (fun _ => 0) setAndRead
  have requested : setAndRead.mapM (Process.request smallNumbers) =
      some [.write .char 16 127 1, .read .char 16 1] := by
    decide
  have ran := possible.mpr ⟨_, requested, by decide⟩
  obtain ⟨⟨results, final⟩, ran⟩ := Option.isSome_iff_exists.mp ran
  obtain ⟨-, -, -, reads⟩ := screen _ _ _ requested ran
  have second := reads [.write .char 16 127 1] (.read .char 16 1) [] rfl
  exact ⟨results, final, ran, second.trans (by decide)⟩

end Mini2440.Lcd
