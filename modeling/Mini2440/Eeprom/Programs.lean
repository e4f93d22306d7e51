import Mini2440.Eeprom.Stack

/-!
# The test programs of the EEPROM

`21th_i2c_drv/4th_drv_dev_test/i2c_test.c` reads and writes a byte through the device file of
the driver, `5th_usr_space_test/i2c_usr_test.c` through the file of the adapter, with the
functions of `i2c-dev.h`.  Each invocation is one process, which asks for one byte at most; the
results follow a session of invocations of both, with any command lines.
-/

namespace Mini2440.Eeprom

open History I2c Overlay Transition

/-! ## What is printed -/

/-- `%2x` or `%02x`, by the character that fills the field. -/
def hex2 (pad : Char) (byte : UInt8) : String :=
  String.ofList ((Nat.toDigits 16 byte.toNat).leftpad 2 pad)

/-- `"data: %c, %d, 0x%2x\n"`. -/
def dataLine (byte : UInt8) : String :=
  "data: " ++ String.singleton (Char.ofNat byte.toNat) ++ ", " ++ toString byte.toNat ++
    ", 0x" ++ hex2 ' ' byte ++ "\n"

/-- `"write err, addr = 0x%02x, data = 0x%02x\n"`. -/
def writeErrLine (addr data : UInt8) : String :=
  "write err, addr = 0x" ++ hex2 '0' addr ++ ", data = 0x" ++ hex2 '0' data ++ "\n"

/-- The lines of a process, and what its `main` returns. -/
structure Exit where
  lines : List String
  status : Int
  deriving DecidableEq, Repr

namespace I2cTest

/-- `print_usage` of `i2c_test.c`. -/
def printUsage (file : String) : List String :=
  [file ++ " r addr\n", file ++ " w addr val\n"]

/-- `main`; `opened` tells whether the device file is there, and `buf` is what the array of
that name holds before anything is assigned to it. -/
def main {m : Type → Type} [Monad m] (strtoul : String → Nat) (opened : Bool)
    (read write : Mem → Nat → m (Int × UserBuf)) (buf : Mem) (argv : List String) :
    m Exit := do
  let arg := fun index => argv.getD index ""
  if argv.length ≠ 3 ∧ argv.length ≠ 4 then
    return ⟨printUsage (arg 0), -1⟩
  if !opened then
    return ⟨["can't open /dev/at24cxx\n"], -1⟩
  if arg 1 = "r" then
    let buf := Function.update buf 0 (UInt8.ofNat (strtoul (arg 2)))
    let (_, user) ← read buf 1
    return ⟨[dataLine (user.bytes 0)], 0⟩
  else if arg 1 = "w" ∧ argv.length = 4 then
    let buf := Function.update buf 0 (UInt8.ofNat (strtoul (arg 2)))
    let buf := Function.update buf 1 (UInt8.ofNat (strtoul (arg 3)))
    let (value, user) ← write buf 2
    return ⟨if value ≠ 2 then [writeErrLine (user.bytes 0) (user.bytes 1)] else [], 0⟩
  else
    return ⟨printUsage (arg 0), -1⟩

end I2cTest

namespace I2cUsrTest

/-- `print_usage` of `i2c_usr_test.c`. -/
def printUsage (file : String) : List String :=
  [file ++ " </dev/i2c-0> <dev_addr> r addr\n", file ++ " </dev/i2c-0> <dev_addr> w addr val\n"]

/-- `main`; `ioctlSlave` is the client that `ioctl(fd, I2C_SLAVE, dev_addr)` selects. -/
def main {m : Type → Type} [Monad m] (strtoul : String → Nat) (opened : Bool)
    (ioctlSlave : UInt32 → Option UInt16) (readWordData : UInt16 → UInt8 → m Int)
    (writeByteData : UInt16 → UInt8 → UInt8 → m Int) (argv : List String) : m Exit := do
  let arg := fun index => argv.getD index ""
  if argv.length ≠ 5 ∧ argv.length ≠ 6 then
    return ⟨printUsage (arg 0), -1⟩
  if !opened then
    return ⟨["can't open " ++ arg 1 ++ "\n"], -1⟩
  match ioctlSlave (UInt32.ofNat (strtoul (arg 2))) with
  | none => return ⟨["set addr error!\n"], -1⟩
  | some client =>
      if arg 3 = "r" then
        let data ← readWordData client (UInt8.ofNat (strtoul (arg 4)))
        return ⟨[dataLine (UInt8.ofInt data)], 0⟩
      else if arg 3 = "w" ∧ argv.length = 6 then
        let _ ← writeByteData client (UInt8.ofNat (strtoul (arg 4)))
          (UInt8.ofNat (strtoul (arg 5)))
        return ⟨[], 0⟩
      else
        return ⟨printUsage (arg 0), -1⟩

end I2cUsrTest

/-! ## Sessions -/

section

variable {m : Type → Type} [Monad m]

/-- The functions of `i2c-dev.h`: whatever error the `ioctl` has, the value is -1. -/
def i2cDevReadWordData (calls : SmbusCalls m) (client : UInt16) (command : UInt8) : m Int := do
  let word ← calls.readWordData client command
  return if word < 0 then -1 else word

/-- The same of the byte write, whose value is 0 or -1. -/
def i2cDevWriteByteData (calls : SmbusCalls m) (client : UInt16) (command value : UInt8) :
    m Int := do
  let status ← calls.writeByteData client command value
  return if status < 0 then -1 else 0

end

/-- A process: whether its file can be opened, and its command line. -/
inductive Invocation where
  | i2cTest (opened : Bool) (buf : Mem) (argv : List String)
  | i2cUsrTest (opened : Bool) (argv : List String)

/-- What the processes share: the library, the client that the `I2C_SLAVE` ioctl selects, if it
lets the process have one, and the client behind `/dev/at24cxx`. -/
structure Board where
  strtoul : String → Nat
  ioctlSlave : UInt32 → Option UInt16
  client : UInt16

/-- The process runs. -/
def Invocation.run {m : Type → Type} [Monad m] (board : Board) (calls : SmbusCalls m) :
    Invocation → m Exit
  | .i2cTest opened buf argv =>
      I2cTest.main board.strtoul opened
        (fun user => Smbus.at24cxxRead (calls.readByteData board.client) ⟨user, []⟩)
        (fun user => Smbus.at24cxxWrite (calls.writeByteData board.client) ⟨user, []⟩)
        buf argv
  | .i2cUsrTest opened argv =>
      I2cUsrTest.main board.strtoul opened board.ioctlSlave (i2cDevReadWordData calls)
        (i2cDevWriteByteData calls) argv

/-- The adapter with the chips, and how the processes so far have ended. -/
structure Session where
  wired : Wired
  exits : List Exit

/-- A process runs to its end, and how long each of its waits takes. -/
def Session.step (calls : Wait → SmbusCalls (StateT Wired Option)) (board : Board) :
    Step Session (Invocation × Wait) := fun session (invocation, wait) => do
  let (exit, wired) ← (invocation.run board (calls wait)).run session.wired
  return ⟨wired, session.exits ++ [exit]⟩

/-! ## What a command line asks for -/

/-- Nothing but a text and a status, or one byte of a chip. -/
inductive Ask where
  | nothing (exit : Exit)
  | read (client : UInt16) (addr : UInt8)
  | write (client : UInt16) (addr data : UInt8)
  | usrRead (client : UInt16) (addr : UInt8)
  | usrWrite (client : UInt16) (addr data : UInt8)

/-- What the checks of `main` leave of a command line. -/
def Invocation.ask (board : Board) : Invocation → Ask
  | .i2cTest opened _ argv =>
      let arg := fun index => argv.getD index ""
      let number := fun index => UInt8.ofNat (board.strtoul (arg index))
      if argv.length ≠ 3 ∧ argv.length ≠ 4 then .nothing ⟨I2cTest.printUsage (arg 0), -1⟩
      else if !opened then .nothing ⟨["can't open /dev/at24cxx\n"], -1⟩
      else if arg 1 = "r" then .read board.client (number 2)
      else if arg 1 = "w" ∧ argv.length = 4 then .write board.client (number 2) (number 3)
      else .nothing ⟨I2cTest.printUsage (arg 0), -1⟩
  | .i2cUsrTest opened argv =>
      let arg := fun index => argv.getD index ""
      let number := fun index => UInt8.ofNat (board.strtoul (arg index))
      if argv.length ≠ 5 ∧ argv.length ≠ 6 then .nothing ⟨I2cUsrTest.printUsage (arg 0), -1⟩
      else if !opened then .nothing ⟨["can't open " ++ arg 1 ++ "\n"], -1⟩
      else
        match board.ioctlSlave (UInt32.ofNat (board.strtoul (arg 2))) with
        | none => .nothing ⟨["set addr error!\n"], -1⟩
        | some client =>
            if arg 3 = "r" then .usrRead client (number 4)
            else if arg 3 = "w" ∧ argv.length = 6 then .usrWrite client (number 4) (number 5)
            else .nothing ⟨I2cUsrTest.printUsage (arg 0), -1⟩

/-- The byte that the chip at an address keeps at an offset. -/
abbrev Arrays := UInt8 → UInt8 → UInt8

/-- The chips of a bus as arrays. -/
def arraysOf (wired : Wired) : Arrays := fun address => (wired.bus.chips address).contents

namespace Ask

variable (populated : List UInt8) (arrays : Arrays)

/-- What a process prints and returns when the chips keep `arrays`: a byte that is not there is
`-ENODEV` in eight bits through the driver and -1 through `i2c-dev.h`, and only `i2c_test` tells
that a write has failed. -/
def exit : Ask → Exit
  | .nothing exit => exit
  | .read client addr =>
      ⟨[dataLine (if clientAddress client ∈ populated then arrays (clientAddress client) addr
        else 237)], 0⟩
  | .write client addr data =>
      ⟨if clientAddress client ∈ populated then [] else [writeErrLine addr data], 0⟩
  | .usrRead client addr =>
      ⟨[dataLine (if clientAddress client ∈ populated then arrays (clientAddress client) addr
        else 255)], 0⟩
  | .usrWrite .. => ⟨[], 0⟩

/-- The same when the bus does not answer in time. -/
def lateExit : Ask → Exit
  | .nothing exit => exit
  | .read .. => ⟨[dataLine 146], 0⟩
  | .write _ addr data => ⟨[writeErrLine addr data], 0⟩
  | .usrRead .. => ⟨[dataLine 255], 0⟩
  | .usrWrite .. => ⟨[], 0⟩

/-- What the chips keep afterwards. -/
def store : Ask → Arrays
  | .write client addr data | .usrWrite client addr data =>
      if clientAddress client ∈ populated then
        Function.update arrays (clientAddress client)
          (Function.update (arrays (clientAddress client)) addr data)
      else arrays
  | .nothing _ | .read .. | .usrRead .. => arrays

end Ask

/-- Where one chip keeps other contents, the arrays change there. -/
theorem Keeps.arraysOf_eq {address : UInt8} {contents : UInt8 → UInt8} {wired next : Wired}
    (keeps : Keeps address contents wired.bus.chips next.bus.chips) :
    arraysOf next = Function.update (arraysOf wired) address contents := by
  funext other
  by_cases same : other = address
  · subst same
    rw [Function.update_self]
    exact keeps.contents
  · rw [Function.update_of_ne same]
    exact congrArg Chip.contents (keeps.others other same)

section

variable {m : Type → Type} [Monad m]

/-- The call of the bus that a process makes, and what it prints then. -/
def Ask.perform (calls : SmbusCalls m) : Ask → m Exit
  | .nothing exit => return exit
  | .read client addr => do
      let data ← calls.readByteData client addr
      return ⟨[dataLine (UInt8.ofInt data)], 0⟩
  | .write client addr data => do
      let result ← calls.writeByteData client addr data
      return ⟨if result = 0 then [] else [writeErrLine addr data], 0⟩
  | .usrRead client addr => do
      let word ← calls.readWordData client addr
      return ⟨[dataLine (UInt8.ofInt (if word < 0 then -1 else word))], 0⟩
  | .usrWrite client addr data => do
      let _ ← calls.writeByteData client addr data
      return ⟨[], 0⟩

/-- `i2c_test` hands the driver an address and a byte. -/
theorem write_two [LawfulMonad m] (calls : SmbusCalls m) (client : UInt16) (addr data : UInt8)
    (buf : Mem) :
    (do
      let (value, user) ← Smbus.at24cxxWrite (calls.writeByteData client)
        ⟨Function.update (Function.update buf 0 addr) 1 data, []⟩ 2
      return ⟨if value ≠ 2 then [writeErrLine (user.bytes 0) (user.bytes 1)] else [], 0⟩) =
      (Ask.write client addr data).perform calls := by
  have first : Function.update (Function.update buf 0 addr) 1 data 0 = addr := by simp
  have second : Function.update (Function.update buf 0 addr) 1 data 1 = data := by simp
  simp only [Ask.perform, Smbus.at24cxxWrite, UserBuf.copyFromUser_bytes, first, second,
    bind_assoc]
  congr 1
  funext result
  by_cases stored : result = 0
  · simp [stored]
  · have failed : -Smbus.EIO ≠ 2 := by decide
    simp only [stored, failed, pure_bind, if_false, ne_eq, not_false_eq_true, if_true,
      UserBuf.copyFromUser_bytes, first, second]

/-- A process makes the one call that its command line asks for. -/
theorem Invocation.run_eq [LawfulMonad m] (board : Board) (calls : SmbusCalls m)
    (invocation : Invocation) :
    invocation.run board calls = (invocation.ask board).perform calls := by
  cases invocation with
  | i2cTest opened buf argv =>
      simp only [Invocation.run, I2cTest.main, Invocation.ask]
      split_ifs with count missing reads writes
      · rfl
      · rfl
      · simp [Ask.perform, Smbus.at24cxxRead]
      · exact write_two calls board.client _ _ buf
      · rfl
  | i2cUsrTest opened argv =>
      simp only [Invocation.run, I2cUsrTest.main, Invocation.ask]
      cases board.ioctlSlave (UInt32.ofNat (board.strtoul (argv.getD 2 ""))) with
      | none => split_ifs <;> rfl
      | some client =>
          split_ifs with count missing reads writes
          · rfl
          · rfl
          · simp [Ask.perform, i2cDevReadWordData]
          · simp [Ask.perform, i2cDevWriteByteData]
          · rfl

end

section

variable {populated : List UInt8} {calls : Wait → SmbusCalls (StateT Wired Option)}
variable {wait : Wait} {wired next : Wired} {exit : Exit}

/-- The low byte of a word. -/
theorem ofInt_wordOf (low high : UInt8) : UInt8.ofInt ((wordOf low high).toNat : Int) = low := by
  have small := low.toNat_lt
  have shifted : (high.toUInt16 <<< 8).toNat % 2 ^ 8 = 0 := by
    rw [UInt16.toNat_shiftLeft, UInt8.toNat_toUInt16]
    have eight : UInt16.toNat 8 % 16 = 8 := rfl
    rw [eight, Nat.shiftLeft_eq]
    omega
  have word : (wordOf low high).toNat % 2 ^ 8 = low.toNat := by
    rw [wordOf, UInt16.toNat_or, UInt8.toNat_toUInt16, Nat.or_mod_two_pow, shifted, Nat.or_zero,
      Nat.mod_eq_of_lt small]
  have same : (((wordOf low high).toNat : Int) % 2 ^ 8).toNat = low.toNat := by omega
  rw [UInt8.ofInt, same, UInt8.ofNat_toNat]

/-- What a write leaves on the arrays. -/
theorem Keeps.arraysOf_write {client : UInt16} {addr data : UInt8}
    (keeps : Keeps (clientAddress client)
      (overlay (wired.bus.chips (clientAddress client)).contents
        (if clientAddress client ∈ populated then some (addr, data) else none).toList)
      wired.bus.chips next.bus.chips) :
    arraysOf next = (Ask.write client addr data).store populated (arraysOf wired) := by
  rw [keeps.arraysOf_eq, Ask.store]
  split
  next here => rfl
  next missing => exact Function.update_eq_self ..

/-- A process in time ends as the arrays have it and leaves what it stores there, any other one
ends as on an error. -/
theorem Ask.ends (emulates : Emulates (busXfer populated) calls) (ask : Ask)
    (ran : (ask.perform (calls wait)).run wired = some (exit, next)) :
    (wait.InTime → exit = ask.exit populated (arraysOf wired) ∧
      arraysOf next = ask.store populated (arraysOf wired)) ∧
      (¬ wait.InTime → exit = ask.lateExit) := by
  cases ask with
  | nothing result =>
      cases ran
      exact ⟨fun _ => ⟨rfl, rfl⟩, fun _ => rfl⟩
  | read client addr =>
      obtain ⟨⟨data, middle⟩, called, ended⟩ := Option.bind_eq_some_iff.mp ran
      cases ended
      obtain ⟨inTime, late⟩ := emulates.read_ends called
      constructor
      · intro prompt
        obtain ⟨rfl, keeps⟩ := inTime prompt
        refine ⟨?_, keeps.arraysOf_eq.trans (Function.update_eq_self ..)⟩
        by_cases here : clientAddress client ∈ populated
        · simp only [Ask.exit, here, if_true, Smbus.ofInt_toNat]
          rfl
        · simp only [Ask.exit, here, if_false]
          rfl
      · intro slow
        rw [late slow]
        rfl
  | write client addr data =>
      obtain ⟨⟨result, middle⟩, called, ended⟩ := Option.bind_eq_some_iff.mp ran
      cases ended
      obtain ⟨inTime, late⟩ := emulates.write_ends called
      constructor
      · intro prompt
        obtain ⟨rfl, keeps⟩ := inTime prompt
        refine ⟨?_, keeps.arraysOf_write⟩
        by_cases here : clientAddress client ∈ populated
        · simp only [Ask.exit, here, if_true]
        · have refused : ¬ (-ENODEV : Int) = 0 := by decide
          simp only [Ask.exit, here, if_false, refused]
      · intro slow
        have failed : ¬ (-ETIMEDOUT : Int) = 0 := by decide
        simp only [late slow, failed, if_false, Ask.lateExit]
  | usrRead client addr =>
      obtain ⟨⟨word, middle⟩, called, ended⟩ := Option.bind_eq_some_iff.mp ran
      cases ended
      obtain ⟨inTime, late⟩ := emulates.readWord_ends called
      constructor
      · intro prompt
        obtain ⟨rfl, keeps⟩ := inTime prompt
        refine ⟨?_, keeps.arraysOf_eq.trans (Function.update_eq_self ..)⟩
        by_cases here : clientAddress client ∈ populated
        · have fine : ∀ word : UInt16, ¬ (word.toNat : Int) < 0 := fun word => by omega
          simp only [Ask.exit, here, if_true, fine, if_false, ofInt_wordOf]
          rfl
        · simp only [Ask.exit, here, if_false]
          rfl
      · intro slow
        rw [late slow]
        rfl
  | usrWrite client addr data =>
      obtain ⟨⟨result, middle⟩, called, ended⟩ := Option.bind_eq_some_iff.mp ran
      cases ended
      obtain ⟨inTime, late⟩ := emulates.write_ends called
      exact ⟨fun prompt => ⟨rfl, (inTime prompt).2.arraysOf_write⟩, fun _ => rfl⟩

/-- The chips let every process end, and in time. -/
theorem Ask.exists_perform (emulates : Emulates (busXfer populated) calls) (ask : Ask)
    (wired : Wired) :
    ∃ wait done, wait.InTime ∧ (ask.perform (calls wait)).run wired = some done := by
  cases ask with
  | nothing exit => exact ⟨⟨[], 1⟩, _, Nat.one_ne_zero, rfl⟩
  | read client addr =>
      obtain ⟨wait, done, inTime, ran⟩ := emulates.exists_read client addr wired
      refine ⟨wait, ?_⟩
      rw [Ask.perform, StateT.run_bind, ran]
      exact ⟨_, inTime, rfl⟩
  | write client addr data | usrWrite client addr data =>
      obtain ⟨wait, done, inTime, ran⟩ := emulates.exists_write client addr data wired
      refine ⟨wait, ?_⟩
      rw [Ask.perform, StateT.run_bind, ran]
      exact ⟨_, inTime, rfl⟩
  | usrRead client addr =>
      obtain ⟨wait, done, inTime, ran⟩ := emulates.exists_readWord client addr wired
      refine ⟨wait, ?_⟩
      rw [Ask.perform, StateT.run_bind, ran]
      exact ⟨_, inTime, rfl⟩

/-! ## A session -/

variable {board : Board} {session last : Session} {invocation : Invocation}

theorem Session.exists_run (emulates : Emulates (busXfer populated) calls) (board : Board)
    (invocations : List Invocation) (session : Session) :
    ∃ turns final, turns.map Prod.fst = invocations ∧ (∀ turn ∈ turns, turn.2.InTime) ∧
      (Session.step calls board).run session turns = some final := by
  induction invocations generalizing session with
  | nil => exact ⟨[], session, rfl, List.forall_mem_nil _, rfl⟩
  | cons invocation invocations ih =>
      obtain ⟨wait, done, inTime, ran⟩ :=
        (invocation.ask board).exists_perform emulates session.wired
      have taken : ∃ next, Session.step calls board session (invocation, wait) = some next := by
        simp only [Session.step, invocation.run_eq board, ran]
        exact ⟨_, rfl⟩
      obtain ⟨next, taken⟩ := taken
      obtain ⟨turns, final, rfl, allInTime, reached⟩ := ih next
      refine ⟨(invocation, wait) :: turns, final, rfl, ?_, ?_⟩
      · exact List.forall_mem_cons.mpr ⟨inTime, allInTime⟩
      · exact (Step.run_cons_of_eq taken turns).trans reached

end

end Mini2440.Eeprom
