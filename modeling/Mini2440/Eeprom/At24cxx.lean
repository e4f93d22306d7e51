import Mini2440.Lib.Overlay
import Mini2440.Lib.Transition
import Mini2440.I2c.At24cxx

/-!
# The EEPROM as an array of bytes

The driver `19th_i2c_drv/5th/at24cxx.c` over any `i2c_transfer`, and over a chip that
keeps 256 bytes and an address pointer of its own.  Writes, reads and failed transfers all
move the pointer; a read does not depend on it, because its first message sets it.  So the
driver implements an array of bytes, whatever calls come before and whichever of their
transfers fail.
-/

namespace Mini2440.Eeprom

open I2c (I2cMsg ReadFrame readMsgs writeMsgs)
open Overlay Transition

/-- Kernel memory, or the bytes of a buffer by their offset. -/
abbrev Mem := Nat → UInt8

/-! ## The driver -/

/-- A buffer of the caller, and the offsets that the driver has read or written. -/
structure UserBuf where
  bytes : Mem
  touched : List Nat

namespace UserBuf

/-- `copy_from_user` of the first `len` bytes. -/
def copyFromUser (len : Nat) (user : UserBuf) : UserBuf :=
  { user with touched := user.touched ++ List.range len }

/-- `copy_to_user` of one byte. -/
def copyToUser (byte : UInt8) (user : UserBuf) : UserBuf :=
  { bytes := Function.update user.bytes 0 byte, touched := user.touched ++ [0] }

@[simp] theorem copyFromUser_bytes (len : Nat) (user : UserBuf) :
    (user.copyFromUser len).bytes = user.bytes := rfl

@[simp] theorem copyToUser_bytes (byte : UInt8) (user : UserBuf) :
    (user.copyToUser byte).bytes = Function.update user.bytes 0 byte := rfl

end UserBuf

section Driver

variable {m : Type → Type} [Monad m]

/-- `at24cxx_read`; `mem` is the kernel memory that holds its locals. -/
def at24cxxRead (i2cTransfer : List I2cMsg → Mem → m (Int × Mem)) (client : UInt16)
    (frame : ReadFrame) (mem : Mem) (user : UserBuf) (size : Nat) : m (Int × UserBuf) := do
  if size ≠ 1 then
    return (-1, user)
  let user := user.copyFromUser 1
  let mem := Function.update mem frame.addr (user.bytes 0)
  let (iRet, mem) ← i2cTransfer (readMsgs client frame) mem
  if iRet = 2 then
    return (1, user.copyToUser (mem frame.data))
  else
    return (-1, user)

/-- `at24cxx_write`, whose local `val` takes the address and the data. -/
def at24cxxWrite (i2cTransfer : List I2cMsg → Mem → m (Int × Mem)) (client : UInt16)
    (val : Nat) (mem : Mem) (user : UserBuf) (size : Nat) : m (Int × UserBuf) := do
  if size ≠ 2 then
    return (-1, user)
  let user := user.copyFromUser 2
  let mem := Function.update (Function.update mem val (user.bytes 0)) (val + 1) (user.bytes 1)
  let (iRet, _) ← i2cTransfer (writeMsgs client val) mem
  if iRet = 1 then
    return (2, user)
  else
    return (-1, user)

end Driver

/-! ## The chip -/

/-- What the chip keeps, and its internal address pointer. -/
structure Chip where
  contents : UInt8 → UInt8
  pointer : UInt8

namespace Chip

/-- The bytes of a write message after the first one, from the pointer onwards. -/
def store (chip : Chip) : List UInt8 → Chip
  | [] => chip
  | byte :: bytes =>
      store ⟨Function.update chip.contents chip.pointer byte, chip.pointer + 1⟩ bytes

/-- A write message: its first byte is the new pointer. -/
def accept (chip : Chip) : List UInt8 → Chip
  | [] => chip
  | addr :: bytes => store { chip with pointer := addr } bytes

/-- A read message of `len` bytes is answered from the pointer onwards. -/
def answer (chip : Chip) (buf : Nat) : Nat → Mem → Chip × Mem
  | 0, mem => (chip, mem)
  | len + 1, mem =>
      answer { chip with pointer := chip.pointer + 1 } (buf + 1) len
        (Function.update mem buf (chip.contents chip.pointer))

/-- One message of a transfer. -/
def serve (chip : Chip) (msg : I2cMsg) (mem : Mem) : Chip × Mem :=
  if msg.isRead then
    chip.answer msg.buf msg.len.toNat mem
  else
    (chip.accept ((List.range msg.len.toNat).map fun index => mem (msg.buf + index)), mem)

/-- A combined transfer: the messages in order. -/
def serveAll (chip : Chip) : List I2cMsg → Mem → Chip × Mem
  | [], mem => (chip, mem)
  | msg :: rest, mem =>
      let (chip, mem) := chip.serve msg mem
      serveAll chip rest mem

end Chip

/-- How a transfer of `num` messages ends.  A failure returns anything but `num`, leaves
the pointer anywhere and the memory that the messages name with any bytes. -/
inductive Outcome (num : Int) where
  | success
  | failure (value : Int) (other : value ≠ num) (pointer : UInt8) (mem : Mem)

/-- The transfer ends well. -/
def Outcome.succeeds {num : Int} : Outcome num → Bool
  | .success => true
  | .failure .. => false

/-- `i2c_transfer` on the bus of the chip. -/
def transfer {num : Int} (outcome : Outcome num) (msgs : List I2cMsg) (mem : Mem) :
    StateM Chip (Int × Mem) := fun chip =>
  match outcome with
  | .success =>
      let (chip, mem) := chip.serveAll msgs mem
      ((msgs.length, mem), chip)
  | .failure value _ pointer mem => ((value, mem), { chip with pointer := pointer })

/-! ## Calls -/

/-- A call of the driver: where its locals are and what memory holds before it, the
caller's buffer, the size, and how the transfer ends if there is one. -/
inductive Call where
  | read (frame : ReadFrame) (mem user : Mem) (size : Nat) (outcome : Outcome 2)
  | write (val : Nat) (mem user : Mem) (size : Nat) (outcome : Outcome 1)

namespace Call

/-- The caller's buffer. -/
def user : Call → Mem
  | .read _ _ user _ _ | .write _ _ user _ _ => user

/-- The size that the caller asks for. -/
def size : Call → Nat
  | .read _ _ _ size _ | .write _ _ _ size _ => size

/-- The call of the driver. -/
def perform (client : UInt16) : Call → StateM Chip (Int × UserBuf)
  | .read frame mem user size outcome =>
      at24cxxRead (transfer outcome) client frame mem ⟨user, []⟩ size
  | .write val mem user size outcome =>
      at24cxxWrite (transfer outcome) client val mem ⟨user, []⟩ size

end Call

/-- The chip, and the calls made so far with their results. -/
structure System where
  chip : Chip
  log : List (Call × Int)

/-- A call of the driver for the client at address `client`. -/
def System.step (client : UInt16) : Step System Call := fun system call =>
  let ((value, _), chip) := (call.perform client).run system.chip
  some ⟨chip, system.log ++ [(call, value)]⟩

/-- The address and the byte of an `at24cxx_write` that returned 2. -/
def written : Call × Int → Option (UInt8 × UInt8)
  | (.write _ _ user _ _, value) => if value = 2 then some (user 0, user 1) else none
  | (.read .., _) => none

/-- The array of bytes that the calls have left: at each address the byte last written by
an `at24cxx_write` that returned 2, the initial content if there is none. -/
def lastWritten (initial : UInt8 → UInt8) (log : List (Call × Int)) : UInt8 → UInt8 :=
  overlay initial (log.filterMap written)

/-- A call fails with the memory and the caller's buffer unchanged or returns its byte
count, and a read that returns 1 delivers the byte last written to the address it was
given. -/
structure Correct (client : UInt16) (initial : UInt8 → UInt8) (system : System)
    (call : Call) : Prop where
  failed_or_count : ∀ value user chip,
    (call.perform client).run system.chip = ((value, user), chip) →
      (value < 0 ∧ chip.contents = system.chip.contents ∧ user.bytes = call.user) ∨
        value = call.size
  reads : ∀ frame mem bytes size outcome, call = .read frame mem bytes size outcome →
    ∀ user chip, (call.perform client).run system.chip = ((1, user), chip) →
      user.bytes = Function.update bytes 0 (lastWritten initial system.log (bytes 0))

/-! ## What a call does -/

theorem serveAll_readMsgs (chip : Chip) (client : UInt16) (frame : ReadFrame) (mem : Mem)
    (addr : UInt8) :
    chip.serveAll (readMsgs client frame) (Function.update mem frame.addr addr) =
      ({ chip with pointer := addr + 1 },
        Function.update (Function.update mem frame.addr addr) frame.data
          (chip.contents addr)) := by
  simp [readMsgs, Chip.serveAll, Chip.serve, I2cMsg.isRead, I2c.I2C_M_RD, Chip.accept,
    Chip.store, Chip.answer]

theorem serveAll_writeMsgs (chip : Chip) (client : UInt16) (val : Nat) (mem : Mem)
    (addr byte : UInt8) :
    (chip.serveAll (writeMsgs client val)
      (Function.update (Function.update mem val addr) (val + 1) byte)).1 =
      ⟨Function.update chip.contents addr byte, addr + 1⟩ := by
  simp [writeMsgs, Chip.serveAll, Chip.serve, I2cMsg.isRead, Chip.accept, Chip.store,
    List.range_succ]

/-- A failed transfer. -/
theorem run_transfer_failure {num value : Int} (other : value ≠ num) (pointer : UInt8)
    (after : Mem) (msgs : List I2cMsg) (mem : Mem) (chip : Chip) :
    (transfer (.failure value other pointer after) msgs mem).run chip =
      pure ((value, after), { chip with pointer := pointer }) := rfl

theorem run_transfer_success {num : Int} (msgs : List I2cMsg) (mem : Mem) (chip : Chip) :
    (transfer (.success : Outcome num) msgs mem).run chip =
      pure (((msgs.length : Int), (chip.serveAll msgs mem).2), (chip.serveAll msgs mem).1) :=
  rfl

/-- How a read ends; the old pointer appears in none of the cases. -/
theorem run_read (client : UInt16) (chip : Chip) (frame : ReadFrame) (mem bytes : Mem)
    (size : Nat) (outcome : Outcome 2) :
    ∃ value user pointer,
      ((Call.read frame mem bytes size outcome).perform client).run chip =
        ((value, user), { chip with pointer := pointer }) ∧
      (((size ≠ 1 ∨ outcome.succeeds = false) ∧ value = -1 ∧ user.bytes = bytes) ∨
        (size = 1 ∧ outcome.succeeds = true ∧ value = 1 ∧
          user.bytes = Function.update bytes 0 (chip.contents (bytes 0)))) := by
  simp only [Call.perform, at24cxxRead]
  split
  next other => exact ⟨_, _, chip.pointer, rfl, .inl ⟨.inl other, rfl, rfl⟩⟩
  next one =>
      have one : size = 1 := not_not.mp one
      simp only [StateT.run_bind]
      cases outcome with
      | success =>
          rw [run_transfer_success, UserBuf.copyFromUser_bytes, serveAll_readMsgs, pure_bind]
          refine ⟨_, _, bytes 0 + 1, rfl, .inr ⟨one, rfl, rfl, ?_⟩⟩
          simp
      | failure value other pointer after =>
          rw [run_transfer_failure, pure_bind]
          simp only [if_neg other]
          exact ⟨_, _, pointer, rfl, .inl ⟨.inr rfl, rfl, rfl⟩⟩

theorem run_write (client : UInt16) (chip : Chip) (val : Nat) (mem bytes : Mem)
    (size : Nat) (outcome : Outcome 1) :
    ∃ value user after,
      ((Call.write val mem bytes size outcome).perform client).run chip =
        ((value, user), after) ∧
      user.bytes = bytes ∧
      (((size ≠ 2 ∨ outcome.succeeds = false) ∧ value = -1 ∧
          after.contents = chip.contents) ∨
        (size = 2 ∧ outcome.succeeds = true ∧ value = 2 ∧
          after.contents = Function.update chip.contents (bytes 0) (bytes 1))) := by
  simp only [Call.perform, at24cxxWrite]
  split
  next other => exact ⟨_, _, chip, rfl, rfl, .inl ⟨.inl other, rfl, rfl⟩⟩
  next two =>
      have two : size = 2 := not_not.mp two
      simp only [StateT.run_bind]
      cases outcome with
      | success =>
          rw [run_transfer_success, UserBuf.copyFromUser_bytes, serveAll_writeMsgs, pure_bind]
          exact ⟨_, _, _, rfl, rfl, .inr ⟨two, rfl, rfl, rfl⟩⟩
      | failure value other pointer after =>
          rw [run_transfer_failure, pure_bind]
          simp only [if_neg other]
          exact ⟨_, _, _, rfl, rfl, .inl ⟨.inr rfl, rfl, rfl⟩⟩

/-! ## The simulation -/

/-- The contents of the chip are the array; the pointer does not matter. -/
def System.Simulates (initial : UInt8 → UInt8) (system : System) : Prop :=
  system.chip.contents = lastWritten initial system.log

theorem lastWritten_append (initial : UInt8 → UInt8) (log : List (Call × Int))
    (entry : Call × Int) :
    lastWritten initial (log ++ [entry]) =
      overlay (lastWritten initial log) (written entry).toList := by
  rw [lastWritten, List.filterMap_append, overlay_append]
  cases result : written entry <;> simp [result, lastWritten]

theorem step_simulates (client : UInt16) (initial : UInt8 → UInt8) :
    (System.step client).Preserves (fun _ _ => True) (System.Simulates initial) := by
  intro system call next simulates _ taken
  unfold System.Simulates at simulates ⊢
  cases call with
  | read frame mem bytes size outcome =>
      obtain ⟨value, user, pointer, ran, -⟩ :=
        run_read client system.chip frame mem bytes size outcome
      simp only [System.step, ran] at taken
      obtain rfl := Option.some.inj taken
      rw [lastWritten_append, ← simulates]
      rfl
  | write val mem bytes size outcome =>
      obtain ⟨value, user, after, ran, -, ended⟩ :=
        run_write client system.chip val mem bytes size outcome
      simp only [System.step, ran] at taken
      obtain rfl := Option.some.inj taken
      rw [lastWritten_append, ← simulates]
      rcases ended with ⟨-, rfl, unchanged⟩ | ⟨-, -, rfl, changed⟩
      · exact unchanged
      · exact changed

theorem System.Simulates.correct {initial : UInt8 → UInt8} {system : System}
    (simulates : system.Simulates initial) (client : UInt16) (call : Call) :
    Correct client initial system call := by
  constructor
  case failed_or_count =>
    intro value user chip performed
    cases call with
    | read frame mem bytes size outcome =>
        obtain ⟨_, _, _, ran, ended⟩ := run_read client system.chip frame mem bytes size outcome
        rw [ran] at performed
        cases performed
        rcases ended with ⟨-, rfl, unchanged⟩ | ⟨one, -, rfl, -⟩
        · exact .inl ⟨by decide, rfl, unchanged⟩
        · exact .inr (congrArg Nat.cast one.symm)
    | write val mem bytes size outcome =>
        obtain ⟨_, _, _, ran, unchanged, ended⟩ :=
          run_write client system.chip val mem bytes size outcome
        rw [ran] at performed
        cases performed
        rcases ended with ⟨-, rfl, contents⟩ | ⟨two, -, rfl, -⟩
        · exact .inl ⟨by decide, contents, unchanged⟩
        · exact .inr (congrArg Nat.cast two.symm)
  case reads =>
    rintro frame mem bytes size outcome rfl user chip performed
    obtain ⟨_, _, _, ran, ended⟩ := run_read client system.chip frame mem bytes size outcome
    rw [ran] at performed
    cases performed
    rcases ended with ⟨-, contra, -⟩ | ⟨-, -, -, delivered⟩
    · contradiction
    · rw [delivered, simulates]

/-- For every sequence of reads and writes of any size and content, whichever of their
transfers fail and wherever these leave the chip's pointer, the driver is an array of
bytes. -/
theorem at24cxx_refines_array (client : UInt16) (chip : Chip) (calls : List Call) :
    (System.step client).Along (Correct client chip.contents) ⟨chip, []⟩ calls := by
  have always : (System.step client).Along (fun _ _ => True) ⟨chip, []⟩ calls :=
    Step.along_of_splits fun _ _ _ _ _ _ => trivial
  refine (step_simulates client chip.contents).strengthen ?_ rfl always
  intro system call simulates _
  exact simulates.correct client call

end Mini2440.Eeprom
