import Mini2440.Eeprom.At24cxx

/-!
# The EEPROM over SMBus

The driver `21th_i2c_drv/4th_drv_dev_test/at24cxx_drv.c`, which offers the same device
file through the SMBus calls.  It does not look at the size of a request, and it takes
whatever a read of the bus returns for the byte.  The results say on which requests it
meets what the file promises and agrees with the driver over messages.
-/

namespace Mini2440.Eeprom.Smbus

open I2c (ReadFrame)

/-- The error number of a failed write. -/
def EIO : Int := 5

/-! ## The driver -/

section Driver

variable {m : Type → Type} [Monad m]

/-- `at24cxx_read`: the size is not looked at, and the result becomes an `unsigned char`. -/
def at24cxxRead (i2cSmbusReadByteData : UInt8 → m Int) (user : UserBuf) (_size : Nat) :
    m (Int × UserBuf) := do
  let user := user.copyFromUser 1
  let data ← i2cSmbusReadByteData (user.bytes 0)
  return (1, user.copyToUser (UInt8.ofInt data))

/-- `at24cxx_write`: the size is not looked at. -/
def at24cxxWrite (i2cSmbusWriteByteData : UInt8 → UInt8 → m Int) (user : UserBuf)
    (_size : Nat) : m (Int × UserBuf) := do
  let user := user.copyFromUser 2
  let result ← i2cSmbusWriteByteData (user.bytes 0) (user.bytes 1)
  if result = 0 then
    return (2, user)
  else
    return (- EIO, user)

end Driver

/-! ## The bus -/

/-- How an SMBus call ends; a failure returns a negative error and may move the pointer of
the chip. -/
inductive SmbusOutcome where
  | success
  | failure (error : Int) (negative : error < 0) (pointer : UInt8)

/-- The call ends well. -/
def SmbusOutcome.succeeds : SmbusOutcome → Bool
  | .success => true
  | .failure .. => false

/-- `i2c_smbus_read_byte_data`: the byte that the chip keeps at `command`, as an `int`. -/
def i2cSmbusReadByteData (outcome : SmbusOutcome) (command : UInt8) : StateM Chip Int :=
  fun chip =>
    match outcome with
    | .success =>
        ((chip.contents command).toNat, { chip with pointer := command + 1 })
    | .failure error _ pointer => (error, { chip with pointer := pointer })

/-- `i2c_smbus_write_byte_data`: 0 with the byte stored at `command`. -/
def i2cSmbusWriteByteData (outcome : SmbusOutcome) (command value : UInt8) :
    StateM Chip Int := fun chip =>
  match outcome with
  | .success => (0, ⟨Function.update chip.contents command value, command + 1⟩)
  | .failure error _ pointer => (error, { chip with pointer := pointer })

/-! ## What a request has to do -/

/-- What a call leaves: its value, the caller's buffer, the chip. -/
abbrev Done := (Int × UserBuf) × Chip

/-- A result is a success of the transfer inside the caller's buffer, a failure leaves that
buffer alone, and the driver over messages does the same with the request, up to the
error number. -/
structure Meets (succeeds : Bool) (bytes : Mem) (size : Nat) (done message : Done) :
    Prop where
  accepted : 0 ≤ done.1.1 → succeeds = true ∧
    (∀ offset ∈ done.1.2.touched, offset < size) ∧ done.1.1 ≤ size
  failed : succeeds = false → done.1.1 < 0 ∧ done.1.2.bytes = bytes
  failsAlike : done.1.1 < 0 ↔ message.1.1 < 0
  deliversAlike : 0 ≤ done.1.1 → done.1.1 = message.1.1 ∧
    done.1.2.bytes = message.1.2.bytes ∧ done.2.contents = message.2.contents

/-- A read meets the law, compared with a read over messages whose transfer ends alike. -/
def ReadMeets (chip : Chip) (bytes : Mem) (size : Nat) (outcome : SmbusOutcome) : Prop :=
  ∀ client frame mem (message : Outcome 2), message.succeeds = outcome.succeeds →
    Meets outcome.succeeds bytes size
      ((at24cxxRead (i2cSmbusReadByteData outcome) ⟨bytes, []⟩ size).run chip)
      (((Call.read frame mem bytes size message).perform client).run chip)

/-- A write meets the law, compared with a write over messages whose transfer ends alike. -/
def WriteMeets (chip : Chip) (bytes : Mem) (size : Nat) (outcome : SmbusOutcome) : Prop :=
  ∀ client val mem (message : Outcome 1), message.succeeds = outcome.succeeds →
    Meets outcome.succeeds bytes size
      ((at24cxxWrite (i2cSmbusWriteByteData outcome) ⟨bytes, []⟩ size).run chip)
      (((Call.write val mem bytes size message).perform client).run chip)

/-! ## How a call ends -/

/-- Back in a byte, the byte that came as an `int` is what it was. -/
theorem ofInt_toNat (byte : UInt8) : UInt8.ofInt byte.toNat = byte := by
  have small := byte.toNat_lt
  have same : ((byte.toNat : Int) % 2 ^ 8).toNat = byte.toNat := by omega
  rw [UInt8.ofInt, same, UInt8.ofNat_toNat]

/-- A read returns 1, with the byte or with the low bits of the error. -/
theorem run_at24cxxRead (chip : Chip) (bytes : Mem) (size : Nat) (outcome : SmbusOutcome) :
    ∃ user pointer,
      (at24cxxRead (i2cSmbusReadByteData outcome) ⟨bytes, []⟩ size).run chip =
        ((1, user), { chip with pointer := pointer }) ∧
      user.touched = [0, 0] ∧
      (outcome.succeeds = true →
        user.bytes = Function.update bytes 0 (chip.contents (bytes 0))) := by
  cases outcome with
  | success =>
      refine ⟨_, bytes 0 + 1, rfl, rfl, fun _ => ?_⟩
      simp [ofInt_toNat]
  | failure error negative pointer =>
      refine ⟨_, pointer, rfl, rfl, ?_⟩
      intro succeeds
      contradiction

theorem run_writeFailure {error : Int} (negative : error < 0) (pointer command value : UInt8)
    (chip : Chip) :
    (i2cSmbusWriteByteData (.failure error negative pointer) command value).run chip =
      pure (error, { chip with pointer := pointer }) := rfl

/-- A write takes two bytes from the caller, and tells whether the transfer succeeded. -/
theorem run_at24cxxWrite (chip : Chip) (bytes : Mem) (size : Nat) (outcome : SmbusOutcome) :
    ∃ value after,
      (at24cxxWrite (i2cSmbusWriteByteData outcome) ⟨bytes, []⟩ size).run chip =
        ((value, ⟨bytes, [0, 1]⟩), after) ∧
      ((outcome.succeeds = true ∧ value = 2 ∧
          after.contents = Function.update chip.contents (bytes 0) (bytes 1)) ∨
        (outcome.succeeds = false ∧ value = - EIO)) := by
  cases outcome with
  | success => exact ⟨_, _, rfl, .inl ⟨rfl, rfl, rfl⟩⟩
  | failure error negative pointer =>
      refine ⟨- EIO, { chip with pointer := pointer }, ?_, .inr ⟨rfl, rfl⟩⟩
      simp only [at24cxxWrite, StateT.run_bind]
      rw [run_writeFailure, pure_bind]
      simp only [if_neg (Int.ne_of_lt negative)]
      rfl

/-! ## When a request is met -/

/-- Over messages too a transfer can end the same way. -/
theorem exists_alike (num : Int) (outcome : SmbusOutcome) :
    ∃ message : Outcome num, message.succeeds = outcome.succeeds := by
  cases outcome with
  | success => exact ⟨.success, rfl⟩
  | failure => exact ⟨.failure (num + 1) (by omega) 0 fun _ => 0, rfl⟩

theorem readMeets_iff (chip : Chip) (bytes : Mem) (size : Nat) (outcome : SmbusOutcome) :
    ReadMeets chip bytes size outcome ↔ outcome.succeeds = true ∧ size = 1 := by
  obtain ⟨user, pointer, ran, touched, delivered⟩ :=
    run_at24cxxRead chip bytes size outcome
  constructor
  · intro meets
    obtain ⟨message, alike⟩ := exists_alike 2 outcome
    have law := meets 0 ⟨0, 1, by decide⟩ bytes message alike
    obtain ⟨value, user', pointer', messageRan, ended⟩ :=
      run_read 0 chip ⟨0, 1, by decide⟩ bytes bytes size message
    rw [ran, messageRan] at law
    refine ⟨(law.accepted Int.one_nonneg).1, ?_⟩
    have same : 1 = value := (law.deliversAlike Int.one_nonneg).1
    rcases ended with ⟨-, negative, -⟩ | ⟨one, -⟩
    · omega
    · exact one
  · rintro ⟨succeeds, rfl⟩ client frame mem message alike
    obtain ⟨value, user', pointer', messageRan, ended⟩ :=
      run_read client chip frame mem bytes 1 message
    rw [ran, messageRan]
    rcases ended with ⟨other | fails, -⟩ | ⟨-, -, rfl, messageDelivered⟩
    · contradiction
    · rw [alike, succeeds] at fails
      contradiction
    · constructor
      case accepted => exact fun _ => ⟨succeeds, by simp [touched], Int.le_refl 1⟩
      case failed =>
        intro fails
        rw [succeeds] at fails
        contradiction
      case failsAlike => rfl
      case deliversAlike =>
        intro _
        exact ⟨rfl, (delivered succeeds).trans messageDelivered.symm, rfl⟩

theorem writeMeets_iff (chip : Chip) (bytes : Mem) (size : Nat) (outcome : SmbusOutcome) :
    WriteMeets chip bytes size outcome ↔ outcome.succeeds = false ∨ size = 2 := by
  obtain ⟨value, after, ran, result⟩ := run_at24cxxWrite chip bytes size outcome
  constructor
  · intro meets
    rcases result with ⟨succeeds, rfl, -⟩ | ⟨fails, -⟩
    · right
      obtain ⟨message, alike⟩ := exists_alike 1 outcome
      have law := meets 0 0 bytes message alike
      obtain ⟨value', user', after', messageRan, -, ended⟩ :=
        run_write 0 chip 0 bytes bytes size message
      rw [ran, messageRan] at law
      have same : 2 = value' := (law.deliversAlike (Int.natCast_nonneg 2)).1
      rcases ended with ⟨-, negative, -⟩ | ⟨two, -⟩
      · omega
      · exact two
    · exact .inl fails
  · intro condition client val mem message alike
    obtain ⟨value', user', after', messageRan, bytes_eq, ended⟩ :=
      run_write client chip val mem bytes size message
    rw [ran, messageRan]
    rcases result with ⟨succeeds, rfl, stored⟩ | ⟨fails, rfl⟩
    · have two : size = 2 := condition.resolve_left (by simp [succeeds])
      rcases ended with ⟨other | failed, -⟩ | ⟨-, -, rfl, messageStored⟩
      · contradiction
      · rw [alike, succeeds] at failed
        contradiction
      · constructor
        case accepted => exact fun _ => ⟨succeeds, by simp [two], by simp [two]⟩
        case failed =>
          intro failed
          rw [succeeds] at failed
          contradiction
        case failsAlike => rfl
        case deliversAlike =>
          intro _
          exact ⟨rfl, bytes_eq.symm, stored.trans messageStored.symm⟩
    · have messageFails : value' = -1 := by
        rcases ended with ⟨-, negative, -⟩ | ⟨-, succeeds, -⟩
        · exact negative
        · rw [alike, fails] at succeeds
          contradiction
      have refused : - EIO < 0 := by decide
      constructor
      case accepted => exact fun accepted => absurd accepted (Int.not_le.mpr refused)
      case failed => exact fun _ => ⟨refused, rfl⟩
      case failsAlike => simp [messageFails, EIO]
      case deliversAlike => exact fun accepted => absurd accepted (Int.not_le.mpr refused)

/-- For every chip, buffer, size and outcome: a read meets the law exactly when one byte is
asked for and the transfer succeeds, a write exactly when two bytes are given or the
transfer fails. -/
theorem meets_iff (chip : Chip) (bytes : Mem) (size : Nat) (outcome : SmbusOutcome) :
    (ReadMeets chip bytes size outcome ↔ outcome.succeeds = true ∧ size = 1) ∧
      (WriteMeets chip bytes size outcome ↔ outcome.succeeds = false ∨ size = 2) :=
  ⟨readMeets_iff chip bytes size outcome, writeMeets_iff chip bytes size outcome⟩

/-- A chip whose bytes are all erased. -/
def erased : Chip := ⟨fun _ => 0xff, 0⟩

/-- A read of one byte that fails with `-ENXIO` returns 1 and delivers 250; a read of no
byte and a write of one byte succeed outside the caller's buffer, and a read of two bytes
succeeds where the driver over messages refuses it. -/
theorem erased_not_met :
    ¬ ReadMeets erased (fun _ => 0) 1 (.failure (-6) (by decide) 0) ∧
      (∃ user chip,
        (at24cxxRead (i2cSmbusReadByteData (.failure (-6) (by decide) 0))
          ⟨fun _ => 0, []⟩ 1).run erased = ((1, user), chip) ∧ user.bytes 0 = 250) ∧
      ¬ ReadMeets erased (fun _ => 0) 0 .success ∧ ¬ ReadMeets erased (fun _ => 0) 2 .success ∧
      ¬ WriteMeets erased (fun _ => 0) 1 .success := by
  refine ⟨?_, ⟨_, _, rfl, by decide⟩, ?_, ?_, ?_⟩
  · rw [readMeets_iff]
    decide
  · rw [readMeets_iff]
    decide
  · rw [readMeets_iff]
    decide
  · rw [writeMeets_iff]
    decide

end Mini2440.Eeprom.Smbus
