import Mini2440.Lib.Transition
import Mini2440.Buttons.Pins
import Mathlib.Logic.Function.Basic
import Mathlib.Data.Fin.VecNotation

/-!
# The buttons as a character device

The read logic that five drivers share, `third_drv.c`, `forth_drv.c`, `asyn.c`,
`sixth_drv.c` and `buttons_all.c`, with any number of readers of the open file.  A read
takes three steps, the test of `ev_press` (or the sleep until it is set), the copy of
`g_save_key_val` to the user, and the clearing of `ev_press`; the handlers run between
any two of them.  The first four drivers raise a key event in the interrupt, the last one
in the debounce timer.
-/

namespace Mini2440.Buttons.CharDev

open Transition

/-- The kernel's error numbers. -/
def EINVAL : Int := 22
def EAGAIN : Int := 11
def EFAULT : Int := 14

/-! ## The handlers -/

/-- The drivers that share the read function. -/
inductive Driver where
  | thirdDrv
  | forthDrv
  | fifthDrv
  | sixthDrv
  | buttonsAll
  deriving DecidableEq, Repr

/-- `struct pin_desc`: the bit of the pin in GPGDAT, and the value when pressed. -/
structure PinDesc where
  pin : UInt32
  keyVal : UInt32
  deriving DecidableEq, Repr

/-- `pin_desc[6]`. -/
def pinDesc : Fin 6 → PinDesc :=
  ![⟨0, 0x01⟩, ⟨3, 0x02⟩, ⟨5, 0x03⟩, ⟨6, 0x04⟩, ⟨7, 0x05⟩, ⟨11, 0x06⟩]

/-- The static variables; `irqPd` and `timer` are those of `buttons_all.c`. -/
structure Dev where
  evPress : Bool
  gSaveKeyVal : UInt8
  irqPd : Option (Fin 6)
  timer : Bool
  deriving DecidableEq, Repr

namespace Dev

/-- Save the value of the key and set `ev_press`. -/
def raise (pindesc : Fin 6) (level : Fin 6 → Bool) (dev : Dev) : Dev :=
  let dev :=
    if gpioGetpin (pinDesc pindesc).pin (level pindesc) ≠ 0 then
      { dev with gSaveKeyVal := (0x80 ||| (pinDesc pindesc).keyVal).toUInt8 }
    else
      { dev with gSaveKeyVal := (pinDesc pindesc).keyVal.toUInt8 }
  { dev with evPress := true }

/-- `buttons_timerout_function` of `buttons_all.c`. -/
def buttonsTimeroutFunction (level : Fin 6 → Bool) (dev : Dev) : Dev :=
  match dev.irqPd with
  | none => dev
  | some pindesc => dev.raise pindesc level

end Dev

/-- The value that stands for a button and its level: bit 7 tells that it is released. -/
def keyValue (pindesc : Fin 6) (high : Bool) : UInt8 :=
  if high then (0x80 ||| (pinDesc pindesc).keyVal).toUInt8 else (pinDesc pindesc).keyVal.toUInt8

theorem Dev.raise_eq (pindesc : Fin 6) (level : Fin 6 → Bool) (dev : Dev) :
    dev.raise pindesc level =
      { dev with evPress := true, gSaveKeyVal := keyValue pindesc (level pindesc) } := by
  simp only [raise, keyValue, gpioGetpin_ne_zero]
  split <;> rfl

/-- `buttons_irq` of the five drivers. -/
def Driver.buttonsIrq (driver : Driver) (devId : Fin 6) (level : Fin 6 → Bool) (dev : Dev) :
    Dev :=
  match driver with
  | .thirdDrv | .forthDrv | .fifthDrv | .sixthDrv => dev.raise devId level
  | .buttonsAll => { dev with irqPd := some devId, timer := true }

/-- The calls of the handlers, with the levels of the pins. -/
inductive Handler where
  | irq (devId : Fin 6) (level : Fin 6 → Bool)
  | expire (level : Fin 6 → Bool)

/-- A call of a handler; the timer function is called only while the timer is pending. -/
def Driver.handle (driver : Driver) (dev : Dev) : Handler → Option Dev
  | .irq devId level => some (driver.buttonsIrq devId level dev)
  | .expire level =>
      if dev.timer then some ({ dev with timer := false }.buttonsTimeroutFunction level)
      else none

/-- The call raises a key event: it sets `ev_press`. -/
def Driver.raises (driver : Driver) (dev : Dev) (handler : Handler) : Bool :=
  (driver.handle { dev with evPress := false } handler).any (·.evPress)

/-! ## The readers -/

/-- Where a process is in the read function.  A reader that has copied keeps the value,
and which key event it belongs to, counted from 1. -/
inductive Pc where
  | idle
  | testing (nonblock : Bool)
  | copying
  | clearing (value : UInt8) (event : Nat)
  deriving DecidableEq, Repr

/-- The four ways out of a read. -/
inductive ReadResult where
  | einval
  | eagain
  | efault
  | one (value : UInt8) (event : Nat)
  deriving DecidableEq, Repr

/-- What `read` returns. -/
def ReadResult.code : ReadResult → Int
  | .einval => -EINVAL
  | .eagain => -EAGAIN
  | .efault => -EFAULT
  | .one .. => 1

/-- Only `sixth_drv_read` looks at `O_NONBLOCK`. -/
def Driver.honoursNonblock : Driver → Bool
  | .sixthDrv | .buttonsAll => true
  | .thirdDrv | .forthDrv | .fifthDrv => false

/-- The device with its readers, the values of the key events raised so far, and what the
reads have returned. -/
structure System (Pid : Type*) where
  dev : Dev
  pc : Pid → Pc
  raised : List UInt8
  returned : List (Pid × ReadResult)

/-- What can happen next: a call of a handler, or a step of a read. -/
inductive Event (Pid : Type*) where
  | handler (handler : Handler)
  | read (pid : Pid) (size : Nat) (nonblock : Bool)
  /-- The reader tests `ev_press`, for the first time or after a wake-up. -/
  | test (pid : Pid)
  /-- A signal breaks the sleep of `wait_event_interruptible`. -/
  | signal (pid : Pid)
  | copy (pid : Pid) (copied : Bool)
  | clear (pid : Pid)

variable {Pid : Type*} [DecidableEq Pid]

namespace System

/-- The module is loaded and the device open; the timer of `buttons_all.c` is on the
list. -/
def initial : System Pid where
  dev := ⟨false, 0, none, true⟩
  pc := fun _ => .idle
  raised := []
  returned := []

/-- One reader goes on. -/
def setPc (system : System Pid) (pid : Pid) (pc : Pc) : System Pid :=
  { system with pc := Function.update system.pc pid pc }

/-- A read returns. -/
def finish (system : System Pid) (pid : Pid) (result : ReadResult) : System Pid :=
  { system.setPc pid .idle with returned := system.returned ++ [(pid, result)] }

/-- The handlers and the readers, in any order. -/
def step (driver : Driver) : Step (System Pid) (Event Pid)
  | system, .handler handler =>
      (driver.handle system.dev handler).map fun dev =>
        { system with
          dev := dev
          raised :=
            if driver.raises system.dev handler then system.raised ++ [dev.gSaveKeyVal]
            else system.raised }
  | system, .read pid size nonblock =>
      match system.pc pid with
      | .idle =>
          if size ≠ 1 then some (system.finish pid .einval)
          else some (system.setPc pid (.testing (driver.honoursNonblock && nonblock)))
      | _ => none
  | system, .test pid =>
      match system.pc pid with
      | .testing nonblock =>
          if system.dev.evPress then some (system.setPc pid .copying)
          else if nonblock then some (system.finish pid .eagain)
          else some system
      | _ => none
  | system, .signal pid =>
      match system.pc pid with
      | .testing false => some (system.setPc pid .copying)
      | _ => none
  | system, .copy pid copied =>
      match system.pc pid with
      | .copying =>
          if copied then
            some (system.setPc pid (.clearing system.dev.gSaveKeyVal system.raised.length))
          else some (system.finish pid .efault)
      | _ => none
  | system, .clear pid =>
      match system.pc pid with
      | .clearing value event =>
          some { system.finish pid (.one value event) with
            dev := { system.dev with evPress := false } }
      | _ => none

end System

end Mini2440.Buttons.CharDev
