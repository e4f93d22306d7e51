import Mini2440.Buttons.ExclusiveOpen
import Mini2440.Lib.Registry
import Mathlib.Data.List.TakeWhile

/-!
# Modules side by side

What the init and exit functions of the sixteen drivers, and the open and close functions of
the button drivers, take from the kernel and give back.  Any of the modules can be loaded and
unloaded in any order, with files open meanwhile.  The kernel's books stay in order exactly
when some rules are kept: two modules have a class of one name, the users of the buttons' lines
exclude each other, five exit functions do not give back what init took, and what the display
has taken stays when its frame buffer is not accepted.

Timers are not in the books; `Mini2440.Unload` is about them.
-/

namespace Mini2440.Modules

open Transition Registry
open Buttons.ExclusiveOpen (Line lines)

/-! ## The kernel -/

/-- The names of the classes and of their devices. -/
inductive ClassName where
  | firstdrv
  | seconddrv
  | thirddrv
  | forthdrv
  | fifthdrv
  | sixthdrv
  deriving DecidableEq, Repr

/-- The interrupt lines that are requested. -/
inductive Irq where
  | button (line : Line)
  | tc
  | adc
  | iic
  deriving DecidableEq, Repr

/-- The clocks that are enabled. -/
inductive Clock where
  | adc
  | nand
  | i2c
  deriving DecidableEq, Repr

/-- What is allocated by `kzalloc`. -/
inductive Memory where
  | nandChip
  | mtdInfo
  | mapInfo
  | ramblockBuf
  deriving DecidableEq, Repr

/-- What the kernel hands out.  Mappings are told by their physical address. -/
inductive Resource where
  | chrdev
  | sysClass (name : ClassName)
  | device (name : ClassName)
  | mapping (address : Nat)
  | irq (irq : Irq)
  | clock (clock : Clock)
  | memory (memory : Memory)
  | inputDev
  | fbInfo
  | framebuffer
  | dmaBuffer
  | gendisk
  | addedDisk
  | requestQueue
  | blkdev
  | mapProbe
  | mtdDevice
  | netDevice
  | netRegistered
  | i2cAdapter
  | usbDriver
  deriving DecidableEq, Repr

/-- The kernel has one class of a name, and one handler on an interrupt line that is not
shared. -/
def exclusive : Resource → Bool
  | .sysClass _ | .device _ | .irq _ => true
  | _ => false

/-- The functions of the kernel that the drivers call. -/
inductive Call where
  | registerChrdev
  | unregisterChrdev
  | classCreate (name : ClassName)
  | classDestroy (name : ClassName)
  | deviceCreate (name : ClassName)
  | deviceDestroy (name : ClassName)
  | ioremap (address : Nat)
  | iounmap (address : Nat)
  | requestIrq (irq : Irq)
  | freeIrq (irq : Irq)
  | clkEnable (clock : Clock)
  | kzalloc (memory : Memory)
  | kfree (memory : Memory)
  | inputAllocateDevice
  | inputUnregisterDevice
  | inputFreeDevice
  | framebufferAlloc
  | framebufferRelease
  | registerFramebuffer
  | unregisterFramebuffer
  | dmaAllocWritecombine
  | dmaFreeWritecombine
  | allocDisk
  | putDisk
  | addDisk
  | delGendisk
  | blkInitQueue
  | blkCleanupQueue
  | registerBlkdev
  | unregisterBlkdev
  | doMapProbe
  | mtdDeviceParseRegister
  | mtdDeviceUnregister
  | allocNetdev
  | freeNetdev
  | registerNetdev
  | unregisterNetdev
  | i2cAddAdapter
  | i2cDelAdapter
  | usbRegister
  | usbDeregister
  deriving DecidableEq, Repr

namespace Call

/-- What a call takes from the kernel. -/
def takes : Call → Option Resource
  | .registerChrdev => some .chrdev
  | .classCreate name => some (.sysClass name)
  | .deviceCreate name => some (.device name)
  | .ioremap address => some (.mapping address)
  | .requestIrq irq => some (.irq irq)
  | .clkEnable clock => some (.clock clock)
  | .kzalloc memory => some (.memory memory)
  | .inputAllocateDevice => some .inputDev
  | .framebufferAlloc => some .fbInfo
  | .registerFramebuffer => some .framebuffer
  | .dmaAllocWritecombine => some .dmaBuffer
  | .allocDisk => some .gendisk
  | .addDisk => some .addedDisk
  | .blkInitQueue => some .requestQueue
  | .registerBlkdev => some .blkdev
  | .doMapProbe => some .mapProbe
  | .mtdDeviceParseRegister => some .mtdDevice
  | .allocNetdev => some .netDevice
  | .registerNetdev => some .netRegistered
  | .i2cAddAdapter => some .i2cAdapter
  | .usbRegister => some .usbDriver
  | _ => none

/-- The input core drops its reference to a device that is unregistered, which is the one that
`input_free_device` would drop. -/
def gives : Call → Option Resource
  | .unregisterChrdev => some .chrdev
  | .classDestroy name => some (.sysClass name)
  | .deviceDestroy name => some (.device name)
  | .iounmap address => some (.mapping address)
  | .freeIrq irq => some (.irq irq)
  | .kfree memory => some (.memory memory)
  | .inputUnregisterDevice => some .inputDev
  | .inputFreeDevice => some .inputDev
  | .framebufferRelease => some .fbInfo
  | .unregisterFramebuffer => some .framebuffer
  | .dmaFreeWritecombine => some .dmaBuffer
  | .putDisk => some .gendisk
  | .delGendisk => some .addedDisk
  | .blkCleanupQueue => some .requestQueue
  | .unregisterBlkdev => some .blkdev
  | .mtdDeviceUnregister => some .mtdDevice
  | .freeNetdev => some .netDevice
  | .unregisterNetdev => some .netRegistered
  | .i2cDelAdapter => some .i2cAdapter
  | .usbDeregister => some .usbDriver
  | _ => none

/-- The call takes nothing. -/
def takesNothing (call : Call) : Bool := call.takes.isNone

/-- The call gives nothing back. -/
def givesNothing (call : Call) : Bool := call.gives.isNone

end Call

/-- What some calls take, in order. -/
def takes (calls : List Call) : List Resource := calls.filterMap Call.takes

/-- What some calls give back, in order. -/
def gives (calls : List Call) : List Resource := calls.filterMap Call.gives

/-! ## The drivers -/

/-- The kernel's error numbers. -/
def EIO : Int := 5
def EAGAIN : Int := 11
def ENOMEM : Int := 12
def EINVAL : Int := 22

/-- What an init function may find: its device structure is allocated, and the kernel accepts
the frame buffer or finds a flash chip.  The other results of the kernel are not looked at. -/
structure Outcome where
  allocated : Bool
  accepted : Bool
  deriving DecidableEq, Repr

/-- The common part of the init functions of the character devices. -/
def charDevInit (name : ClassName) : List Call :=
  [.registerChrdev, .classCreate name, .deviceCreate name]

/-- The common part of their exit functions. -/
def charDevExit (name : ClassName) : List Call :=
  [.unregisterChrdev, .deviceDestroy name, .classDestroy name]

/-- Init and exit of `led/first_drv.c`. -/
def firstDrvInit : List Call := charDevInit .firstdrv ++ [.ioremap 0x56000010]
def firstDrvExit : List Call := charDevExit .firstdrv ++ [.iounmap 0x56000010]

/-- Init and exit of `2th-inquiry/second_drv.c`. -/
def secondDrvInit : List Call := charDevInit .seconddrv ++ [.ioremap 0x56000060]
def secondDrvExit : List Call := charDevExit .seconddrv ++ [.iounmap 0x56000060]

/-- Init and exit of `3th-interrupt/third_drv.c`. -/
def thirdDrvInit : List Call := charDevInit .thirddrv ++ [.ioremap 0x56000060]
def thirdDrvExit : List Call := charDevExit .thirddrv ++ [.iounmap 0x56000060]

/-- Init and exit of `4th-poll/forth_drv.c`. -/
def forthDrvInit : List Call := charDevInit .forthdrv
def forthDrvExit : List Call := charDevExit .forthdrv

/-- Init and exit of `5th-asynchronous/asyn.c`. -/
def fifthDrvInit : List Call := charDevInit .fifthdrv
def fifthDrvExit : List Call := charDevExit .fifthdrv

/-- Of `sixth_drv.c` and of `buttons_all.c`, whose classes have one name. -/
def sixthDrvInit : List Call := charDevInit .sixthdrv
def sixthDrvExit : List Call := charDevExit .sixthdrv

/-- Open of the button drivers, without the lock of the last two. -/
def buttonsOpen : List Call := lines.map fun line => .requestIrq (.button line)
def buttonsClose : List Call := lines.map fun line => .freeIrq (.button line)

/-- `input_sub_init`. -/
def inputSubInit (outcome : Outcome) : List Call × Int :=
  if !outcome.allocated then ([], -EAGAIN)
  else (.inputAllocateDevice :: lines.map (fun line => .requestIrq (.button line)), 0)

/-- `input_sub_exit`, which frees the device that it has unregistered. -/
def inputSubExit : List Call :=
  lines.map (fun line => .freeIrq (.button line)) ++ [.inputUnregisterDevice, .inputFreeDevice]

/-- `lcd_init`. -/
def lcdInit (outcome : Outcome) : List Call × Int :=
  if !outcome.allocated then ([], -ENOMEM)
  else
    let calls :=
      [.framebufferAlloc, .ioremap 0x56000020, .ioremap 0x56000030, .ioremap 0x56000060,
        .ioremap 0x4d000000, .dmaAllocWritecombine]
    if !outcome.accepted then (calls, -EINVAL)
    else (calls ++ [.registerFramebuffer], 0)

/-- `lcd_exit`. -/
def lcdExit : List Call :=
  [.unregisterFramebuffer, .dmaFreeWritecombine, .iounmap 0x4d000000, .iounmap 0x56000060,
    .iounmap 0x56000020, .iounmap 0x56000030, .framebufferRelease]

/-- `s3c_ts_init`. -/
def s3cTsInit : List Call :=
  [.inputAllocateDevice, .clkEnable .adc, .ioremap 0x58000000, .requestIrq .tc,
    .requestIrq .adc]

/-- `s3c_ts_exit`. -/
def s3cTsExit : List Call :=
  [.freeIrq .tc, .freeIrq .adc, .iounmap 0x58000000, .inputUnregisterDevice,
    .inputFreeDevice]

/-- Init and exit of `12th-usb/usbmouse.c`. -/
def usbmouseAsKeyInit : List Call := [.usbRegister]
def usbmouseAsKeyExit : List Call := [.usbDeregister]

/-- `ramblock_init`. -/
def ramblockInit : List Call :=
  [.allocDisk, .blkInitQueue, .registerBlkdev, .kzalloc .ramblockBuf, .addDisk]

/-- `ramblock_exit`. -/
def ramblockExit : List Call :=
  [.unregisterBlkdev, .delGendisk, .putDisk, .blkCleanupQueue, .kfree .ramblockBuf]

/-- What `nand_scan_ident` says does not change what is taken. -/
def s3cNandInit : List Call :=
  [.kzalloc .nandChip, .ioremap 0x4e000000, .clkEnable .nand, .kzalloc .mtdInfo,
    .mtdDeviceParseRegister]

/-- `s3c_nand_exit`. -/
def s3cNandExit : List Call :=
  [.mtdDeviceUnregister, .kfree .mtdInfo, .iounmap 0x4e000000, .kfree .nandChip]

/-- `s3c_nor_init`, which tries two probes. -/
def s3cNorInit (outcome : Outcome) : List Call × Int :=
  let calls := [.kzalloc .mapInfo, .ioremap 0]
  if !outcome.accepted then (calls ++ [.iounmap 0, .kfree .mapInfo], - EIO)
  else (calls ++ [.doMapProbe, .mtdDeviceParseRegister], 0)

/-- `s3c_nor_exit`. -/
def s3cNorExit : List Call := [.mtdDeviceUnregister, .iounmap 0, .kfree .mapInfo]

/-- `virt_net_init`. -/
def virtNetInit (outcome : Outcome) : List Call × Int :=
  if !outcome.allocated then ([], -1)
  else ([.allocNetdev, .registerNetdev], 0)

/-- `virt_net_exit`. -/
def virtNetExit : List Call := [.unregisterNetdev, .freeNetdev]

/-- `i2c_bus_s3c2440_init`. -/
def i2cBusS3c2440Init : List Call :=
  [.ioremap 0x54000000, .clkEnable .i2c, .requestIrq .iic, .i2cAddAdapter]

/-- `i2c_bus_s3c2440_exit`. -/
def i2cBusS3c2440Exit : List Call := [.i2cDelAdapter, .freeIrq .iic, .iounmap 0x54000000]

/-- The sixteen modules. -/
inductive Driver where
  | firstDrv
  | secondDrv
  | thirdDrv
  | forthDrv
  | asyn
  | sixthDrv
  | buttonsAll
  | inputSub
  | lcd
  | touch
  | usbmouse
  | ramblock
  | s3cNand
  | s3cNor
  | virtNet
  | i2cBusS3c2440
  deriving DecidableEq, Repr

namespace Driver

/-- The calls of the init function, and what it returns. -/
def init : Driver → Outcome → List Call × Int
  | .firstDrv, _ => (firstDrvInit, 0)
  | .secondDrv, _ => (secondDrvInit, 0)
  | .thirdDrv, _ => (thirdDrvInit, 0)
  | .forthDrv, _ => (forthDrvInit, 0)
  | .asyn, _ => (fifthDrvInit, 0)
  | .sixthDrv, _ => (sixthDrvInit, 0)
  | .buttonsAll, _ => (sixthDrvInit, 0)
  | .inputSub, outcome => inputSubInit outcome
  | .lcd, outcome => lcdInit outcome
  | .touch, _ => (s3cTsInit, 0)
  | .usbmouse, _ => (usbmouseAsKeyInit, 0)
  | .ramblock, _ => (ramblockInit, 0)
  | .s3cNand, _ => (s3cNandInit, 0)
  | .s3cNor, outcome => s3cNorInit outcome
  | .virtNet, outcome => virtNetInit outcome
  | .i2cBusS3c2440, _ => (i2cBusS3c2440Init, 0)

/-- The calls of the exit function. -/
def exit : Driver → List Call
  | .firstDrv => firstDrvExit
  | .secondDrv => secondDrvExit
  | .thirdDrv => thirdDrvExit
  | .forthDrv => forthDrvExit
  | .asyn => fifthDrvExit
  | .sixthDrv => sixthDrvExit
  | .buttonsAll => sixthDrvExit
  | .inputSub => inputSubExit
  | .lcd => lcdExit
  | .touch => s3cTsExit
  | .usbmouse => usbmouseAsKeyExit
  | .ramblock => ramblockExit
  | .s3cNand => s3cNandExit
  | .s3cNor => s3cNorExit
  | .virtNet => virtNetExit
  | .i2cBusS3c2440 => i2cBusS3c2440Exit

/-- The drivers whose open function requests the lines of the buttons. -/
def usesLines : Driver → Bool
  | .thirdDrv | .forthDrv | .asyn | .sixthDrv | .buttonsAll => true
  | _ => false

/-- A driver for a character device. -/
def isCharDev : Driver → Bool
  | .firstDrv | .secondDrv => true
  | driver => driver.usesLines

/-- The semaphore of the driver lets only one file be open. -/
def hasLock : Driver → Bool
  | .sixthDrv | .buttonsAll => true
  | _ => false

/-- The calls of the driver's open function. -/
def openFile (driver : Driver) : List Call := if driver.usesLines then buttonsOpen else []

/-- The calls of the driver's close function. -/
def closeFile (driver : Driver) : List Call := if driver.usesLines then buttonsClose else []

end Driver

/-! ## Histories -/

/-- The kernel's books. -/
abbrev Kernel := Registry Driver Resource

/-- One call of a driver in the books. -/
def perform (driver : Driver) (kernel : Kernel) (call : Call) : Kernel :=
  match call.takes, call.gives with
  | some resource, _ => kernel.take exclusive driver resource
  | none, some resource => kernel.give driver resource
  | none, none => kernel

/-- The calls of a driver, one after another. -/
def run (driver : Driver) (calls : List Call) (kernel : Kernel) : Kernel :=
  calls.foldl (perform driver) kernel

/-- The kernel's books, the modules that are loaded, and those whose files are open, one for
each file. -/
structure System where
  kernel : Kernel
  loaded : Multiset Driver
  opened : Multiset Driver

/-- A module is loaded or unloaded, or a file of its device opened or closed. -/
inductive Event where
  | load (driver : Driver) (outcome : Outcome)
  | unload (driver : Driver)
  | openFile (driver : Driver)
  | closeFile (driver : Driver)
  deriving DecidableEq, Repr

namespace System

/-- No module is loaded. -/
def booted : System := ⟨.empty, 0, 0⟩

/-- A module whose init function fails is not loaded. -/
def load (driver : Driver) (outcome : Outcome) (system : System) : System where
  kernel := run driver (driver.init outcome).1 system.kernel
  loaded := if (driver.init outcome).2 = 0 then driver ::ₘ system.loaded else system.loaded
  opened := system.opened

/-- The exit function has run. -/
def unload (driver : Driver) (system : System) : System where
  kernel := run driver driver.exit system.kernel
  loaded := system.loaded.erase driver
  opened := system.opened

/-- The open function has run. -/
def openFile (driver : Driver) (system : System) : System where
  kernel := run driver driver.openFile system.kernel
  loaded := system.loaded
  opened := driver ::ₘ system.opened

/-- The close function has run. -/
def closeFile (driver : Driver) (system : System) : System where
  kernel := run driver driver.closeFile system.kernel
  loaded := system.loaded
  opened := system.opened.erase driver

/-- A call of one of the functions, as a whole.  A module with open files is not unloaded. -/
def step : Step System Event
  | system, .load driver outcome =>
      if driver ∉ system.loaded then some (system.load driver outcome) else none
  | system, .unload driver =>
      if driver ∈ system.loaded ∧ driver ∉ system.opened then some (system.unload driver)
      else none
  | system, .openFile driver =>
      if driver ∈ system.loaded ∧ driver.isCharDev = true ∧
          ¬ (driver.hasLock = true ∧ driver ∈ system.opened) then
        some (system.openFile driver)
      else none
  | system, .closeFile driver =>
      if driver ∈ system.opened then some (system.closeFile driver) else none

end System

/-! ## Traces of calls -/

/-- Nothing is taken after something was given back. -/
def takesFirst (calls : List Call) : Bool :=
  (calls.dropWhile Call.givesNothing).all Call.takesNothing

theorem run_of_gives_none {driver : Driver} {calls : List Call}
    (taking : ∀ call ∈ calls, call.gives = none) (kernel : Kernel) :
    run driver calls kernel = kernel.takeAll exclusive driver (takes calls) := by
  induction calls generalizing kernel with
  | nil => rfl
  | cons call calls ih =>
      obtain ⟨first, others⟩ := List.forall_mem_cons.mp taking
      rw [run, List.foldl_cons, ← run, ih others]
      cases taken : call.takes with
      | none =>
          have same : takes (call :: calls) = takes calls := List.filterMap_cons_none taken
          rw [same]
          simp only [perform, taken, first]
      | some resource =>
          have more : takes (call :: calls) = resource :: takes calls :=
            List.filterMap_cons_some taken
          rw [more]
          simp only [perform, taken]
          rfl

theorem run_of_takes_none {driver : Driver} {calls : List Call}
    (giving : ∀ call ∈ calls, call.takes = none) (kernel : Kernel) :
    run driver calls kernel = kernel.giveAll driver (gives calls) := by
  induction calls generalizing kernel with
  | nil => rfl
  | cons call calls ih =>
      obtain ⟨first, others⟩ := List.forall_mem_cons.mp giving
      rw [run, List.foldl_cons, ← run, ih others]
      cases given : call.gives with
      | none =>
          have same : gives (call :: calls) = gives calls := List.filterMap_cons_none given
          rw [same]
          simp only [perform, first, given]
      | some resource =>
          have more : gives (call :: calls) = resource :: gives calls :=
            List.filterMap_cons_some given
          rw [more]
          simp only [perform, first, given]
          rfl

theorem run_of_takesFirst {calls : List Call} (ordered : takesFirst calls = true)
    (driver : Driver) (kernel : Kernel) :
    run driver calls kernel =
      (kernel.takeAll exclusive driver (takes calls)).giveAll driver (gives calls) := by
  let first := calls.takeWhile Call.givesNothing
  let second := calls.dropWhile Call.givesNothing
  have split : calls = first ++ second := List.takeWhile_append_dropWhile.symm
  have taking : ∀ call ∈ first, call.gives = none := by
    intro call member
    have kept : call.givesNothing = true := List.mem_takeWhile_imp member
    exact Option.isNone_iff_eq_none.mp kept
  have giving : ∀ call ∈ second, call.takes = none := fun call member =>
    Option.isNone_iff_eq_none.mp (List.all_eq_true.mp ordered call member)
  have noGives : gives first = [] := List.filterMap_eq_nil_iff.mpr taking
  have noTakes : takes second = [] := List.filterMap_eq_nil_iff.mpr giving
  have takesAll : takes calls = takes first := by
    rw [split, takes, List.filterMap_append, ← takes, ← takes, noTakes, List.append_nil]
  have givesAll : gives calls = gives second := by
    rw [split, gives, List.filterMap_append, ← gives, ← gives, noGives, List.nil_append]
  rw [takesAll, givesAll, ← run_of_gives_none taking, ← run_of_takes_none giving, split, run,
    List.foldl_append]
  rfl

/-! ## What is held by whom -/

namespace Driver

/-- What a module holds while it is loaded. -/
def footprint (driver : Driver) : List Resource := takes (driver.init ⟨true, true⟩).1

theorem init_takesFirst (driver : Driver) (outcome : Outcome) :
    takesFirst (driver.init outcome).1 = true := by
  obtain ⟨allocated, accepted⟩ := outcome
  cases driver <;> cases allocated <;> cases accepted <;> decide

theorem exit_takesFirst (driver : Driver) : takesFirst driver.exit = true := by
  cases driver <;> decide

theorem openFile_takesFirst (driver : Driver) : takesFirst driver.openFile = true := by
  cases driver <;> decide

theorem closeFile_takesFirst (driver : Driver) : takesFirst driver.closeFile = true := by
  cases driver <;> decide

/-- The display is not left on by an init function that fails. -/
def displayAccepted (driver : Driver) (outcome : Outcome) : Prop :=
  driver = .lcd → outcome.allocated = true → outcome.accepted = true

instance (driver : Driver) (outcome : Outcome) : Decidable (driver.displayAccepted outcome) :=
  inferInstanceAs (Decidable (driver = .lcd → outcome.allocated = true →
    outcome.accepted = true))

/-- An init function that succeeds has taken the same things each time. -/
theorem init_succeeded {driver : Driver} {outcome : Outcome}
    (succeeded : (driver.init outcome).2 = 0) :
    takes (driver.init outcome).1 = driver.footprint ∧ gives (driver.init outcome).1 = [] ∧
      driver.displayAccepted outcome ∧ (driver = .inputSub → outcome.allocated = true) := by
  obtain ⟨allocated, accepted⟩ := outcome
  revert succeeded
  cases driver <;> cases allocated <;> cases accepted <;> decide

/-- Of the init functions that fail, only the one of the display keeps what it has taken. -/
theorem init_failed {driver : Driver} {outcome : Outcome}
    (failed : (driver.init outcome).2 ≠ 0) :
    (takes (driver.init outcome).1).filter exclusive = [] ∧
      ((takes (driver.init outcome).1).Perm (gives (driver.init outcome).1) ↔
        driver.displayAccepted outcome) ∧
      (driver = .inputSub → outcome.allocated = false) := by
  obtain ⟨allocated, accepted⟩ := outcome
  revert failed
  cases driver <;> cases allocated <;> cases accepted <;> decide

/-- Exit functions that leave something behind, or give something back twice. -/
def isUneven : Driver → Bool
  | .inputSub | .touch | .s3cNand | .s3cNor | .i2cBusS3c2440 => true
  | _ => false

theorem exit_even_iff (driver : Driver) :
    takes driver.exit = [] ∧
      (driver.footprint.Perm (gives driver.exit) ↔ driver.isUneven = false) := by
  cases driver <;> decide

theorem closeFile_even (driver : Driver) :
    takes driver.closeFile = [] ∧ gives driver.closeFile = takes driver.openFile ∧
      gives driver.openFile = [] := by
  cases driver <;> decide

/-! ## Clashes -/

theorem footprint_nodup (driver : Driver) : (driver.footprint.filter exclusive).Nodup := by
  cases driver <;> decide

theorem openFile_nodup (driver : Driver) :
    ((takes driver.openFile).filter exclusive).Nodup := by
  cases driver <;> decide

/-- Two modules for one class. -/
def sameClass : Driver → Driver → Bool
  | .sixthDrv, .buttonsAll | .buttonsAll, .sixthDrv => true
  | _, _ => false

theorem init_of_sameClass {driver other : Driver} (same : driver.sameClass other = true)
    (outcome : Outcome) : (driver.init outcome).2 = 0 := by
  cases driver with
  | inputSub | lcd | s3cNor | virtNet => cases other <;> contradiction
  | _ => rfl

theorem clash_modules_iff {driver other : Driver} (distinct : other ≠ driver) :
    Clash exclusive driver.footprint other.footprint ↔ driver.sameClass other = true := by
  revert distinct
  cases driver <;> cases other <;> decide

theorem clash_module_file_iff (driver other : Driver) :
    Clash exclusive driver.footprint (takes other.openFile) ↔
      driver = .inputSub ∧ other.usesLines = true := by
  cases driver <;> cases other <;> decide

theorem clash_file_module_iff (driver other : Driver) :
    Clash exclusive (takes driver.openFile) other.footprint ↔
      driver.usesLines = true ∧ other = .inputSub := by
  cases driver <;> cases other <;> decide

theorem clash_files_iff (driver other : Driver) :
    Clash exclusive (takes driver.openFile) (takes other.openFile) ↔
      driver.usesLines = true ∧ other.usesLines = true := by
  cases driver <;> cases other <;> decide

end Driver

namespace System

/-- The modules and the open files, with what each of them holds. -/
def parts (system : System) : Multiset (Driver × List Resource) :=
  system.loaded.map (fun driver => (driver, driver.footprint)) +
    system.opened.map (fun driver => (driver, takes driver.openFile))

/-- No call went wrong, and what is held is what the loaded modules and the open files hold. -/
structure Tidy (system : System) : Prop where
  faults : system.kernel.faults = 0
  held : system.kernel.held = total system.parts

theorem booted_tidy : booted.Tidy := ⟨rfl, rfl⟩

/-- The rules for using the modules side by side. -/
def Allowed (system : System) : Event → Prop
  | .load driver outcome =>
      driver.displayAccepted outcome ∧
        (∀ other ∈ system.loaded, driver.sameClass other = false) ∧
        (driver = .inputSub → outcome.allocated = true →
          ∀ file ∈ system.opened, file.usesLines = false)
  | .unload driver => driver.isUneven = false
  | .openFile driver =>
      driver.usesLines = true →
        .inputSub ∉ system.loaded ∧ ∀ file ∈ system.opened, file.usesLines = false
  | .closeFile _ => True

variable {system : System}

/-- There is room beside modules and files that a list does not clash with. -/
theorem room_iff {keys : List Resource} (distinct : (keys.filter exclusive).Nodup) :
    Room exclusive keys (total system.parts) ↔
      (∀ other ∈ system.loaded, ¬ Clash exclusive keys other.footprint) ∧
        ∀ file ∈ system.opened, ¬ Clash exclusive keys (takes file.openFile) := by
  rw [room_total_iff, and_iff_right distinct]
  simp only [parts, Multiset.mem_add, or_imp, forall_and, Multiset.mem_map,
    forall_exists_index, and_imp, forall_apply_eq_imp_iff₂]

/-- What a function has to do for the books to be in order after it. -/
theorem Tidy.run_iff (tidy : system.Tidy) (driver : Driver) {calls : List Call}
    (ordered : takesFirst calls = true) {next : System}
    (ran : next.kernel = run driver calls system.kernel) :
    next.Tidy ↔
      Room exclusive (takes calls) (total system.parts) ∧
        total system.parts + own driver (takes calls) =
          total next.parts + own driver (gives calls) := by
  rw [← tidy.held, ← exchange_iff, ← run_of_takesFirst ordered, ← ran, tidy.faults]
  constructor
  · rintro ⟨faults, held⟩
    exact Registry.ext held faults
  · intro exchanged
    exact ⟨congrArg Registry.faults exchanged, congrArg Registry.held exchanged⟩

/-- There is room for a list without anything that is for one owner only. -/
theorem room_of_shared {keys : List Resource} (shared : keys.filter exclusive = [])
    (held : Multiset (Driver × Resource)) : Room exclusive keys held := by
  constructor
  · rw [shared]
    exact List.nodup_nil
  · exact fun key asked alone => absurd alone (List.filter_eq_nil_iff.mp shared key asked)

/-! ## One call -/

/-- An init function that succeeds. -/
theorem Tidy.load_iff_of_succeeded (tidy : system.Tidy) {driver : Driver}
    (new : driver ∉ system.loaded) {outcome : Outcome}
    (succeeded : (driver.init outcome).2 = 0) :
    (system.load driver outcome).Tidy ↔ system.Allowed (.load driver outcome) := by
  obtain ⟨takes_eq, gives_eq, accepted, allocated⟩ := Driver.init_succeeded succeeded
  have after : (system.load driver outcome).parts =
      (driver, driver.footprint) ::ₘ system.parts := by
    rw [parts, load, if_pos succeeded, Multiset.map_cons, Multiset.cons_add]
    rfl
  have balance : total system.parts + own driver driver.footprint =
      total (system.load driver outcome).parts + own driver [] := by
    rw [after, total_cons, own_nil, Multiset.add_zero]
  rw [tidy.run_iff driver (driver.init_takesFirst outcome) rfl, takes_eq, gives_eq,
    and_iff_left balance, room_iff driver.footprint_nodup]
  simp only [Driver.clash_module_file_iff, not_and, Bool.not_eq_true]
  have classes : (∀ other ∈ system.loaded, ¬ Clash exclusive driver.footprint other.footprint) ↔
      ∀ other ∈ system.loaded, driver.sameClass other = false := by
    refine forall₂_congr fun other loaded => ?_
    have distinct : other ≠ driver := fun same => new (same ▸ loaded)
    rw [Driver.clash_modules_iff distinct, Bool.not_eq_true]
  rw [classes]
  constructor
  · rintro ⟨modules, files⟩
    exact ⟨accepted, modules, fun isInputSub _ file opened => files file opened isInputSub⟩
  · rintro ⟨-, modules, files⟩
    exact ⟨modules, fun file opened isInputSub =>
      files isInputSub (allocated isInputSub) file opened⟩

/-- An init function that fails. -/
theorem Tidy.load_iff_of_failed (tidy : system.Tidy) {driver : Driver} {outcome : Outcome}
    (failed : (driver.init outcome).2 ≠ 0) :
    (system.load driver outcome).Tidy ↔ system.Allowed (.load driver outcome) := by
  obtain ⟨shared, even, unallocated⟩ := Driver.init_failed failed
  have after : (system.load driver outcome).parts = system.parts := by
    rw [parts, load, if_neg failed]
    rfl
  rw [tidy.run_iff driver (driver.init_takesFirst outcome) rfl,
    and_iff_right (room_of_shared shared _), after, add_right_inj, own_eq_iff, even]
  constructor
  · intro accepted
    refine ⟨accepted, fun other _ => ?_, fun isInputSub allocated => ?_⟩
    · rw [← Bool.not_eq_true]
      exact fun sameClass => failed (Driver.init_of_sameClass sameClass outcome)
    · rw [unallocated isInputSub] at allocated
      contradiction
  · exact fun allowed => allowed.1

theorem Tidy.unload_iff (tidy : system.Tidy) {driver : Driver}
    (loaded : driver ∈ system.loaded) :
    (system.unload driver).Tidy ↔ system.Allowed (.unload driver) := by
  obtain ⟨takes_eq, even⟩ := driver.exit_even_iff
  have before : system.parts = (driver, driver.footprint) ::ₘ (system.unload driver).parts := by
    rw [parts, parts, unload, ← Multiset.cons_add,
      ← Multiset.map_cons fun driver => (driver, Driver.footprint driver),
      Multiset.cons_erase loaded]
  rw [tidy.run_iff driver driver.exit_takesFirst rfl, takes_eq,
    and_iff_right (room_of_shared rfl _), own_nil, Multiset.add_zero, before, total_cons,
    add_right_inj, own_eq_iff, even]
  rfl

theorem Tidy.openFile_iff (tidy : system.Tidy) (driver : Driver) :
    (system.openFile driver).Tidy ↔ system.Allowed (.openFile driver) := by
  have after : (system.openFile driver).parts =
      (driver, takes driver.openFile) ::ₘ system.parts := by
    rw [parts, openFile, Multiset.map_cons, Multiset.add_cons]
    rfl
  have balance : total system.parts + own driver (takes driver.openFile) =
      total (system.openFile driver).parts + own driver [] := by
    rw [after, total_cons, own_nil, Multiset.add_zero]
  rw [tidy.run_iff driver driver.openFile_takesFirst rfl, driver.closeFile_even.2.2,
    and_iff_left balance, room_iff driver.openFile_nodup]
  simp only [Driver.clash_file_module_iff, Driver.clash_files_iff, not_and, Bool.not_eq_true]
  constructor
  · rintro ⟨modules, files⟩ uses
    exact ⟨fun loaded => modules _ loaded uses rfl, fun file opened => files file opened uses⟩
  · intro allowed
    exact ⟨fun other loaded uses same => (allowed uses).1 (same ▸ loaded),
      fun file opened uses => (allowed uses).2 file opened⟩

theorem Tidy.closeFile (tidy : system.Tidy) {driver : Driver}
    (opened : driver ∈ system.opened) : (system.closeFile driver).Tidy := by
  obtain ⟨takes_eq, gives_eq, -⟩ := driver.closeFile_even
  have before : system.parts =
      (driver, takes driver.openFile) ::ₘ (system.closeFile driver).parts := by
    rw [parts, parts, System.closeFile, ← Multiset.add_cons,
      ← Multiset.map_cons fun driver => (driver, takes (Driver.openFile driver)),
      Multiset.cons_erase opened]
  rw [tidy.run_iff driver driver.closeFile_takesFirst rfl, takes_eq, gives_eq,
    and_iff_right (room_of_shared rfl _), own_nil, Multiset.add_zero, before, total_cons]

/-- Exactly the calls that keep to the rules leave the books in order. -/
theorem Tidy.step_iff (tidy : system.Tidy) {event : Event} {next : System}
    (taken : step system event = some next) : next.Tidy ↔ system.Allowed event := by
  cases event with
  | load driver outcome =>
      obtain ⟨new, ⟨⟩⟩ := Option.ite_none_right_eq_some.mp taken
      by_cases succeeded : (driver.init outcome).2 = 0
      · exact tidy.load_iff_of_succeeded new succeeded
      · exact tidy.load_iff_of_failed succeeded
  | unload driver =>
      obtain ⟨enabled, ⟨⟩⟩ := Option.ite_none_right_eq_some.mp taken
      exact tidy.unload_iff enabled.1
  | openFile driver =>
      obtain ⟨-, ⟨⟩⟩ := Option.ite_none_right_eq_some.mp taken
      exact tidy.openFile_iff driver
  | closeFile driver =>
      obtain ⟨opened, ⟨⟩⟩ := Option.ite_none_right_eq_some.mp taken
      exact iff_of_true (tidy.closeFile opened) trivial

/-- The event, if it can happen, leaves the books in order. -/
def LeavesTidy (system : System) (event : Event) : Prop :=
  ∀ next, step system event = some next → next.Tidy

/-- The event, if it can happen, keeps to the rules. -/
def KeepsRules (system : System) (event : Event) : Prop :=
  (step system event).isSome = true → system.Allowed event

theorem Tidy.leavesTidy_iff (tidy : system.Tidy) (event : Event) :
    system.LeavesTidy event ↔ system.KeepsRules event := by
  constructor
  · intro leaves enabled
    obtain ⟨next, taken⟩ := Option.isSome_iff_exists.mp enabled
    exact (tidy.step_iff taken).mp (leaves next taken)
  · intro keeps next taken
    exact (tidy.step_iff taken).mpr (keeps (Option.isSome_iff_exists.mpr ⟨next, taken⟩))

theorem step_tidy : (step : Step System Event).Preserves KeepsRules Tidy :=
  fun _ event next tidy keeps taken => (tidy.leavesTidy_iff event).mpr keeps next taken

end System

/-- For every history of loads, unloads, opens and closes of the sixteen modules: the books of
the kernel are in order after every call exactly when every call keeps to the rules. -/
theorem books_balance_iff (history : List Event) :
    System.step.Along System.LeavesTidy System.booted history ↔
      System.step.Along System.KeepsRules System.booted history :=
  System.step_tidy.along_iff (fun _ event tidy => tidy.leavesTidy_iff event)
    System.booted_tidy history

end Mini2440.Modules
