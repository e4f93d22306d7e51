import Mini2440.Buttons.ExclusiveOpen

/-!
# Shared open

The button drivers without a lock, `third_drv.c`, `forth_drv.c` and `asyn.c`.  Every open
requests the six interrupt lines without looking at the results and every close frees
them, whoever else has the device open.  The lines are kept as long as they are needed
exactly when no file is closed while another one is open.
-/

namespace Mini2440.Buttons.SharedOpen

open Transition ExclusiveOpen

/-! ## Open and close -/

/-- The lines that are registered, and the lines on which `free_irq` was called, with
whether they were registered at that time. -/
structure Irqs where
  held : Line → Bool
  freed : List (Line × Bool)

namespace Irqs

/-- `request_irq` of one line. -/
def request (irqs : Irqs) (line : Line) : Irqs :=
  { irqs with held := requestIrq irqs.held line }

/-- `free_irq` of one line. -/
def free (irqs : Irqs) (line : Line) : Irqs where
  held := freeIrq irqs.held line
  freed := irqs.freed ++ [(line, irqs.held line)]

/-- The body of open in the three drivers; no result is looked at. -/
def requestAll (irqs : Irqs) : Irqs := lines.foldl request irqs

/-- The body of close in the three drivers. -/
def freeAll (irqs : Irqs) : Irqs := lines.foldl free irqs

end Irqs

/-- Open and close of `third_drv.c`. -/
def thirdDrvOpen (irqs : Irqs) : Int × Irqs := (0, irqs.requestAll)
def thirdDrvClose (irqs : Irqs) : Int × Irqs := (0, irqs.freeAll)

/-- Open and close of `forth_drv.c`. -/
def forthDrvOpen (irqs : Irqs) : Int × Irqs := (0, irqs.requestAll)
def forthDrvClose (irqs : Irqs) : Int × Irqs := (0, irqs.freeAll)

/-- Open and close of `asyn.c`. -/
def fifthDrvOpen (irqs : Irqs) : Int × Irqs := (0, irqs.requestAll)
def fifthDrvClose (irqs : Irqs) : Int × Irqs := (0, irqs.freeAll)

/-- The drivers without a lock. -/
inductive Driver where
  | thirdDrv
  | forthDrv
  | fifthDrv
  deriving DecidableEq, Repr

namespace Driver

/-- The driver's `open` operation. -/
def openFile : Driver → Irqs → Int × Irqs
  | .thirdDrv => thirdDrvOpen
  | .forthDrv => forthDrvOpen
  | .fifthDrv => fifthDrvOpen

/-- The driver's `release` operation. -/
def closeFile : Driver → Irqs → Int × Irqs
  | .thirdDrv => thirdDrvClose
  | .forthDrv => forthDrvClose
  | .fifthDrv => fifthDrvClose

theorem openFile_eq (driver : Driver) (irqs : Irqs) :
    driver.openFile irqs = (0, irqs.requestAll) := by
  cases driver <;> rfl

theorem closeFile_eq (driver : Driver) (irqs : Irqs) :
    driver.closeFile irqs = (0, irqs.freeAll) := by
  cases driver <;> rfl

end Driver

/-! ## Histories of calls -/

/-- The interrupt lines and the files that have the device open. -/
structure System (File : Type*) where
  irqs : Irqs
  opened : File → Bool

/-- A file is opened or closed. -/
inductive Call (File : Type*) where
  | openFile (file : File)
  | closeFile (file : File)

namespace System

variable {File : Type*} [DecidableEq File]

/-- Nothing is open. -/
def initial : System File := ⟨⟨fun _ => false, []⟩, fun _ => false⟩

/-- A whole call; a file is closed once for each time it was opened. -/
def step (driver : Driver) : Step (System File) (Call File)
  | system, .openFile file =>
      if system.opened file then none
      else some ⟨(driver.openFile system.irqs).2, Function.update system.opened file true⟩
  | system, .closeFile file =>
      if system.opened file then
        some ⟨(driver.closeFile system.irqs).2, Function.update system.opened file false⟩
      else none

/-- The law about the state `after` a call: all six lines are registered exactly when a
file is open, and the call freed registered lines only. -/
structure Kept (before after : System File) : Prop where
  lines : (∀ line, after.irqs.held line = true) ↔ ∃ file, after.opened file = true
  freed : ∀ entry ∈ after.irqs.freed.drop before.irqs.freed.length, entry.2 = true

end System

/-- The call keeps the law. -/
def KeepsIrqs {File : Type*} [DecidableEq File] (driver : Driver) (system : System File)
    (call : Call File) : Prop :=
  ∀ next, System.step driver system call = some next → system.Kept next

/-- A file is closed only while no other file is open. -/
def ClosesAlone {File : Type*} (system : System File) : Call File → Prop
  | .closeFile file => system.opened file = true →
      ∀ other, system.opened other = true → other = file
  | .openFile _ => True

/-! ## What open and close do to the lines -/

namespace Irqs

theorem foldl_request (requested : List Line) (irqs : Irqs) :
    requested.foldl request irqs =
      { irqs with held := fun line => decide (line ∈ requested) || irqs.held line } := by
  induction requested generalizing irqs with
  | nil => simp
  | cons first rest ih =>
      rw [List.foldl_cons, ih]
      congr 1
      funext line
      by_cases same : line = first
      · simp [request, requestIrq_eq, same]
      · simp [request, requestIrq_eq, same]

/-- After an open all lines are registered. -/
theorem requestAll_eq (irqs : Irqs) : irqs.requestAll = { irqs with held := fun _ => true } := by
  rw [requestAll, foldl_request]
  simp [mem_lines]

/-- Freeing different lines meets each as it was at the beginning. -/
theorem foldl_free {freed : List Line} (distinct : freed.Nodup) (irqs : Irqs) :
    freed.foldl free irqs =
      { held := fun line => !decide (line ∈ freed) && irqs.held line
        freed := irqs.freed ++ freed.map fun line => (line, irqs.held line) } := by
  induction freed generalizing irqs with
  | nil => simp
  | cons first rest ih =>
      obtain ⟨notIn, distinct⟩ := List.nodup_cons.mp distinct
      rw [List.foldl_cons, ih distinct]
      congr 1
      · funext line
        by_cases same : line = first
        · simp [free, freeIrq, same]
        · simp [free, freeIrq, same]
      · have unchanged : ∀ line ∈ rest, (line, (irqs.free first).held line) =
            (line, irqs.held line) := by
          intro line member
          have different : line ≠ first := fun same => notIn (same ▸ member)
          simp [free, freeIrq, different]
        rw [List.map_congr_left unchanged]
        simp [free]

/-- After a close no line is registered, and each of them was freed. -/
theorem freeAll_eq (irqs : Irqs) :
    irqs.freeAll =
      { held := fun _ => false
        freed := irqs.freed ++ lines.map fun line => (line, irqs.held line) } := by
  rw [freeAll, foldl_free nodup_lines]
  simp [mem_lines]

end Irqs

/-! ## The law -/

namespace System

variable {File : Type*}

/-- While a file is open all lines are registered, otherwise none is. -/
structure Consistent (system : System File) : Prop where
  held : ∀ file, system.opened file = true → ∀ line, system.irqs.held line = true
  unused : (∀ file, system.opened file = false) → ∀ line, system.irqs.held line = false

theorem initial_consistent : (initial : System File).Consistent := by
  constructor <;> simp [initial]

theorem Consistent.lines_iff {system : System File} (consistent : system.Consistent) :
    (∀ line, system.irqs.held line = true) ↔ ∃ file, system.opened file = true := by
  constructor
  · intro held
    by_contra closed
    have unused := consistent.unused (by simpa using closed) .eint8
    rw [held] at unused
    contradiction
  · rintro ⟨file, opened⟩
    exact consistent.held file opened

variable [DecidableEq File]

theorem step_open {driver : Driver} {system next : System File} {file : File}
    (taken : step driver system (.openFile file) = some next) :
    next.irqs = { system.irqs with held := fun _ => true } ∧ next.opened file = true := by
  simp only [step, driver.openFile_eq, Irqs.requestAll_eq] at taken
  split at taken
  · contradiction
  · obtain rfl := Option.some.inj taken
    simp

theorem step_close {driver : Driver} {system next : System File} {file : File}
    (taken : step driver system (.closeFile file) = some next) :
    system.opened file = true ∧ next.opened = Function.update system.opened file false ∧
      (∀ line, next.irqs.held line = false) ∧
      next.irqs.freed = system.irqs.freed ++ lines.map fun line =>
        (line, system.irqs.held line) := by
  simp only [step, driver.closeFile_eq, Irqs.freeAll_eq] at taken
  split at taken
  next opened =>
      obtain rfl := Option.some.inj taken
      simp [opened]
  next => contradiction

theorem step_consistent (driver : Driver) :
    (step driver : Step (System File) (Call File)).Preserves ClosesAlone Consistent := by
  intro system call next consistent alone taken
  cases call with
  | openFile file =>
      obtain ⟨irqs, opened⟩ := step_open taken
      constructor
      case held =>
        intro _ _ line
        rw [irqs]
      case unused =>
        intro closed
        rw [closed file] at opened
        contradiction
  | closeFile file =>
      obtain ⟨wasOpen, opened, unheld, -⟩ := step_close taken
      constructor
      case held =>
        intro other isOpen
        rw [opened] at isOpen
        obtain ⟨different, isOpen⟩ := of_update_eq isOpen (by simp)
        exact absurd (alone wasOpen other isOpen) different
      case unused => exact fun _ => unheld

theorem Consistent.keepsIrqs {driver : Driver} {system : System File} {call : Call File}
    (consistent : system.Consistent) (alone : ClosesAlone system call) :
    KeepsIrqs driver system call := by
  intro next taken
  have after := step_consistent driver system call next consistent alone taken
  refine ⟨after.lines_iff, ?_⟩
  cases call with
  | openFile file =>
      obtain ⟨irqs, -⟩ := step_open taken
      simp [irqs]
  | closeFile file =>
      obtain ⟨wasOpen, -, -, freed⟩ := step_close taken
      simp [freed, consistent.held file wasOpen]

/-- A file that stays open has lost its lines when another one is closed. -/
theorem closesAlone_of_keepsIrqs {driver : Driver} {system : System File}
    {call : Call File} (keeps : KeepsIrqs driver system call) : ClosesAlone system call := by
  cases call with
  | openFile file => trivial
  | closeFile file =>
      intro isOpen other otherOpen
      by_contra different
      obtain ⟨next, taken⟩ : ∃ next, step driver system (.closeFile file) = some next := by
        simp [step, isOpen]
      obtain ⟨-, opened, unheld, -⟩ := step_close taken
      have stillOpen : next.opened other = true := by
        rw [opened, Function.update_of_ne different, otherOpen]
      have held := (keeps next taken).lines.mpr ⟨other, stillOpen⟩ .eint8
      rw [unheld] at held
      contradiction

end System

variable {File : Type*} [DecidableEq File]

/-- For each of the three drivers and every history of calls: the law holds after every
call exactly when each file was closed while it was the only one open. -/
theorem keepsIrqs_iff_closesAlone (driver : Driver) (calls : List (Call File)) :
    (System.step driver).Along (KeepsIrqs driver) System.initial calls ↔
      (System.step driver).Along ClosesAlone System.initial calls := by
  constructor
  · apply Step.Along.imp
    intro system call keeps
    exact System.closesAlone_of_keepsIrqs keeps
  · apply (System.step_consistent driver).strengthen
    · intro system call consistent alone
      exact consistent.keepsIrqs alone
    · exact System.initial_consistent

/-- Two files are opened and the first is closed. -/
def openOpenClose : List (Call Bool) := [.openFile true, .openFile false, .closeFile true]

/-- The law is broken, and the second file is open without any line. -/
def LosesLines (driver : Driver) : Prop :=
  ¬ (System.step driver).Along (KeepsIrqs driver) System.initial openOpenClose ∧
    ∃ final, (System.step driver).run System.initial openOpenClose = some final ∧
      final.opened false = true ∧ ∀ line, final.irqs.held line = false

theorem losesLines (driver : Driver) : LosesLines driver := by
  constructor
  · intro along
    have alone := along.imp fun _ _ => System.closesAlone_of_keepsIrqs
    cases driver <;> exact absurd (alone.2.2.1 rfl false rfl) (by decide)
  · refine ⟨_, rfl, rfl, ?_⟩
    intro line
    cases driver <;> cases line <;> rfl

theorem openOpenClose_loses_lines :
    LosesLines .thirdDrv ∧ LosesLines .forthDrv ∧ LosesLines .fifthDrv :=
  ⟨losesLines .thirdDrv, losesLines .forthDrv, losesLines .fifthDrv⟩

end Mini2440.Buttons.SharedOpen
