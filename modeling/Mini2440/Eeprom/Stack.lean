import Mini2440.Lib.History
import Mini2440.Eeprom.Smbus
import Mini2440.Eeprom.Wired

/-!
# The EEPROM drivers on the bus

Both drivers of the device file `/dev/at24cxx` over the same adapter and the same chips: the
one over messages, `19th_i2c_drv/5th/at24cxx.c`, and the one over SMBus,
`21th_i2c_drv/4th_drv_dev_test/at24cxx_drv.c`, whose calls the kernel turns into messages for
an adapter that has no `smbus_xfer`.  Only the second one works as an array of bytes: the
adapter returns 0 where the first one waits for the number of its messages.  And it takes the
error of a transfer that is not answered in time for a byte.
-/

namespace Mini2440.Eeprom

open History I2c Overlay Transition

/-! ## A transfer -/

/-- The interrupts that come while a transfer waits, and the jiffies that are left then. -/
structure Wait where
  irqs : List Irq
  left : Nat

/-- The wait is over before the five seconds are. -/
def Wait.InTime (wait : Wait) : Prop := wait.left ≠ 0

instance (wait : Wait) : Decidable wait.InTime := inferInstanceAs (Decidable (_ ≠ _))

/-- `s3c2440_i2c_xfer` with the chips on the bus, which `i2c_transfer` hands the messages to.
The wait is over when the driver has stopped or no jiffies are left. -/
def busXfer (populated : List UInt8) (wait : Wait) (msgs : List I2cMsg) (mem : Mem) :
    StateT Wired Option (Int × Mem) := fun wired =>
  match s3c2440I2cXfer msgs { wired.ctl with mem := mem } with
  | .error _ => none
  | .ok started =>
      ((Wired.step populated).run ⟨started, wired.bus⟩ wait.irqs).bind fun final =>
        if final.ctl.data.state = .stop ∨ wait.left = 0 then
          let timeout := waitEventTimeout (final.ctl.data.state == .stop) wait.left
          let (value, ctl) := s3c2440I2cXferReturn timeout final.ctl
          some ((value, ctl.mem), ⟨ctl, final.settled⟩)
        else
          none

/-! ## The SMBus calls of the kernel -/

/-- The calls that the drivers and programs make, by the client that they go to. -/
structure SmbusCalls (m : Type → Type) where
  readByteData : UInt16 → UInt8 → m Int
  writeByteData : UInt16 → UInt8 → UInt8 → m Int
  readWordData : UInt16 → UInt8 → m Int

/-- A word is sent with its low byte first. -/
def wordOf (low high : UInt8) : UInt16 := low.toUInt16 ||| high.toUInt16 <<< 8

/-- The command is written and a word is read. -/
def wordMsgs (client : UInt16) (frame : ReadFrame) : List I2cMsg :=
  [⟨client, 0, 1, frame.addr⟩, ⟨client, I2C_M_RD, 2, frame.data⟩]

section Emulation

variable {m : Type → Type} [Monad m] {Env : Type}
variable (transfer : Env → List I2cMsg → Mem → m (Int × Mem))

/-- The SMBus protocol over messages, as the kernel documents it: a call is one transfer, with
its buffers somewhere in memory; it passes an error on and returns the data else. -/
structure Emulates (calls : Env → SmbusCalls m) : Prop where
  readByteData : ∀ client command, ∃ (frame : ReadFrame) (mem : Mem), ∀ env,
    (calls env).readByteData client command = do
      let (status, mem) ←
        transfer env (readMsgs client frame) (Function.update mem frame.addr command)
      return if status < 0 then status else (mem frame.data).toNat
  writeByteData : ∀ client command value, ∃ (val : Nat) (mem : Mem), ∀ env,
    (calls env).writeByteData client command value = do
      let (status, _) ← transfer env (writeMsgs client val)
        (Function.update (Function.update mem val command) (val + 1) value)
      return if status < 0 then status else 0
  readWordData : ∀ client command, ∃ (frame : ReadFrame) (mem : Mem), ∀ env,
    (calls env).readWordData client command = do
      let (status, mem) ←
        transfer env (wordMsgs client frame) (Function.update mem frame.addr command)
      return if status < 0 then status
        else (wordOf (mem frame.data) (mem (frame.data + 1))).toNat

end Emulation

/-! ## Requests -/

/-- A read or a write of the device file: the buffer of the caller and the size, and for the
driver over messages where its locals are and what is in memory before. -/
inductive Request where
  | smbusRead (user : Mem) (size : Nat)
  | smbusWrite (user : Mem) (size : Nat)
  | read (frame : ReadFrame) (mem user : Mem) (size : Nat)
  | write (val : Nat) (mem user : Mem) (size : Nat)

/-- The request is made of its driver. -/
def Request.perform (populated : List UInt8) (client : UInt16)
    (calls : Wait → SmbusCalls (StateT Wired Option)) (wait : Wait) :
    Request → StateT Wired Option (Int × UserBuf)
  | .smbusRead user size =>
      Smbus.at24cxxRead ((calls wait).readByteData client) ⟨user, []⟩ size
  | .smbusWrite user size =>
      Smbus.at24cxxWrite ((calls wait).writeByteData client) ⟨user, []⟩ size
  | .read frame mem user size =>
      at24cxxRead (busXfer populated wait) client frame mem ⟨user, []⟩ size
  | .write val mem user size =>
      at24cxxWrite (busXfer populated wait) client val mem ⟨user, []⟩ size

/-- The value of a request, and what the caller has in its buffer. -/
structure Reply where
  value : Int
  bytes : Mem

/-- The adapter with the chips, and the requests so far. -/
structure Stack where
  wired : Wired
  log : List (Request × Reply)

/-- A whole request, and how long its wait takes. -/
def Stack.step (populated : List UInt8) (client : UInt16)
    (calls : Wait → SmbusCalls (StateT Wired Option)) : Step Stack (Request × Wait) :=
  fun stack (request, wait) => do
    let ((value, user), wired) ← (request.perform populated client calls wait).run stack.wired
    return ⟨wired, stack.log ++ [(request, ⟨value, user.bytes⟩)]⟩

/-! ## What the device file is -/

/-- The byte that a request stores, and where. -/
def Request.stores (present : Bool) : Request → Option (UInt8 × UInt8)
  | .smbusWrite user _ => if present then some (user 0, user 1) else none
  | .write _ _ user size => if present ∧ size = 2 then some (user 0, user 1) else none
  | .smbusRead .. | .read .. => none

/-- The reply to a request when the chip, if there is one, keeps `contents`. -/
def Request.reply (present : Bool) (contents : UInt8 → UInt8) : Request → Reply
  | .smbusRead user _ =>
      ⟨1, Function.update user 0
        (if present then contents (user 0) else UInt8.ofInt (-ENODEV))⟩
  | .smbusWrite user _ => ⟨if present then 2 else -Smbus.EIO, user⟩
  | .read _ _ user _ | .write _ _ user _ => ⟨-1, user⟩

/-- The reply to a request that the bus does not answer in time. -/
def Request.lateReply : Request → Reply
  | .smbusRead user _ => ⟨1, Function.update user 0 (UInt8.ofInt (-ETIMEDOUT))⟩
  | .smbusWrite user _ => ⟨-Smbus.EIO, user⟩
  | .read _ _ user _ | .write _ _ user _ => ⟨-1, user⟩

/-- The contents of the chip after the requests. -/
def storedBy (present : Bool) (initial : UInt8 → UInt8) (log : List (Request × Reply)) :
    UInt8 → UInt8 :=
  overlay initial (log.filterMap fun entry => entry.1.stores present)

/-! ## A transfer to one chip -/

theorem Serving.exists_run {populated : List UInt8} {chips : UInt8 → Chip} {mem : Mem}
    {msgs : List I2cMsg} {base : List BufAccess} {wired : Wired} {left : Nat}
    (serving : Serving populated chips mem msgs base wired left) :
    ∃ irqs final, (Wired.step populated).run wired irqs = some final ∧
      Serving populated chips mem msgs base final 0 := by
  induction left generalizing wired with
  | zero => exact ⟨[], wired, rfl, serving⟩
  | succ left ih =>
      obtain ⟨irq, next, taken⟩ := serving.live (Nat.succ_pos left)
      obtain ⟨irqs, final, reached, done⟩ := ih (serving.step taken).2
      exact ⟨irq :: irqs, final, (Step.run_cons_of_eq taken irqs).trans reached, done⟩

section

variable (populated : List UInt8) (wired : Wired) (msg : I2cMsg) (rest : List I2cMsg)
variable (mem : Mem)

/-- A transfer in time ends as the addresses say, any other with the error of a timeout. -/
theorem busXfer_ends {wait : Wait} {value : Int} {after : Mem} {next : Wired}
    (ran : (busXfer populated wait (msg :: rest) mem).run wired =
      some ((value, after), next)) :
    (wait.InTime →
      value = (if acknowledged populated (msg :: rest) = msg :: rest then 0 else -ENODEV) ∧
        (next.bus.chips, after) =
          serveMsgs wired.bus.chips (acknowledged populated (msg :: rest)) mem) ∧
      (¬ wait.InTime → value = -ETIMEDOUT) := by
  obtain ⟨started, begun, serving⟩ :=
    serving_begin populated { wired.ctl with mem := mem } wired.bus msg rest
  simp only [StateT.run, busXfer, begun, Option.bind_eq_some_iff] at ran
  obtain ⟨final, reached, ended⟩ := ran
  obtain ⟨waited, ended⟩ := Option.ite_none_right_eq_some.mp ended
  have servingFinal := (serving.run reached).2
  constructor
  · intro inTime
    have stopped := waited.resolve_right inTime
    rw [servingFinal.stopped_iff.mp stopped] at servingFinal
    rw [stopped, beq_self_eq_true, waitEventTimeout, if_pos rfl, s3c2440I2cXferReturn,
      if_neg inTime] at ended
    cases ended
    exact servingFinal.done
  · intro late
    have none_left : wait.left = 0 := not_not.mp late
    rw [none_left, waitEventTimeout, ite_self, s3c2440I2cXferReturn, if_pos rfl] at ended
    cases ended
    rfl

/-- The chips let the transfer end, and then it may be in time. -/
theorem exists_busXfer {msgs : List I2cMsg} (nonempty : msgs ≠ []) :
    ∃ wait done, wait.InTime ∧
      (busXfer populated wait msgs mem).run wired = some done := by
  obtain ⟨msg, rest, rfl⟩ := List.exists_cons_of_ne_nil nonempty
  obtain ⟨started, begun, serving⟩ :=
    serving_begin populated { wired.ctl with mem := mem } wired.bus msg rest
  obtain ⟨irqs, final, reached, servingFinal⟩ := serving.exists_run
  have stopped := servingFinal.stopped_iff.mpr rfl
  refine ⟨⟨irqs, 1⟩, ?_⟩
  simp only [StateT.run, busXfer, begun, reached, Option.bind_some]
  exact ⟨_, Nat.one_ne_zero, if_pos (.inl stopped)⟩

end

section

variable {address : UInt8} {msgs : List I2cMsg}

theorem serveMsgs_to (same : ∀ msg ∈ msgs, target msg = address) (chips : UInt8 → Chip)
    (mem : Mem) :
    serveMsgs chips msgs mem =
      (Function.update chips address ((chips address).serveAll msgs mem).1,
        ((chips address).serveAll msgs mem).2) := by
  induction msgs generalizing chips mem with
  | nil => exact congrArg (·, mem) (Function.update_eq_self address chips).symm
  | cons msg rest ih =>
      obtain ⟨here, same⟩ := List.forall_mem_cons.mp same
      rw [serveMsgs, serveMsg, here]
      simp only
      rw [ih same, Function.update_self, Function.update_idem]
      rfl

theorem acknowledged_to (populated : List UInt8)
    (same : ∀ msg ∈ msgs, target msg = address) :
    acknowledged populated msgs = if address ∈ populated then msgs else [] := by
  by_cases here : address ∈ populated
  · rw [if_pos here]
    refine List.takeWhile_eq_self_iff.mpr fun msg member => ?_
    rw [same msg member]
    exact decide_eq_true here
  · rw [if_neg here]
    cases msgs with
    | nil => rfl
    | cons msg rest =>
        refine List.takeWhile_cons_of_neg ?_
        rw [same msg List.mem_cons_self, decide_eq_false here]
        exact Bool.false_ne_true

end

/-- The chip at the address keeps `contents`, and the other chips are as they were. -/
structure Keeps (address : UInt8) (contents : UInt8 → UInt8) (before after : UInt8 → Chip) :
    Prop where
  contents : (after address).contents = contents
  others : ∀ other, other ≠ address → after other = before other

theorem keeps_all (address : UInt8) (chips : UInt8 → Chip) :
    Keeps address (chips address).contents chips chips :=
  ⟨rfl, fun _ _ => rfl⟩

theorem keeps_update {address : UInt8} {contents : UInt8 → UInt8} {chips : UInt8 → Chip}
    {chip : Chip} (kept : chip.contents = contents) :
    Keeps address contents chips (Function.update chips address chip) :=
  ⟨by rw [Function.update_self, kept], fun _ different => Function.update_of_ne different ..⟩

/-- A transfer to one chip alone, in time. -/
theorem busXfer_to {populated : List UInt8} {wait : Wait} {address : UInt8}
    {msgs : List I2cMsg} {mem after : Mem} {wired next : Wired} {value : Int}
    (nonempty : msgs ≠ []) (same : ∀ msg ∈ msgs, target msg = address)
    (ran : (busXfer populated wait msgs mem).run wired = some ((value, after), next))
    (inTime : wait.InTime) :
    if address ∈ populated then
      value = 0 ∧
        next.bus.chips = Function.update wired.bus.chips address
          ((wired.bus.chips address).serveAll msgs mem).1 ∧
        after = ((wired.bus.chips address).serveAll msgs mem).2
    else
      value = -ENODEV ∧ next.bus.chips = wired.bus.chips := by
  obtain ⟨msg, rest, rfl⟩ := List.exists_cons_of_ne_nil nonempty
  obtain ⟨value_eq, served⟩ := (busXfer_ends populated wired msg rest mem ran).1 inTime
  rw [acknowledged_to populated same] at value_eq served
  split
  next here =>
    rw [if_pos here, if_pos rfl] at value_eq
    rw [if_pos here, serveMsgs_to same] at served
    exact ⟨value_eq, Prod.mk.inj served⟩
  next missing =>
    rw [if_neg missing, if_neg (List.cons_ne_nil msg rest).symm] at value_eq
    rw [if_neg missing] at served
    exact ⟨value_eq, congrArg Prod.fst served⟩

/-- The address of a client on the bus. -/
def clientAddress (client : UInt16) : UInt8 := addressOf (client.toUInt32 <<< 1)

section

variable {populated : List UInt8} {client : UInt16} {wait : Wait} {frame : ReadFrame}
variable {mem after : Mem} {wired next : Wired} {value : Int}

theorem readMsgs_ne_nil (client : UInt16) (frame : ReadFrame) : readMsgs client frame ≠ [] :=
  List.cons_ne_nil _ _

theorem writeMsgs_ne_nil (client : UInt16) (val : Nat) : writeMsgs client val ≠ [] :=
  List.cons_ne_nil _ _

theorem wordMsgs_ne_nil (client : UInt16) (frame : ReadFrame) : wordMsgs client frame ≠ [] :=
  List.cons_ne_nil _ _

theorem target_readMsgs (client : UInt16) (frame : ReadFrame) :
    ∀ msg ∈ readMsgs client frame, target msg = clientAddress client :=
  List.forall_mem_cons.mpr ⟨rfl, List.forall_mem_singleton.mpr rfl⟩

theorem target_writeMsgs (client : UInt16) (val : Nat) :
    ∀ msg ∈ writeMsgs client val, target msg = clientAddress client :=
  List.forall_mem_singleton.mpr rfl

theorem target_wordMsgs (client : UInt16) (frame : ReadFrame) :
    ∀ msg ∈ wordMsgs client frame, target msg = clientAddress client :=
  List.forall_mem_cons.mpr ⟨rfl, List.forall_mem_singleton.mpr rfl⟩

/-- The two messages of a read bring the byte, where there is a chip. -/
theorem busXfer_readMsgs {command : UInt8}
    (ran : (busXfer populated wait (readMsgs client frame)
      (Function.update mem frame.addr command)).run wired = some ((value, after), next))
    (inTime : wait.InTime) :
    value = (if clientAddress client ∈ populated then 0 else -ENODEV) ∧
      (clientAddress client ∈ populated →
        after frame.data = (wired.bus.chips (clientAddress client)).contents command) ∧
      Keeps (clientAddress client) (wired.bus.chips (clientAddress client)).contents
        wired.bus.chips next.bus.chips := by
  have ends := busXfer_to (readMsgs_ne_nil client frame) (target_readMsgs client frame) ran inTime
  rw [serveAll_readMsgs] at ends
  split at ends
  next here =>
    obtain ⟨rfl, chips, rfl⟩ := ends
    rw [if_pos here, chips]
    exact ⟨rfl, fun _ => Function.update_self .., keeps_update rfl⟩
  next missing =>
    obtain ⟨rfl, chips⟩ := ends
    rw [if_neg missing, chips]
    exact ⟨rfl, fun here => absurd here missing, keeps_all ..⟩

theorem serveAll_wordMsgs (chip : Chip) (client : UInt16) (frame : ReadFrame) (mem : Mem)
    (addr : UInt8) :
    chip.serveAll (wordMsgs client frame) (Function.update mem frame.addr addr) =
      ({ chip with pointer := addr + 1 + 1 },
        Function.update
          (Function.update (Function.update mem frame.addr addr) frame.data
            (chip.contents addr))
          (frame.data + 1) (chip.contents (addr + 1))) := by
  simp [wordMsgs, Chip.serveAll, Chip.serve, I2cMsg.isRead, I2C_M_RD, Chip.accept,
    Chip.store, Chip.answer]

/-- Those of a word bring two bytes. -/
theorem busXfer_wordMsgs {command : UInt8}
    (ran : (busXfer populated wait (wordMsgs client frame)
      (Function.update mem frame.addr command)).run wired = some ((value, after), next))
    (inTime : wait.InTime) :
    value = (if clientAddress client ∈ populated then 0 else -ENODEV) ∧
      (clientAddress client ∈ populated →
        after frame.data = (wired.bus.chips (clientAddress client)).contents command) ∧
      (clientAddress client ∈ populated →
        after (frame.data + 1) =
          (wired.bus.chips (clientAddress client)).contents (command + 1)) ∧
      Keeps (clientAddress client) (wired.bus.chips (clientAddress client)).contents
        wired.bus.chips next.bus.chips := by
  have ends := busXfer_to (wordMsgs_ne_nil client frame) (target_wordMsgs client frame) ran inTime
  rw [serveAll_wordMsgs] at ends
  split at ends
  next here =>
    obtain ⟨rfl, chips, rfl⟩ := ends
    rw [if_pos here, chips]
    refine ⟨rfl, fun _ => ?_, fun _ => Function.update_self .., keeps_update rfl⟩
    have before : frame.data ≠ frame.data + 1 := Nat.ne_of_lt (Nat.lt_succ_self _)
    simp only [Function.update_of_ne before, Function.update_self]
  next missing =>
    obtain ⟨rfl, chips⟩ := ends
    rw [if_neg missing, chips]
    exact ⟨rfl, fun here => absurd here missing, fun here => absurd here missing, keeps_all ..⟩

/-- The message of a write stores the byte there. -/
theorem busXfer_writeMsgs {val : Nat} {command byte : UInt8}
    (ran : (busXfer populated wait (writeMsgs client val)
      (Function.update (Function.update mem val command) (val + 1) byte)).run wired =
        some ((value, after), next))
    (inTime : wait.InTime) :
    value = (if clientAddress client ∈ populated then 0 else -ENODEV) ∧
      Keeps (clientAddress client)
        (overlay (wired.bus.chips (clientAddress client)).contents
          (if clientAddress client ∈ populated then some (command, byte) else none).toList)
        wired.bus.chips next.bus.chips := by
  have ends := busXfer_to (writeMsgs_ne_nil client val) (target_writeMsgs client val) ran inTime
  rw [serveAll_writeMsgs] at ends
  split at ends
  next here =>
    obtain ⟨rfl, chips, -⟩ := ends
    rw [if_pos here, if_pos here, chips]
    exact ⟨rfl, keeps_update rfl⟩
  next missing =>
    obtain ⟨rfl, chips⟩ := ends
    rw [if_neg missing, if_neg missing, chips]
    exact ⟨rfl, keeps_all ..⟩

end

/-! ## The calls -/

section

variable {populated : List UInt8} {client : UInt16} {wait : Wait}
variable {calls : Wait → SmbusCalls (StateT Wired Option)} {wired next : Wired}
variable {command byte : UInt8} {value : Int}

/-- A byte is read as the chip has it, and no chip changes what it keeps. -/
theorem Emulates.read_ends (emulates : Emulates (busXfer populated) calls)
    (ran : ((calls wait).readByteData client command).run wired = some (value, next)) :
    (wait.InTime →
      value = (if clientAddress client ∈ populated then
          (((wired.bus.chips (clientAddress client)).contents command).toNat : Int)
        else -ENODEV) ∧
        Keeps (clientAddress client) (wired.bus.chips (clientAddress client)).contents
          wired.bus.chips next.bus.chips) ∧
      (¬ wait.InTime → value = -ETIMEDOUT) := by
  obtain ⟨frame, mem, call⟩ := emulates.readByteData client command
  rw [call wait] at ran
  obtain ⟨⟨⟨status, after⟩, middle⟩, transferred, returned⟩ := Option.bind_eq_some_iff.mp ran
  cases returned
  constructor
  · intro inTime
    obtain ⟨status_eq, delivered, keeps⟩ := busXfer_readMsgs transferred inTime
    refine ⟨?_, keeps⟩
    by_cases here : clientAddress client ∈ populated
    · rw [if_pos here] at status_eq ⊢
      have fine : ¬ (0 : Int) < 0 := Int.lt_irrefl 0
      rw [status_eq, if_neg fine, delivered here]
    · rw [if_neg here] at status_eq ⊢
      have refused : (-ENODEV : Int) < 0 := by decide
      rw [status_eq, if_pos refused]
  · intro late
    have failed : (-ETIMEDOUT : Int) < 0 := by decide
    rw [(busXfer_ends populated wired _ _ _ transferred).2 late, if_pos failed]

/-- A byte is stored in the chip, if there is one. -/
theorem Emulates.write_ends (emulates : Emulates (busXfer populated) calls)
    (ran : ((calls wait).writeByteData client command byte).run wired = some (value, next)) :
    (wait.InTime →
      value = (if clientAddress client ∈ populated then 0 else -ENODEV) ∧
        Keeps (clientAddress client)
          (overlay (wired.bus.chips (clientAddress client)).contents
            (if clientAddress client ∈ populated then some (command, byte) else none).toList)
          wired.bus.chips next.bus.chips) ∧
      (¬ wait.InTime → value = -ETIMEDOUT) := by
  obtain ⟨val, mem, call⟩ := emulates.writeByteData client command byte
  rw [call wait] at ran
  obtain ⟨⟨⟨status, after⟩, middle⟩, transferred, returned⟩ := Option.bind_eq_some_iff.mp ran
  cases returned
  constructor
  · intro inTime
    obtain ⟨status_eq, keeps⟩ := busXfer_writeMsgs transferred inTime
    refine ⟨?_, keeps⟩
    rw [status_eq]
    split <;> rfl
  · intro late
    have failed : (-ETIMEDOUT : Int) < 0 := by decide
    rw [(busXfer_ends populated wired _ _ _ transferred).2 late, if_pos failed]

/-- Two bytes are read from one place on. -/
theorem Emulates.readWord_ends (emulates : Emulates (busXfer populated) calls)
    (ran : ((calls wait).readWordData client command).run wired = some (value, next)) :
    (wait.InTime →
      value = (if clientAddress client ∈ populated then
          ((wordOf ((wired.bus.chips (clientAddress client)).contents command)
            ((wired.bus.chips (clientAddress client)).contents (command + 1))).toNat : Int)
        else -ENODEV) ∧
        Keeps (clientAddress client) (wired.bus.chips (clientAddress client)).contents
          wired.bus.chips next.bus.chips) ∧
      (¬ wait.InTime → value = -ETIMEDOUT) := by
  obtain ⟨frame, mem, call⟩ := emulates.readWordData client command
  rw [call wait] at ran
  obtain ⟨⟨⟨status, after⟩, middle⟩, transferred, returned⟩ := Option.bind_eq_some_iff.mp ran
  cases returned
  constructor
  · intro inTime
    obtain ⟨status_eq, low, high, keeps⟩ := busXfer_wordMsgs transferred inTime
    refine ⟨?_, keeps⟩
    by_cases here : clientAddress client ∈ populated
    · rw [if_pos here] at status_eq ⊢
      have fine : ¬ (0 : Int) < 0 := Int.lt_irrefl 0
      rw [status_eq, if_neg fine, low here, high here]
    · rw [if_neg here] at status_eq ⊢
      have refused : (-ENODEV : Int) < 0 := by decide
      rw [status_eq, if_pos refused]
  · intro late
    have failed : (-ETIMEDOUT : Int) < 0 := by decide
    rw [(busXfer_ends populated wired _ _ _ transferred).2 late, if_pos failed]

end

/-! ## A request -/

/-- What a request in time does on the bus, with the value that it returns and the buffer. -/
structure Answers (populated : List UInt8) (client : UInt16) (request : Request)
    (before after : UInt8 → Chip) (reply : Reply) : Prop where
  reply_eq : reply =
    request.reply (clientAddress client ∈ populated) (before (clientAddress client)).contents
  keeps : Keeps (clientAddress client)
    (overlay (before (clientAddress client)).contents
      (request.stores (clientAddress client ∈ populated)).toList) before after

section

variable {populated : List UInt8} {client : UInt16} {wait : Wait}
variable {calls : Wait → SmbusCalls (StateT Wired Option)} {wired next : Wired}
variable {value : Int} {user : UserBuf} {bytes mem : Mem} {size val : Nat} {frame : ReadFrame}

theorem answers_smbusRead (emulates : Emulates (busXfer populated) calls)
    (ran : ((Request.smbusRead bytes size).perform populated client calls wait).run wired =
      some ((value, user), next)) :
    (wait.InTime → Answers populated client (.smbusRead bytes size) wired.bus.chips
      next.bus.chips ⟨value, user.bytes⟩) ∧
      (¬ wait.InTime → (⟨value, user.bytes⟩ : Reply) =
        (Request.smbusRead bytes size).lateReply) := by
  simp only [Request.perform, Smbus.at24cxxRead, StateT.run_bind, Option.bind_eq_bind,
    Option.bind_eq_some_iff] at ran
  obtain ⟨⟨data, middle⟩, called, ended⟩ := ran
  cases ended
  obtain ⟨inTime, late⟩ := emulates.read_ends called
  constructor
  · intro prompt
    obtain ⟨rfl, keeps⟩ := inTime prompt
    refine ⟨?_, keeps⟩
    by_cases here : clientAddress client ∈ populated
    · simp [Request.reply, here, Smbus.ofInt_toNat]
    · simp [Request.reply, here]
  · intro slow
    rw [late slow]
    rfl

theorem answers_smbusWrite (emulates : Emulates (busXfer populated) calls)
    (ran : ((Request.smbusWrite bytes size).perform populated client calls wait).run wired =
      some ((value, user), next)) :
    (wait.InTime → Answers populated client (.smbusWrite bytes size) wired.bus.chips
      next.bus.chips ⟨value, user.bytes⟩) ∧
      (¬ wait.InTime → (⟨value, user.bytes⟩ : Reply) =
        (Request.smbusWrite bytes size).lateReply) := by
  simp only [Request.perform, Smbus.at24cxxWrite, StateT.run_bind, Option.bind_eq_bind,
    Option.bind_eq_some_iff] at ran
  obtain ⟨⟨result, middle⟩, called, ended⟩ := ran
  obtain ⟨inTime, late⟩ := emulates.write_ends called
  constructor
  · intro prompt
    obtain ⟨rfl, keeps⟩ := inTime prompt
    by_cases here : clientAddress client ∈ populated
    · rw [if_pos here, if_pos rfl] at ended
      cases ended
      refine ⟨?_, ?_⟩
      · simp [Request.reply, here]
      · simpa [Request.stores, here] using keeps
    · have refused : (-ENODEV : Int) ≠ 0 := by decide
      rw [if_neg here, if_neg refused] at ended
      cases ended
      refine ⟨?_, ?_⟩
      · simp [Request.reply, here]
      · simpa [Request.stores, here] using keeps
  · intro slow
    have failed : (-ETIMEDOUT : Int) ≠ 0 := by decide
    rw [late slow, if_neg failed] at ended
    cases ended
    rfl

theorem answers_read
    (ran : ((Request.read frame mem bytes size).perform populated client calls wait).run wired =
      some ((value, user), next)) :
    (wait.InTime → Answers populated client (.read frame mem bytes size) wired.bus.chips
      next.bus.chips ⟨value, user.bytes⟩) ∧
      (¬ wait.InTime → (⟨value, user.bytes⟩ : Reply) =
        (Request.read frame mem bytes size).lateReply) := by
  simp only [Request.perform, at24cxxRead] at ran
  split at ran
  next other =>
    cases ran
    exact ⟨fun _ => ⟨rfl, keeps_all ..⟩, fun _ => rfl⟩
  next one =>
    simp only [StateT.run_bind, Option.bind_eq_bind, Option.bind_eq_some_iff] at ran
    obtain ⟨⟨⟨status, after⟩, middle⟩, transferred, ended⟩ := ran
    constructor
    · intro inTime
      obtain ⟨status_eq, -, keeps⟩ := busXfer_readMsgs transferred inTime
      have notCount : status ≠ 2 := by
        rw [status_eq]
        split <;> decide
      rw [if_neg notCount] at ended
      cases ended
      exact ⟨rfl, keeps⟩
    · intro late
      have notCount : (-ETIMEDOUT : Int) ≠ 2 := by decide
      rw [(busXfer_ends populated wired _ _ _ transferred).2 late, if_neg notCount] at ended
      cases ended
      rfl

theorem answers_write
    (ran : ((Request.write val mem bytes size).perform populated client calls wait).run wired =
      some ((value, user), next)) :
    (wait.InTime → Answers populated client (.write val mem bytes size) wired.bus.chips
      next.bus.chips ⟨value, user.bytes⟩) ∧
      (¬ wait.InTime → (⟨value, user.bytes⟩ : Reply) =
        (Request.write val mem bytes size).lateReply) := by
  simp only [Request.perform, at24cxxWrite] at ran
  split at ran
  next other =>
    cases ran
    refine ⟨fun _ => ⟨rfl, ?_⟩, fun _ => rfl⟩
    simpa [Request.stores, other] using keeps_all (clientAddress client) wired.bus.chips
  next two =>
    simp only [StateT.run_bind, Option.bind_eq_bind, Option.bind_eq_some_iff] at ran
    obtain ⟨⟨⟨status, after⟩, middle⟩, transferred, ended⟩ := ran
    constructor
    · intro inTime
      obtain ⟨status_eq, keeps⟩ := busXfer_writeMsgs transferred inTime
      have notCount : status ≠ 1 := by
        rw [status_eq]
        split <;> decide
      rw [if_neg notCount] at ended
      cases ended
      refine ⟨rfl, ?_⟩
      simpa [Request.stores, not_not.mp two] using keeps
    · intro late
      have notCount : (-ETIMEDOUT : Int) ≠ 1 := by decide
      rw [(busXfer_ends populated wired _ _ _ transferred).2 late, if_neg notCount] at ended
      cases ended
      rfl

/-- A request in time has its reply from what the chip keeps, any other the one of an error. -/
theorem Request.answers (emulates : Emulates (busXfer populated) calls)
    {request : Request}
    (ran : (request.perform populated client calls wait).run wired =
      some ((value, user), next)) :
    (wait.InTime → Answers populated client request wired.bus.chips next.bus.chips
      ⟨value, user.bytes⟩) ∧
      (¬ wait.InTime → (⟨value, user.bytes⟩ : Reply) = request.lateReply) := by
  cases request with
  | smbusRead bytes size => exact answers_smbusRead emulates ran
  | smbusWrite bytes size => exact answers_smbusWrite emulates ran
  | read frame mem bytes size => exact answers_read ran
  | write val mem bytes size => exact answers_write ran

end

/-! ## No request is stuck -/

section

variable {populated : List UInt8}
variable {calls : Wait → SmbusCalls (StateT Wired Option)}

theorem Emulates.exists_read (emulates : Emulates (busXfer populated) calls) (client : UInt16)
    (command : UInt8) (wired : Wired) :
    ∃ wait done, wait.InTime ∧
      ((calls wait).readByteData client command).run wired = some done := by
  obtain ⟨frame, mem, call⟩ := emulates.readByteData client command
  obtain ⟨wait, done, inTime, ran⟩ :=
    exists_busXfer populated wired (Function.update mem frame.addr command)
      (readMsgs_ne_nil client frame)
  refine ⟨wait, ?_⟩
  rw [call wait, StateT.run_bind, ran]
  exact ⟨_, inTime, rfl⟩

theorem Emulates.exists_write (emulates : Emulates (busXfer populated) calls)
    (client : UInt16) (command byte : UInt8) (wired : Wired) :
    ∃ wait done, wait.InTime ∧
      ((calls wait).writeByteData client command byte).run wired = some done := by
  obtain ⟨val, mem, call⟩ := emulates.writeByteData client command byte
  obtain ⟨wait, done, inTime, ran⟩ :=
    exists_busXfer populated wired
      (Function.update (Function.update mem val command) (val + 1) byte)
      (writeMsgs_ne_nil client val)
  refine ⟨wait, ?_⟩
  rw [call wait, StateT.run_bind, ran]
  exact ⟨_, inTime, rfl⟩

theorem Emulates.exists_readWord (emulates : Emulates (busXfer populated) calls)
    (client : UInt16) (command : UInt8) (wired : Wired) :
    ∃ wait done, wait.InTime ∧
      ((calls wait).readWordData client command).run wired = some done := by
  obtain ⟨frame, mem, call⟩ := emulates.readWordData client command
  obtain ⟨wait, done, inTime, ran⟩ :=
    exists_busXfer populated wired (Function.update mem frame.addr command)
      (wordMsgs_ne_nil client frame)
  refine ⟨wait, ?_⟩
  rw [call wait, StateT.run_bind, ran]
  exact ⟨_, inTime, rfl⟩

/-- The chips let every request end, and in time. -/
theorem Request.exists_perform (emulates : Emulates (busXfer populated) calls)
    (client : UInt16) (request : Request) (wired : Wired) :
    ∃ wait done, wait.InTime ∧
      (request.perform populated client calls wait).run wired = some done := by
  cases request with
  | smbusRead bytes size =>
      obtain ⟨wait, ⟨data, next⟩, inTime, ran⟩ := emulates.exists_read client (bytes 0) wired
      refine ⟨wait, ?_⟩
      simp only [Request.perform, Smbus.at24cxxRead, StateT.run_bind,
        UserBuf.copyFromUser_bytes, ran]
      exact ⟨_, inTime, rfl⟩
  | smbusWrite bytes size =>
      obtain ⟨wait, ⟨result, next⟩, inTime, ran⟩ :=
        emulates.exists_write client (bytes 0) (bytes 1) wired
      refine ⟨wait, ?_⟩
      simp only [Request.perform, Smbus.at24cxxWrite, StateT.run_bind,
        UserBuf.copyFromUser_bytes, ran, Option.bind_eq_bind, Option.bind_some]
      split
      · exact ⟨_, inTime, rfl⟩
      · exact ⟨_, inTime, rfl⟩
  | read frame mem bytes size =>
      by_cases one : size = 1
      · obtain ⟨wait, ⟨⟨status, after⟩, next⟩, inTime, ran⟩ := exists_busXfer populated wired
          (Function.update mem frame.addr (bytes 0)) (readMsgs_ne_nil client frame)
        refine ⟨wait, ?_⟩
        simp only [Request.perform, at24cxxRead, one, ne_eq, not_true_eq_false, if_false,
          StateT.run_bind, UserBuf.copyFromUser_bytes, ran, Option.bind_eq_bind,
          Option.bind_some]
        split
        · exact ⟨_, inTime, rfl⟩
        · exact ⟨_, inTime, rfl⟩
      · simp only [Request.perform, at24cxxRead, ne_eq, one, not_false_eq_true, if_true]
        exact ⟨⟨[], 1⟩, _, Nat.one_ne_zero, rfl⟩
  | write val mem bytes size =>
      by_cases two : size = 2
      · obtain ⟨wait, ⟨⟨status, after⟩, next⟩, inTime, ran⟩ := exists_busXfer populated wired
          (Function.update (Function.update mem val (bytes 0)) (val + 1) (bytes 1))
          (writeMsgs_ne_nil client val)
        refine ⟨wait, ?_⟩
        simp only [Request.perform, at24cxxWrite, two, ne_eq, not_true_eq_false, if_false,
          StateT.run_bind, UserBuf.copyFromUser_bytes, ran, Option.bind_eq_bind,
          Option.bind_some]
        split
        · exact ⟨_, inTime, rfl⟩
        · exact ⟨_, inTime, rfl⟩
      · simp only [Request.perform, at24cxxWrite, ne_eq, two, not_false_eq_true, if_true]
        exact ⟨⟨[], 1⟩, _, Nat.one_ne_zero, rfl⟩

end

/-! ## The requests of a run -/

/-- The chip keeps what the requests have stored, every request had the reply that this
gives, and the other chips are as they were. -/
structure Stack.Simulates (present : Bool) (address : UInt8) (initial : UInt8 → Chip)
    (stack : Stack) : Prop where
  keeps : Keeps address (storedBy present (initial address).contents stack.log) initial
    stack.wired.bus.chips
  replies : Throughout (fun before entry =>
    entry.2 = entry.1.reply present (storedBy present (initial address).contents before)) stack.log

theorem storedBy_concat (present : Bool) (initial : UInt8 → UInt8)
    (log : List (Request × Reply)) (request : Request) (reply : Reply) :
    storedBy present initial (log ++ [(request, reply)]) =
      overlay (storedBy present initial log) (request.stores present).toList := by
  rw [storedBy, List.filterMap_append, overlay_append]
  cases stored : request.stores present <;> simp [stored, storedBy]

section

variable {populated : List UInt8} {client : UInt16}
variable {calls : Wait → SmbusCalls (StateT Wired Option)}

theorem Stack.step_simulates (emulates : Emulates (busXfer populated) calls)
    (initial : UInt8 → Chip) :
    (Stack.step populated client calls).Preserves (fun _ call => call.2.InTime)
      (Stack.Simulates (clientAddress client ∈ populated) (clientAddress client) initial) := by
  rintro stack ⟨request, wait⟩ next simulates inTime taken
  obtain ⟨⟨⟨value, user⟩, wired⟩, ran, logged⟩ := Option.bind_eq_some_iff.mp taken
  obtain rfl := Option.some.inj logged
  have answers := (request.answers emulates ran).1 inTime
  constructor
  case keeps =>
    refine ⟨?_, fun other different => ?_⟩
    · rw [storedBy_concat, ← simulates.keeps.contents]
      exact answers.keeps.contents
    · exact (answers.keeps.others other different).trans (simulates.keeps.others other different)
  case replies =>
    refine throughout_concat simulates.replies ?_
    rw [← simulates.keeps.contents]
    exact answers.reply_eq

theorem Stack.exists_run (emulates : Emulates (busXfer populated) calls) (client : UInt16)
    (requests : List Request) (stack : Stack) :
    ∃ performed final, performed.map Prod.fst = requests ∧
      (∀ call ∈ performed, call.2.InTime) ∧
      (Stack.step populated client calls).run stack performed = some final := by
  induction requests generalizing stack with
  | nil => exact ⟨[], stack, rfl, List.forall_mem_nil _, rfl⟩
  | cons request requests ih =>
      obtain ⟨wait, done, inTime, ran⟩ := request.exists_perform emulates client stack.wired
      have taken : ∃ next,
          Stack.step populated client calls stack (request, wait) = some next := by
        simp only [Stack.step, ran]
        exact ⟨_, rfl⟩
      obtain ⟨next, taken⟩ := taken
      obtain ⟨performed, final, rfl, allInTime, reached⟩ := ih next
      refine ⟨(request, wait) :: performed, final, rfl, ?_, ?_⟩
      · exact List.forall_mem_cons.mpr ⟨inTime, allInTime⟩
      · exact (Step.run_cons_of_eq taken performed).trans reached

end

end Mini2440.Eeprom
