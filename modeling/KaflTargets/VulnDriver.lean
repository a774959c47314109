import KaflTargets.Lib.Memory
import KaflTargets.Lib.Prog

/-!
# The Windows test driver (`windows_x86_64/src/kafl_vulnerable_driver/driver.c`)

The driver creates a device and a link to it when it is loaded, deletes both when it is
unloaded, and answers requests in between. A device control request with the right code goes
to `crashMe`, which compares the input with two words letter by letter, reports every letter
that is there, and crashes at the end of a word. It reads the input through the pointer of the
request, which nothing has checked.

The system that calls the routines is not part of the repository. What is assumed of it is
`Phase.Lawful`: it loads a driver that is not loaded, sends requests to a device that is there,
the device that a failed `DriverEntry` has left included, and unloads a driver that is loaded.

Results:
1. `crashMe_run`: what is reported for an input and when it crashes.
2. `handleIrp_run`: a request is completed once, with the status it returns, unless it
   crashes.
3. `life_refines`: a lawful life of the driver, with all its loads, requests and unloads, is that
   of a machine with three states; `driver_survives_iff`: when the kernel survives it.
-/

namespace KaflTargets.VulnDriver

open CString Prog

/-! ## The kernel -/

def STATUS_SUCCESS : UInt32 := 0
def STATUS_INVALID_PARAMETER : UInt32 := 0xC000000D
def STATUS_OBJECT_NAME_COLLISION : UInt32 := 0xC0000035
def STATUS_NOT_SUPPORTED : UInt32 := 0xC00000BB

/-- `NT_SUCCESS`. -/
def ntSuccess (status : UInt32) : Bool := status < 0x80000000

/-- A status of a call that failed. -/
abbrev Failure := { status : UInt32 // ntSuccess status = false }

def IRP_MJ_CREATE : Nat := 0x00
def IRP_MJ_CLOSE : Nat := 0x02
def IRP_MJ_DEVICE_CONTROL : Nat := 0x0e
def IRP_MJ_MAXIMUM_FUNCTION : Nat := 0x1b

/-- `CTL_CODE`. -/
def ctlCode (deviceType function method access : Nat) : Nat :=
  deviceType <<< 16 ||| access <<< 14 ||| function <<< 2 ||| method

/-- `CTL_CODE(FILE_DEVICE_UNKNOWN, 0x800, METHOD_NEITHER, FILE_ANY_ACCESS)`. -/
def IOCTL_KAFL_INPUT : Nat := ctlCode 0x22 0x800 3 0

def DEVICE_NAME : Bytes := ascii "\\Device\\testKafl"
def DOS_DEVICE_NAME : Bytes := ascii "\\DosDevices\\testKafl"

/-- Why the kernel does not run on. -/
inductive Fatal
  /-- The call of the function at 0. -/
  | nullCall
  /-- The read from 0. -/
  | nullRead
  /-- A read from an address of the request that cannot be read. -/
  | badRead
  /-- `IoDeleteDevice` was given a null pointer. -/
  | deleteNull
  deriving DecidableEq

/-- What the driver can read in the process that made the request. -/
abbrev UserMem := Nat → Option UInt8

/-- The fields of an `IO_STACK_LOCATION` that are read. -/
structure IoStackLocation where
  majorFunction : Nat
  ioControlCode : Nat
  inputBufferLength : Nat
  type3InputBuffer : Nat

/-- The fields of a `DRIVER_OBJECT` that are read or set. The device is known by its name; of
the dispatch routines counts which are `handleIrp`, of the unload routine, whether there
is one. -/
structure DriverObject where
  deviceObject : Option Bytes := none
  majorFunction : Nat → Bool := fun _ => false
  driverUnload : Bool := false

/-- What the driver changes: the output of `DbgPrint`, the status of each completed request,
the named objects. -/
structure Kernel where
  log : List Bytes := []
  completed : List UInt32 := []
  devices : List Bytes := []
  links : List Bytes := []

abbrev Driver := Prog Fatal Kernel

def dbgPrint (text : Bytes) : Driver Unit :=
  Prog.modify fun k => { k with log := k.log ++ [text] }

theorem dbgPrint_run (text : Bytes) (k : Kernel) :
    (dbgPrint text).run k = (.ok (), { k with log := k.log ++ [text] }) := rfl

/-- `IoCompleteRequest`. -/
def ioCompleteRequest (status : UInt32) : Driver Unit :=
  Prog.modify fun k => { k with completed := k.completed ++ [status] }

/-- `IoCreateDevice`: it fails for a reason of its own, or because the name is taken. -/
def ioCreateDevice (err : Option Failure) (name : Bytes) : Driver UInt32 :=
  ⟨fun k =>
    match err with
    | some failure => (.ok failure.val, k)
    | none =>
      if name ∈ k.devices then (.ok STATUS_OBJECT_NAME_COLLISION, k)
      else (.ok STATUS_SUCCESS, { k with devices := name :: k.devices })⟩

def ioDeleteDevice : Option Bytes → Driver Unit
  | none => Prog.stop .deleteNull
  | some name => Prog.modify fun k => { k with devices := k.devices.erase name }

def ioCreateSymbolicLink (err : Option Failure) (name : Bytes) : Driver UInt32 :=
  ⟨fun k =>
    match err with
    | some failure => (.ok failure.val, k)
    | none =>
      if name ∈ k.links then (.ok STATUS_OBJECT_NAME_COLLISION, k)
      else (.ok STATUS_SUCCESS, { k with links := name :: k.links })⟩

def ioDeleteSymbolicLink (name : Bytes) : Driver Unit :=
  Prog.modify fun k => { k with links := k.links.erase name }

/-! ## The driver -/

/-- The message for the letters of a word up to one that is there. -/
def rung (word : Bytes) (i : Nat) : Bytes :=
  ascii "[+] KAFL vuln drv -- " ++ word.take (i + 1) ++
    if i + 1 = word.length then ascii ": CRASH" else []

def readUser (mem : UserMem) (addr : Nat) : Driver UInt8 :=
  match mem addr with
  | some c => pure c
  | none => Prog.stop .badRead

/-- The nested `if`s for a word, from its letter `i` on. -/
def ladder (mem : UserMem) (userBuffer : Nat) (word : Bytes) (crash : Fatal) :
    Nat → Bytes → Driver Unit
  | _, [] => Prog.stop crash
  | i, c :: rest => do
    let b ← readUser mem (userBuffer + i)
    if b = c then
      dbgPrint (rung word i)
      ladder mem userBuffer word crash (i + 1) rest

/-- `crashMe`. -/
def crashMe (mem : UserMem) (irpStack : IoStackLocation) : Driver UInt32 :=
  if irpStack.inputBufferLength < 0xe then pure STATUS_SUCCESS
  else do
    let userBuffer := irpStack.type3InputBuffer
    ladder mem userBuffer (ascii "PwnTown") .nullCall 0 (ascii "PwnTown")
    ladder mem userBuffer (ascii "w00t") .nullRead 0 (ascii "w00t")
    pure STATUS_SUCCESS

/-- The `switch` of `handleIrp`, for the status of the request. -/
def irpSwitch (mem : UserMem) (irpStack : IoStackLocation) : Driver UInt32 :=
  if irpStack.majorFunction = IRP_MJ_DEVICE_CONTROL then
    if irpStack.ioControlCode = IOCTL_KAFL_INPUT then do
      dbgPrint (ascii "[+] KAFL vuln drv -- crash attempt\n")
      crashMe mem irpStack
    else pure STATUS_INVALID_PARAMETER
  else if irpStack.majorFunction = IRP_MJ_CREATE ∨ irpStack.majorFunction = IRP_MJ_CLOSE then
    pure STATUS_SUCCESS
  else pure STATUS_NOT_SUPPORTED

/-- `handleIrp`. -/
def handleIrp (mem : UserMem) (irpStack : IoStackLocation) : Driver UInt32 := do
  let status ← irpSwitch mem irpStack
  ioCompleteRequest status
  pure status

/-- `DriverUnload`. -/
def driverUnload (driverObj : DriverObject) : Driver Unit := do
  ioDeleteSymbolicLink DOS_DEVICE_NAME
  ioDeleteDevice driverObj.deviceObject
  dbgPrint (ascii "[+] KAFL vuln drv -- unloaded")

/-- `DriverEntry`, which fills the driver object. -/
def driverEntry (createErr linkErr : Option Failure) (driverObj : DriverObject) :
    Driver (UInt32 × DriverObject) := do
  let ntstatus ← ioCreateDevice createErr DEVICE_NAME
  if !ntSuccess ntstatus then
    dbgPrint (ascii "[-] KAFL vuln drv -- IoCreateDevice failed: 0x" ++
      ((hex ntstatus.toNat).map fun c => if 97 ≤ c then c - 32 else c) ++ ascii "\n")
    -- the device of the driver object, not `deviceObject`
    ioDeleteDevice driverObj.deviceObject
    pure (ntstatus, driverObj)
  else
    let driverObj := { driverObj with
      deviceObject := some DEVICE_NAME
      majorFunction := fun i => i ≤ IRP_MJ_MAXIMUM_FUNCTION || driverObj.majorFunction i
      driverUnload := true }
    let ntstatus ← ioCreateSymbolicLink linkErr DOS_DEVICE_NAME
    dbgPrint (ascii "[+] KAFL vuln drv -- loaded")
    pure (ntstatus, driverObj)

/-! ## 1. The verdict -/

/-- The first of `n` bytes, up to one that cannot be read. -/
def held (mem : UserMem) : Nat → Nat → Bytes
  | _, 0 => []
  | addr, n + 1 =>
    match mem addr with
    | some c => c :: held mem (addr + 1) n
    | none => []

/-- How many letters of the word the input starts with. -/
def matched : Bytes → Bytes → Nat
  | c :: word, b :: input => if b = c then matched word input + 1 else 0
  | _, _ => 0

/-- The messages for a word. -/
def rungs (word input : Bytes) : List Bytes :=
  (List.range (matched word input)).map (rung word)

/-- Where the bytes of a word end that can be read and are all right, it crashes: behind the
word, or at the byte that cannot be read. -/
def wordVerdict (word : Bytes) (crash : Fatal) (input : Bytes) : Except Fatal Unit :=
  if input <+: word then .error (if input = word then crash else .badRead) else .ok ()

/-- What `crashMe` makes of an input of at least 14 bytes. -/
def verdict (mem : UserMem) (userBuffer : Nat) : Except Fatal UInt32 := do
  wordVerdict (ascii "PwnTown") .nullCall (held mem userBuffer 7)
  wordVerdict (ascii "w00t") .nullRead (held mem userBuffer 4)
  pure STATUS_SUCCESS

namespace DriverLemmas

/-- One nest of `if`s, from the letter `i` on. -/
theorem ladder_run (mem : UserMem) (buf : Nat) (word : Bytes) (crash : Fatal) :
    ∀ (rest : Bytes) (i : Nat) (k : Kernel),
    (ladder mem buf word crash i rest).run k =
      (wordVerdict rest crash (held mem (buf + i) rest.length),
        { k with log := k.log ++ (List.range (matched rest
          (held mem (buf + i) rest.length))).map fun j => rung word (i + j) }) := by
  intro rest
  induction rest with
  | nil =>
    intro i k
    simp [ladder, matched, held, wordVerdict]
  | cons c rest ih =>
    intro i k
    rw [List.length_cons, held, ladder, readUser]
    cases mem (buf + i) with
    | none =>
      simp [wordVerdict, matched]
      rfl
    | some b =>
      rw [Prog.run_bind_ok (Prog.run_pure b k)]
      by_cases hc : b = c
      · rw [if_pos hc, Prog.run_bind_ok (dbgPrint_run _ _), ih (i + 1)]
        simp [wordVerdict, matched, hc, List.range_succ_eq_map, Function.comp_def, Nat.add_assoc,
          Nat.add_comm 1]
      · rw [if_neg hc]
        simp [wordVerdict, matched, hc]

/-- The `if`s for a word of `n` letters. -/
theorem word_run (mem : UserMem) (buf : Nat) (word : Bytes) {n : Nat} (hn : word.length = n)
    (crash : Fatal) (k : Kernel) :
    (ladder mem buf word crash 0 word).run k =
      (wordVerdict word crash (held mem buf n),
        { k with log := k.log ++ rungs word (held mem buf n) }) := by
  have hrun := ladder_run mem buf word crash word 0 k
  simpa only [rungs, Nat.add_zero, Nat.zero_add, hn] using hrun

/-- An input that may still be the first word is not the second one. -/
theorem rungs_other {mem : UserMem} {buf : Nat} (h : held mem buf 7 <+: ascii "PwnTown") :
    rungs (ascii "w00t") (held mem buf 4) = [] := by
  unfold held at h ⊢
  cases hread : mem buf with
  | none => rfl
  | some c =>
    rw [hread] at h
    obtain rfl : c = 80 := (List.cons_prefix_cons.mp h).1
    rfl

end DriverLemmas

open DriverLemmas

/-- Every letter of a word that is there is reported; a whole word crashes, and so does a byte
that cannot be read and that a word comes to. -/
theorem crashMe_run (mem : UserMem) (irpStack : IoStackLocation) (k : Kernel) :
    (crashMe mem irpStack).run k =
      if irpStack.inputBufferLength < 14 then (.ok STATUS_SUCCESS, k)
      else
        (verdict mem irpStack.type3InputBuffer, { k with
          log := k.log ++ (rungs (ascii "PwnTown") (held mem irpStack.type3InputBuffer 7) ++
            rungs (ascii "w00t") (held mem irpStack.type3InputBuffer 4)) }) := by
  unfold crashMe
  rw [Prog.run_ite]
  split
  · rfl
  · have hpwn := word_run mem irpStack.type3InputBuffer (ascii "PwnTown") (n := 7) rfl
      .nullCall k
    unfold verdict
    by_cases hfirst : held mem irpStack.type3InputBuffer 7 <+: ascii "PwnTown"
    · rw [wordVerdict, if_pos hfirst] at hpwn ⊢
      rw [Prog.run_bind_error hpwn, rungs_other hfirst, List.append_nil]
      rfl
    · rw [wordVerdict, if_neg hfirst] at hpwn ⊢
      have hwoot := word_run mem irpStack.type3InputBuffer (ascii "w00t") (n := 4) rfl
        .nullRead { k with
          log := k.log ++ rungs (ascii "PwnTown") (held mem irpStack.type3InputBuffer 7) }
      rw [Prog.run_bind_ok hpwn, ← List.append_assoc]
      cases hverdict : wordVerdict (ascii "w00t") .nullRead
          (held mem irpStack.type3InputBuffer 4) with
      | error fatal =>
        rw [hverdict] at hwoot
        rw [Prog.run_bind_error hwoot]
        rfl
      | ok u =>
        rw [hverdict] at hwoot
        rw [Prog.run_bind_ok hwoot]
        rfl

/-! ## 2. Requests -/

/-- The status of a request, or how it crashes. -/
def answer (mem : UserMem) (irpStack : IoStackLocation) : Except Fatal UInt32 :=
  if irpStack.majorFunction = IRP_MJ_DEVICE_CONTROL then
    if irpStack.ioControlCode = IOCTL_KAFL_INPUT then
      if irpStack.inputBufferLength < 14 then .ok STATUS_SUCCESS
      else verdict mem irpStack.type3InputBuffer
    else .ok STATUS_INVALID_PARAMETER
  else if irpStack.majorFunction = IRP_MJ_CREATE ∨ irpStack.majorFunction = IRP_MJ_CLOSE then
    .ok STATUS_SUCCESS
  else .ok STATUS_NOT_SUPPORTED

/-- The requests that a result completes. -/
def completions : Except Fatal UInt32 → List UInt32
  | .ok status => [status]
  | .error _ => []

/-- The objects are as they were. -/
structure SameObjects (k k' : Kernel) : Prop where
  devices : k'.devices = k.devices
  links : k'.links = k.links

namespace DriverLemmas

theorem irpSwitch_run (mem : UserMem) (irpStack : IoStackLocation) (k : Kernel) :
    ∃ log, (irpSwitch mem irpStack).run k = (answer mem irpStack, { k with log := log }) := by
  unfold irpSwitch answer
  split
  · split
    · rw [Prog.run_bind_ok (dbgPrint_run _ _), crashMe_run]
      split
      · exact ⟨_, rfl⟩
      · exact ⟨_, rfl⟩
    · exact ⟨k.log, rfl⟩
  · split
    · exact ⟨k.log, rfl⟩
    · exact ⟨k.log, rfl⟩

end DriverLemmas

/-- A request is completed with the status it returns; one that crashes is not completed. -/
theorem handleIrp_run (mem : UserMem) (irpStack : IoStackLocation) (k : Kernel) :
    ∃ k', (handleIrp mem irpStack).run k = (answer mem irpStack, k') ∧
      k'.completed = k.completed ++ completions (answer mem irpStack) ∧ SameObjects k k' := by
  obtain ⟨log, hswitch⟩ := irpSwitch_run mem irpStack k
  unfold handleIrp
  cases hanswer : answer mem irpStack with
  | error fatal =>
    rw [hanswer] at hswitch
    rw [Prog.run_bind_error hswitch]
    exact ⟨_, rfl, (List.append_nil _).symm, rfl, rfl⟩
  | ok status =>
    rw [hanswer] at hswitch
    rw [Prog.run_bind_ok hswitch]
    exact ⟨_, rfl, rfl, rfl, rfl⟩

/-! ## 3. A life of the driver -/

/-- The driver object that `DriverEntry` makes of a new one. -/
def loadedObject : DriverObject where
  deviceObject := some DEVICE_NAME
  majorFunction := fun i => i ≤ IRP_MJ_MAXIMUM_FUNCTION || false
  driverUnload := true

/-- The calls of the routines. A call of the kernel that fails does so for the reason given. -/
inductive Call
  | driverEntry (createErr linkErr : Option Failure)
  | handleIrp (mem : UserMem) (irpStack : IoStackLocation)
  | driverUnload

/-- `DriverEntry` gets a new driver object, `DriverUnload` the one that it has filled. -/
def Call.run : Call → Driver Unit
  | .driverEntry createErr linkErr => do
    let _ ← VulnDriver.driverEntry createErr linkErr {}
  | .handleIrp mem irpStack => do
    let _ ← VulnDriver.handleIrp mem irpStack
  | .driverUnload => VulnDriver.driverUnload loadedObject

/-- The driver is not there; it is loaded; only its device is left, as `DriverEntry` failed. -/
inductive Phase
  | absent
  | loaded
  | leaked
  deriving DecidableEq

/-- A step of the machine: the requests it completes, and the next phase or the crash. -/
def Phase.next : Phase → Call → List UInt32 × Except Fatal Phase
  | .absent, .driverEntry none none => ([], .ok .loaded)
  | .absent, .driverEntry none (some _) => ([], .ok .leaked)
  | .absent, .driverEntry (some _) _ => ([], .error .deleteNull)
  | .leaked, .driverEntry _ _ => ([], .error .deleteNull)
  | phase, .handleIrp mem irpStack =>
    (completions (answer mem irpStack), (answer mem irpStack).map fun _ => phase)
  | .loaded, .driverUnload => ([], .ok .absent)
  | phase, _ => ([], .ok phase)

/-- A run of the machine, up to the first crash. -/
def Phase.run : Phase → List Call → List UInt32 × Except Fatal Phase
  | phase, [] => ([], .ok phase)
  | phase, call :: calls =>
    match phase.next call with
    | (done, .ok phase') => (done ++ (run phase' calls).1, (run phase' calls).2)
    | (done, .error fatal) => (done, .error fatal)

/-- The calls the system makes in a phase. -/
def Phase.Admits (phase : Phase) : Call → Prop
  | .driverEntry _ _ => phase ≠ .loaded
  | .handleIrp _ _ => phase ≠ .absent
  | .driverUnload => phase = .loaded

/-- It makes only such calls, as long as it runs. -/
def Phase.Lawful : Phase → List Call → Prop
  | _, [] => True
  | phase, call :: calls =>
    phase.Admits call ∧ ∀ phase', (phase.next call).2 = .ok phase' → Lawful phase' calls

/-- The objects of the kernel in a phase. -/
def Phase.Holds : Phase → Kernel → Prop
  | .absent, k => k.devices = [] ∧ k.links = []
  | .loaded, k => k.devices = [DEVICE_NAME] ∧ k.links = [DOS_DEVICE_NAME]
  | .leaked, k => k.devices = [DEVICE_NAME] ∧ k.links = []

/-- A run of the kernel does what the machine does. -/
def Refines (result : List UInt32 × Except Fatal Phase) (k : Kernel)
    (r : Except Fatal Unit × Kernel) : Prop :=
  r.2.completed = k.completed ++ result.1 ∧
    match result.2 with
    | .ok phase => r.1 = .ok () ∧ phase.Holds r.2
    | .error fatal => r.1 = .error fatal

/-- `handleIrp` is called. -/
def Call.isRequest : Call → Bool
  | .handleIrp _ _ => true
  | _ => false

/-- The kernel gets past a call: the device is created, and so is the link, unless nothing but
requests follows; the request does not crash. -/
def Call.Survives (later : List Call) : Call → Prop
  | .driverEntry createErr linkErr =>
    createErr = none ∧ (linkErr = none ∨ ∀ call ∈ later, call.isRequest = true)
  | .handleIrp mem irpStack => ∃ status, answer mem irpStack = .ok status
  | .driverUnload => True

/-- It gets past all of them. -/
def Survives : List Call → Prop
  | [] => True
  | call :: calls => call.Survives calls ∧ Survives calls

namespace DriverLemmas

variable {k : Kernel} {phase : Phase}

/-- A new driver object has no device. -/
theorem entry_fails (createErr linkErr : Option Failure) {status : UInt32}
    (hcreate : (ioCreateDevice createErr DEVICE_NAME).run k = (.ok status, k))
    (hstatus : ntSuccess status = false) :
    ∃ log, (driverEntry createErr linkErr {}).run k =
      (.error .deleteNull, { k with log := log }) := by
  unfold driverEntry
  rw [Prog.run_bind_ok hcreate, hstatus]
  exact ⟨_, rfl⟩

theorem entry_refines (createErr linkErr : Option Failure) (h : phase.Holds k)
    (hadmits : phase.Admits (.driverEntry createErr linkErr)) :
    Refines (phase.next (.driverEntry createErr linkErr)) k
      ((Call.run (.driverEntry createErr linkErr)).run k) := by
  obtain ⟨log, completed, devices, links⟩ := k
  unfold Call.run
  cases phase with
  | loaded => exact absurd rfl hadmits
  | leaked =>
    obtain ⟨rfl, rfl⟩ := h
    cases createErr with
    | none => exact ⟨(List.append_nil _).symm, rfl⟩
    | some failure =>
      obtain ⟨log, hentry⟩ := entry_fails (some failure) linkErr rfl failure.property
      rw [Prog.run_bind_error hentry]
      exact ⟨(List.append_nil _).symm, rfl⟩
  | absent =>
    obtain ⟨rfl, rfl⟩ := h
    cases createErr with
    | some failure =>
      obtain ⟨log, hentry⟩ := entry_fails (some failure) linkErr rfl failure.property
      rw [Prog.run_bind_error hentry]
      exact ⟨(List.append_nil _).symm, rfl⟩
    | none =>
      cases linkErr with
      | none => exact ⟨(List.append_nil _).symm, rfl, rfl, rfl⟩
      | some failure => exact ⟨(List.append_nil _).symm, rfl, rfl, rfl⟩

theorem next_request (phase : Phase) (mem : UserMem) (irpStack : IoStackLocation) :
    phase.next (.handleIrp mem irpStack) =
      (completions (answer mem irpStack), (answer mem irpStack).map fun _ => phase) := by
  cases phase <;> rfl

/-- What is there stays there. -/
theorem Phase.Holds.same {k' : Kernel} (h : phase.Holds k) (hsame : SameObjects k k') :
    phase.Holds k' := by
  cases phase with
  | absent => exact ⟨hsame.devices.trans h.1, hsame.links.trans h.2⟩
  | loaded => exact ⟨hsame.devices.trans h.1, hsame.links.trans h.2⟩
  | leaked => exact ⟨hsame.devices.trans h.1, hsame.links.trans h.2⟩

theorem irp_refines (mem : UserMem) (irpStack : IoStackLocation) (h : phase.Holds k) :
    Refines (phase.next (.handleIrp mem irpStack)) k
      ((Call.run (.handleIrp mem irpStack)).run k) := by
  obtain ⟨k', hrun, hcompleted, hsame⟩ := handleIrp_run mem irpStack k
  rw [next_request]
  unfold Call.run
  cases hanswer : answer mem irpStack with
  | error fatal =>
    rw [hanswer] at hrun hcompleted
    rw [Prog.run_bind_error hrun]
    exact ⟨hcompleted, rfl⟩
  | ok status =>
    rw [hanswer] at hrun hcompleted
    rw [Prog.run_bind_ok hrun]
    exact ⟨hcompleted, rfl, Phase.Holds.same h hsame⟩

theorem unload_refines (h : phase.Holds k) (hadmits : phase.Admits .driverUnload) :
    Refines (phase.next .driverUnload) k ((Call.run .driverUnload).run k) := by
  obtain ⟨log, completed, devices, links⟩ := k
  obtain rfl : phase = .loaded := hadmits
  obtain ⟨rfl, rfl⟩ := h
  exact ⟨(List.append_nil _).symm, rfl, rfl, rfl⟩

/-- One step. -/
theorem call_refines (call : Call) (h : phase.Holds k) (hadmits : phase.Admits call) :
    Refines (phase.next call) k (call.run.run k) := by
  cases call with
  | driverEntry createErr linkErr => exact entry_refines createErr linkErr h hadmits
  | handleIrp mem irpStack => exact irp_refines mem irpStack h
  | driverUnload => exact unload_refines h hadmits

end DriverLemmas

/-- Every lawful life of the driver is a run of the machine: the same requests are completed, it
ends with the same crash, and where it does not crash it leaves the objects of the phase. -/
theorem life_refines (calls : List Call) : ∀ {phase : Phase} {k : Kernel}, phase.Holds k →
    phase.Lawful calls → Refines (phase.run calls) k ((Prog.each Call.run calls).run k) := by
  induction calls with
  | nil => exact fun h _ => ⟨(List.append_nil _).symm, rfl, h⟩
  | cons call calls ih =>
    rintro phase k h ⟨hadmits, hlawful⟩
    obtain ⟨hdone, hresult⟩ := call_refines call h hadmits
    unfold Prog.each Phase.run
    cases hnext : phase.next call with
    | mk done result =>
      rw [hnext] at hdone hresult hlawful
      cases hrun : call.run.run k with
      | mk r k' =>
        rw [hrun] at hdone hresult
        cases result with
        | error fatal =>
          obtain rfl : r = .error fatal := hresult
          rw [Prog.run_bind_error hrun]
          exact ⟨hdone, rfl⟩
        | ok phase' =>
          obtain ⟨rfl, hholds⟩ : r = .ok () ∧ phase'.Holds k' := hresult
          obtain ⟨hrest, hlast⟩ := ih hholds (hlawful phase' rfl)
          rw [Prog.run_bind_ok hrun]
          refine ⟨?_, hlast⟩
          show _ = k.completed ++ (done ++ _)
          rw [hrest, hdone, List.append_assoc]

namespace DriverLemmas

/-- The machine gets past the first call and has the rest before it. -/
theorem run_cons_iff (phase phase' : Phase) (call : Call) (calls : List Call)
    (h : (phase.next call).2 = .ok phase') :
    (∃ last, (phase.run (call :: calls)).2 = .ok last) ↔
      ∃ last, (phase'.run calls).2 = .ok last := by
  cases hnext : phase.next call with
  | mk done result =>
    rw [hnext] at h
    obtain rfl : result = .ok phase' := h
    simp only [Phase.run, hnext]

theorem run_crash (phase : Phase) (call : Call) (calls : List Call) {fatal : Fatal}
    (h : (phase.next call).2 = .error fatal) :
    ¬∃ last, (phase.run (call :: calls)).2 = .ok last := by
  cases hnext : phase.next call with
  | mk done result =>
    rw [hnext] at h
    obtain rfl : result = .error fatal := h
    simp [Phase.run, hnext]

/-- A request and the rest. -/
theorem request_survives_iff (phase : Phase) (mem : UserMem) (irpStack : IoStackLocation)
    (calls : List Call) {P : Prop} (hlawful : phase.Lawful (.handleIrp mem irpStack :: calls))
    (h : phase.Lawful calls → ((∃ last, (phase.run calls).2 = .ok last) ↔ P)) :
    (∃ last, (phase.run (.handleIrp mem irpStack :: calls)).2 = .ok last) ↔
      (∃ status, answer mem irpStack = .ok status) ∧ P := by
  cases hanswer : answer mem irpStack with
  | error fatal =>
    have hcrash : (phase.next (.handleIrp mem irpStack)).2 = .error fatal := by
      rw [next_request, hanswer]
      rfl
    refine iff_of_false (run_crash phase _ calls hcrash) ?_
    rintro ⟨⟨status, hstatus⟩, _⟩
    cases hstatus
  | ok status =>
    have hnext : (phase.next (.handleIrp mem irpStack)).2 = .ok phase := by
      rw [next_request, hanswer]
      rfl
    rw [run_cons_iff phase phase _ calls hnext, h (hlawful.2 phase hnext)]
    exact ⟨fun hlater => ⟨⟨status, rfl⟩, hlater⟩, And.right⟩

/-- After a failed load the kernel survives requests, but not another load. -/
theorem leaked_survives_iff (calls : List Call) : Phase.leaked.Lawful calls →
    ((∃ last, (Phase.leaked.run calls).2 = .ok last) ↔
      (∀ call ∈ calls, call.isRequest = true) ∧ Survives calls) := by
  induction calls with
  | nil => exact fun _ => iff_of_true ⟨_, rfl⟩ ⟨List.forall_mem_nil _, trivial⟩
  | cons call calls ih =>
    intro h
    cases call with
    | driverUnload => cases h.1
    | driverEntry createErr linkErr =>
      refine iff_of_false (run_crash .leaked _ calls rfl) fun ⟨hall, _⟩ => ?_
      cases hall _ List.mem_cons_self
    | handleIrp mem irpStack =>
      rw [request_survives_iff .leaked mem irpStack calls h ih, List.forall_mem_cons]
      exact ⟨fun ⟨hanswer, hall, hlater⟩ => ⟨⟨rfl, hall⟩, hanswer, hlater⟩,
        fun ⟨⟨_, hall⟩, hanswer, hlater⟩ => ⟨hanswer, hall, hlater⟩⟩

theorem run_survives_iff (calls : List Call) :
    (Phase.absent.Lawful calls →
      ((∃ last, (Phase.absent.run calls).2 = .ok last) ↔ Survives calls)) ∧
    (Phase.loaded.Lawful calls →
      ((∃ last, (Phase.loaded.run calls).2 = .ok last) ↔ Survives calls)) := by
  induction calls with
  | nil => exact ⟨fun _ => iff_of_true ⟨_, rfl⟩ trivial, fun _ => iff_of_true ⟨_, rfl⟩ trivial⟩
  | cons call calls ih =>
    constructor
    · rintro ⟨hadmits, hlawful⟩
      cases call with
      | handleIrp mem irpStack => exact absurd rfl hadmits
      | driverUnload => cases hadmits
      | driverEntry createErr linkErr =>
        cases createErr with
        | some failure =>
          refine iff_of_false (run_crash .absent _ calls rfl) ?_
          rintro ⟨⟨hcreate, _⟩, _⟩
          cases hcreate
        | none =>
          cases linkErr with
          | none =>
            rw [run_cons_iff .absent .loaded _ calls rfl, ih.2 (hlawful .loaded rfl)]
            exact ⟨fun h => ⟨⟨rfl, .inl rfl⟩, h⟩, And.right⟩
          | some failure =>
            rw [run_cons_iff .absent .leaked _ calls rfl,
              leaked_survives_iff calls (hlawful .leaked rfl)]
            constructor
            · rintro ⟨hall, hlater⟩
              exact ⟨⟨rfl, .inr hall⟩, hlater⟩
            · rintro ⟨⟨_, hlink | hall⟩, hlater⟩
              · cases hlink
              · exact ⟨hall, hlater⟩
    · intro h
      cases call with
      | driverEntry createErr linkErr => exact absurd rfl h.1
      | driverUnload =>
        rw [run_cons_iff .loaded .absent _ calls rfl, ih.1 (h.2 .absent rfl)]
        exact ⟨fun hlater => ⟨trivial, hlater⟩, And.right⟩
      | handleIrp mem irpStack => exact request_survives_iff .loaded mem irpStack calls h ih.2

end DriverLemmas

/-- The kernel survives a lawful life of the driver exactly if every `DriverEntry` creates its
device, only requests follow one that cannot create its link, and no request crashes. -/
theorem driver_survives_iff (calls : List Call) (h : Phase.absent.Lawful calls) :
    ((Prog.each Call.run calls).run {}).1 = .ok () ↔ Survives calls := by
  have hlife : Refines (Phase.absent.run calls) {} ((Prog.each Call.run calls).run {}) :=
    life_refines calls ⟨rfl, rfl⟩ h
  obtain ⟨_, hresult⟩ := hlife
  rw [← (run_survives_iff calls).1 h]
  cases hrun : (Phase.absent.run calls).2 with
  | ok last =>
    rw [hrun] at hresult
    exact iff_of_true hresult.1 ⟨last, rfl⟩
  | error fatal =>
    rw [hrun] at hresult
    refine iff_of_false (fun hok => ?_) fun ⟨_, hlast⟩ => nomatch hlast
    rw [hresult] at hok
    cases hok

/-- The device is opened once between two loads. -/
def reload : List Call :=
  [.driverEntry none none, .handleIrp (fun _ => none) ⟨IRP_MJ_CREATE, 0, 0, 0⟩, .driverUnload,
    .driverEntry none none]

theorem reload_lawful : Phase.absent.Lawful reload := by
  refine ⟨nofun, ?_⟩
  rintro _ ⟨⟩
  refine ⟨nofun, ?_⟩
  rintro _ ⟨⟩
  refine ⟨rfl, ?_⟩
  rintro _ ⟨⟩
  refine ⟨nofun, ?_⟩
  rintro _ ⟨⟩
  exact trivial

theorem driver_survives_reload : ((Prog.each Call.run reload).run {}).1 = .ok () :=
  (driver_survives_iff reload reload_lawful).mpr
    ⟨⟨rfl, .inl rfl⟩, ⟨STATUS_SUCCESS, rfl⟩, trivial, ⟨rfl, .inl rfl⟩, trivial⟩

end KaflTargets.VulnDriver
