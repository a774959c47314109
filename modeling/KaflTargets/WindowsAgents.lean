import KaflTargets.Gdiplus
import KaflTargets.SelfFuzz
import KaflTargets.VulnDriver
import KaflTargets.VulnTest

/-!
# The `main` of the Windows agents (`windows_x86_64/src`)

The driver test (`vuln_test.c`) and the self-fuzzing test (`selffuzz_test.c`) run one
payload per snapshot. The two GDI+ agents (`gdiplus.cpp`, `gdiplus_loadfont.cpp`) run their
payloads in a loop and differ in what they do with one. They register a handler that turns the
exceptions of the process into a verdict, wherever it is.
-/

namespace KaflTargets

open CString

/-! ## The system -/

/-- `VirtualAlloc(0, size, MEM_COMMIT, ..)`: an address, or 0. There is no empty region. -/
def virtualAlloc (size : Nat) : Guest Nat :=
  if size = 0 then do
    Prog.modify fun w => { w with errno := 87 }
    pure 0
  else do
    let ptr ← alignedAlloc size
    if ptr ≠ 0 then
      Prog.modify fun w => { w with mem := w.mem.fill ptr size 0 }
    pure ptr

/-- `VirtualLock`: whether the pages are locked. -/
def virtualLock (addr size : Nat) : Guest Bool :=
  if addr = 0 then do
    Prog.modify fun w => { w with errno := 487 }
    pure false
  else do
    let ret ← mlock addr size
    pure (ret = 0)

/-- `HYPERCALL_KAFL_USER_RANGE_ADVISE`. -/
def userRangeAdvise (addr : Nat) : Hypercall := .other 16 addr

/-- `panic`, with its endless loop. -/
def panicLoop : Guest Unit := do
  let _ ← kAFLHypercall (.panic 1)
  Prog.stop .timeout

/-- `%X`. -/
def hexUpper (n : Nat) : Bytes := (hex n).map fun c => if 97 ≤ c then c - 32 else c

/-- `%lx` of a 64-bit value: a `long` has 32 bits. -/
def longHex (n : Nat) : Bytes := hex (n % 2 ^ 32)

/-! ## The driver test (`driver/vuln_test.c`) -/

namespace VulnTest

def PAYLOAD_MAX_SIZE : Nat := 128 * 1024

/-- The checks of `init_agent_handshake`. After a failed one it goes on, unless the host
ends the run. -/
def checkConfig (hostConfig : HostConfig) : Guest Unit := do
  if hostConfig.hostMagic ≠ NYX_HOST_MAGIC ∨ hostConfig.hostVersion ≠ NYX_HOST_VERSION then
    hprintf (ascii "host_config magic/version mismatch!\n")
    habort "GET_HOST_CNOFIG magic/version mismatch!\n"
  printSizes hostConfig
  if PAYLOAD_MAX_SIZE < hostConfig.payloadBufferSize.toNat then
    habort "Insufficient guest payload buffer!\n"

/-- `init_agent_handshake`. -/
def initAgentHandshake : Guest Unit := do
  hprintf (ascii "Initiate fuzzer handshake...\n")
  let _ ← kAFLHypercall .acquire
  let _ ← kAFLHypercall .release
  let _ ← kAFLHypercall .submitCr3
  let _ ← kAFLHypercall (.userSubmitMode KAFL_MODE_64)
  let _ ← kAFLHypercall .getHostConfig
  let hostConfig ← Prog.gets (·.hostConfig)
  checkConfig hostConfig
  let _ ← kAFLHypercall (.setAgentConfig (persistentConfig hostConfig))

/-- `CreateFile` of the device: whether there is a handle. -/
def openDevice : Guest Bool := do
  let ret ← syscall
  pure (ret = 0)

/-- What the driver can read of the process: here, the payload buffer. -/
def userMemory (mem : Mem) (payloadBuffer : Nat) : VulnDriver.UserMem := fun addr =>
  if payloadBuffer ≤ addr ∧ addr < payloadBuffer + PAYLOAD_MAX_SIZE then some (mem addr) else none

/-- `DeviceIoControl`: the request goes to the driver of the device. A crash there ends
the whole system. -/
def deviceIoControl (handle : Bool) (user : VulnDriver.UserMem)
    (ioControlCode inBuffer inBufferSize : Nat) : Guest Unit := do
  if handle then
    match ((VulnDriver.handleIrp user
      { majorFunction := VulnDriver.IRP_MJ_DEVICE_CONTROL
        ioControlCode := ioControlCode
        inputBufferLength := inBufferSize
        type3InputBuffer := inBuffer }).run {}).1 with
    | .ok _ => pure ()
    | .error _ => Prog.stop .halted
  else Prog.modify fun w => { w with errno := 6 }

/-- `main` from the hypercall on behind which the snapshot is taken. -/
def fuzzOnce (kaflVulnHandle : Bool) (payloadBuffer : Nat) : Guest Unit := do
  let _ ← kAFLHypercall .nextPayload
  let _ ← kAFLHypercall .acquire
  let mem ← Prog.gets World.mem
  deviceIoControl kaflVulnHandle (userMemory mem payloadBuffer) VulnDriver.IOCTL_KAFL_INPUT
    (payloadBuffer + 4) (Gdiplus.dword (payloadSize mem payloadBuffer))
  let _ ← kAFLHypercall .release

/-- `main`. -/
def main (lookup1 lookup2 : Lookup) (sys : RangeQueries) : Guest Int := do
  let payloadBuffer ← virtualAlloc PAYLOAD_MAX_SIZE
  memset payloadBuffer 0 PAYLOAD_MAX_SIZE
  let kaflVulnHandle ← openDevice
  if !kaflVulnHandle then
    let errno ← Prog.gets (·.errno)
    hprintf (ascii "[-] KAFL test: Cannot get device handle: 0x" ++ hexUpper errno ++ ascii "\n")
    habort "Cannot get device handle\n"
  initAgentHandshake
  initPanicHandlers lookup1 lookup2
  let _ ← kAFLHypercall .submitCr3
  let _ ← kAFLHypercall (.getPayload payloadBuffer)
  setIpRange sys
  fuzzOnce kaflVulnHandle payloadBuffer
  pure 0

end VulnTest

/-! ## The self-fuzzing test (`userspace/selffuzz_test.c`) -/

namespace SelfFuzz

def panic : Guest Unit := panicLoop

/-- `fuzzme`. -/
def fuzzme (input : Nat) (size : Int) : Guest Unit := do
  let mem ← Prog.gets World.mem
  if 0x11 < size then
    if mem.probe input (ascii "K3rN3lAFL#") then
      panic
    if mem.probe input (ascii "PwnT0wn!") then
      panic

/-- `kafl_agent_init`. -/
def kaflAgentInit : Guest Nat := do
  let _ ← kAFLHypercall .acquire
  let _ ← kAFLHypercall .release
  let _ ← kAFLHypercall (.userSubmitMode KAFL_MODE_64)
  Prog.modify fun w => { w with hostConfig := HostConfig.zero }
  let _ ← kAFLHypercall .getHostConfig
  let hostConfig ← Prog.gets (·.hostConfig)
  hprintf (ascii "[host_config] bitmap sizes = <0x" ++ hex hostConfig.bitmapSize.toNat ++
    ascii ",0x" ++ hex hostConfig.ijonBitmapSize.toNat ++ ascii ">\n")
  hprintf (ascii "[host_config] payload size = " ++
    dec (hostConfig.payloadBufferSize.toNat / 1024) ++ ascii "KB\n")
  hprintf (ascii "[host_config] worker id = " ++
    (if hostConfig.workerId < 10 then ascii "0" else []) ++ dec hostConfig.workerId.toNat ++
    ascii "\n")
  hprintf (ascii "[+] Allocating buffer for kAFL_payload struct\n")
  let payloadBuffer ← virtualAlloc hostConfig.payloadBufferSize.toNat
  let locked ← virtualLock payloadBuffer hostConfig.payloadBufferSize.toNat
  if !locked then
    habort "[+] WARNING: Virtuallock failed to lock payload buffer\n"
  hprintf (ascii "[+] Submitting buffer address to hypervisor...\n")
  let _ ← kAFLHypercall (.getPayload payloadBuffer)
  let _ ← kAFLHypercall .submitCr3
  let _ ← kAFLHypercall (.setAgentConfig
    { agentMagic := NYX_AGENT_MAGIC
      agentVersion := NYX_AGENT_VERSION })
  pure payloadBuffer

/-- `main` from the hypercall on behind which the snapshot is taken. -/
def fuzzOnce (payloadBuffer : Nat) : Guest Unit := do
  let _ ← kAFLHypercall .nextPayload
  let _ ← kAFLHypercall .acquire
  if payloadBuffer = 0 then
    Prog.stop .invalidPointer
  let size ← Prog.gets fun w => payloadSize w.mem payloadBuffer
  fuzzme (payloadBuffer + 4) size
  let _ ← kAFLHypercall .release

/-- `main`; `hModule` is what `GetModuleHandle` returns. -/
def main (argv0 : Bytes) (hModule : Nat) : Guest Int := do
  hprintf (ascii "[+] Starting... " ++ argv0 ++ ascii "\n")
  hprintf (ascii "[+] Creating snapshot...\n")
  let _ ← kAFLHypercall .lock
  let payloadBuffer ← kaflAgentInit
  let rangeBuffer ← virtualAlloc 0x1000
  memset rangeBuffer 0xff 0x1000
  hprintf (ascii "[+] range buffer " ++ longHex rangeBuffer ++ ascii "...\n")
  let _ ← kAFLHypercall (userRangeAdvise rangeBuffer)
  submitIpRanges hModule
  fuzzOnce payloadBuffer
  pure 0

end SelfFuzz

/-! ## The GDI+ agents (`userspace/gdiplus.cpp`, `userspace/gdiplus_loadfont.cpp`) -/

/-- An entry of the `kAFL_ranges` the host writes. -/
structure KaflRange where
  ip : Nat
  size : Nat
  enabled : UInt8

/-- What the system and the host decide before the loops. -/
structure GdiplusStartup where
  addressSpace : AddressSpace
  ranges : Fin 4 → KaflRange
  /-- The constant `PAYLOAD_SIZE` of `kafl_user.h`. -/
  payloadSize : Nat
  /-- The conversions `%p` and `%lp`. -/
  pointer : Nat → Bytes

def EXCEPTION_ACCESS_VIOLATION : Nat := 0xC0000005
def EXCEPTION_ILLEGAL_INSTRUCTION : Nat := 0xC000001D
def EXCEPTION_STACK_OVERFLOW : Nat := 0xC00000FD
def STATUS_STACK_BUFFER_OVERRUN : Nat := 0xC0000409
def STATUS_FATAL_APP_EXIT : Nat := 0x40000015

/-- The code of an exception; what else ends a program is none. -/
def Stop.exceptionCode : Stop → Option Nat
  | .invalidPointer => some EXCEPTION_ACCESS_VIOLATION
  | .exception code => some code
  | _ => none

/-- `exc_handle`. -/
def excHandle (exceptionCode : Nat) : Guest Unit :=
  if exceptionCode = EXCEPTION_ACCESS_VIOLATION ∨ exceptionCode = EXCEPTION_ILLEGAL_INSTRUCTION ∨
      exceptionCode = 0xc0000374 ∨ exceptionCode = EXCEPTION_STACK_OVERFLOW ∨
      exceptionCode = STATUS_STACK_BUFFER_OVERRUN ∨ exceptionCode = STATUS_FATAL_APP_EXIT then
    panicLoop
  else pure ()

/-- `AddVectoredExceptionHandler(1, exc_handle)`: whether the handler is registered. -/
def addExceptionHandler : Guest Bool := do
  let ret ← syscall
  if ret ≠ 0 then
    let errno ← Prog.gets (·.errno)
    hprintf (ascii "[-] WARNING: Cannot add veh handler " ++ dec errno ++ ascii "\n")
  pure (ret = 0)

/-- What runs with the handler registered. An exception from which the handler returns ends
the process. -/
def withHandler {α : Type} (registered : Bool) (x : Guest α) : Guest α :=
  Prog.rescue x fun e => do
    match e.exceptionCode with
    | some code => if registered then excHandle code
    | none => pure ()
    Prog.stop e

/-- A round of the `for` over the ranges. The messages show `enabled` for the number. -/
def lockRange (sys : GdiplusStartup) (i : Fin 4) : Guest Unit := do
  let range := sys.ranges i
  let number := dec range.enabled.toNat
  hprintf (ascii "[+] Range " ++ dec i.val ++ ascii " enabled: " ++ hex range.enabled.toNat ++
    ascii "\t(" ++ sys.pointer range.ip ++ ascii "-" ++ sys.pointer range.size ++ ascii ")\n")
  if range.ip ≠ 0 then
    let locked ← virtualLock range.ip range.size
    if !locked then
      let errno ← Prog.gets (·.errno)
      hprintf (ascii "[-] WARNING: VirtualLock failed on range " ++ number ++ ascii " (" ++
        dec errno ++ ascii ")\n")
      let _ ← kAFLHypercall (.userAbort [])
    else hprintf (ascii "[+] Range " ++ number ++ ascii " locked\n")

/-- The allocation of the payload buffer. -/
def gdiplusBuffer (sys : GdiplusStartup) : Guest Nat := do
  hprintf (ascii "[+] Allocating buffer for kAFL_payload struct\n")
  let payloadBuffer ← virtualAlloc sys.payloadSize
  let locked ← virtualLock payloadBuffer sys.payloadSize
  if !locked then
    hprintf (ascii "[+] WARNING: Virtuallock failed on payload buffer " ++
      sys.pointer payloadBuffer ++ ascii "...\n")
    let _ ← kAFLHypercall (.userAbort [])
  hprintf (ascii "[+] Memset kAFL_payload at address " ++ longHex payloadBuffer ++
    ascii " (size " ++ dec sys.payloadSize ++ ascii ")\n")
  memset payloadBuffer 0xff sys.payloadSize
  pure payloadBuffer

/-- Both `main`s from there to the loop: the address of the payload buffer. -/
def gdiplusSubmit (sys : GdiplusStartup) : Guest Nat := do
  let payloadBuffer ← gdiplusBuffer sys
  hprintf (ascii "[+] Submitting buffer address to hypervisor...\n")
  let _ ← kAFLHypercall (.getPayload payloadBuffer)
  let rangeBuffer ← virtualAlloc 0x1000
  memset rangeBuffer 0xff 0x1000
  hprintf (ascii "[+] Range buffer " ++ longHex rangeBuffer ++ ascii "...\n")
  let _ ← kAFLHypercall (userRangeAdvise rangeBuffer)
  hprintf (ascii "[+] Locking fuzzing ranges...\n")
  let ret ← syscall
  if ret ≠ 0 then
    let errno ← Prog.gets (·.errno)
    hprintf (ascii "[-] Err increasing min and max working sizes: " ++ dec errno ++ ascii "\n")
  Prog.each (lockRange sys) [0, 1, 2, 3]
  let _ ← kAFLHypercall (.userSubmitMode KAFL_MODE_64)
  pure payloadBuffer

namespace Gdiplus

/-- What `main` of `gdiplus.cpp` asks besides: the temporary directory, the addresses of
`payload_file` and `status`, the length of the wide name with its NUL. -/
structure Startup extends GdiplusStartup where
  tempPath : Bytes
  payloadFileAddr : Nat
  statusAddr : Nat
  nChars : Nat

/-- The locks of the names. -/
def lockNames (sys : Startup) (payloadFileW : Nat) : Guest Unit := do
  let locked ← virtualLock sys.payloadFileAddr (payloadFile sys.tempPath).length
  let locked ←
    if !locked then pure false
    -- `wcslen` on it
    else if payloadFileW = 0 then Prog.stop .invalidPointer
    else virtualLock payloadFileW (sys.nChars - 1)
  if !locked then
    let errno ← Prog.gets (·.errno)
    hprintf (ascii "[+] WARNING: Virtuallock failed on payload names: " ++ dec errno)

/-- An iteration of the `while (1)`, with the payload the host answers `FAST_ACQUIRE` with.
What GDI+ does with the image is a parameter, given what the file holds. -/
def fuzzRound (drawImage : Option Bytes → Guest Unit) (file : Bytes) (payloadBuffer : Nat)
    (mem : Mem) : Guest Unit := do
  let _ ← kAFLHypercall .userFastAcquire
  Prog.modify fun w => { w with mem := mem }
  writePayloadFile file payloadBuffer
  let image ← fromFile file
  drawImage image
  let _ ← kAFLHypercall .release

/-- `main`. -/
def main (fuel : Nat) (sys : Startup) (drawImage : Option Bytes → Guest Unit) (mems : List Mem) :
    Guest Unit := do
  let _ ← virtualLock 0 8
  let _ ← virtualLock sys.statusAddr 8
  dropVA fuel sys.addressSpace
  hprintf (ascii "[+] payload location " ++ payloadFile sys.tempPath ++ ascii "\n")
  let payloadFileW ← virtualAlloc (sys.nChars * 2)
  let registered ← addExceptionHandler
  withHandler registered do
    lockNames sys payloadFileW
    let payloadBuffer ← gdiplusSubmit sys.toGdiplusStartup
    Prog.each (fuzzRound drawImage (payloadFile sys.tempPath) payloadBuffer) mems

/-- Where GDI+ leaves the world alone, an iteration is that of `mainLoop`. -/
theorem fuzzRound_quiet (file : Bytes) (payloadBuffer : Nat) (mem : Mem) (w : World) :
    ((fuzzRound (fun _ => pure ()) file payloadBuffer mem).run w).2 =
      ((mainRound file payloadBuffer mem).run w).2 := by
  unfold fuzzRound mainRound
  refine Prog.run_bind_snd (fun _ w => ?_) _ w
  refine Prog.run_bind_snd (fun _ w => ?_) _ w
  refine Prog.run_bind_snd (fun _ w => ?_) _ w
  refine Prog.run_bind_snd (fun image w => ?_) _ w
  rfl

end Gdiplus

namespace GdiplusLoadfont

/-- An iteration of the `while (1)`, with the payload the host answers `FAST_ACQUIRE` with.
What GDI+ does with the font is a parameter, given the address and the size of the data. -/
def mainRound (loadFont : Nat → Int → Guest Unit) (payloadBuffer : Nat) (mem : Mem) :
    Guest Unit := do
  let _ ← kAFLHypercall .userFastAcquire
  Prog.modify fun w => { w with mem := mem }
  let size ← Prog.gets fun w => payloadSize w.mem payloadBuffer
  loadFont (payloadBuffer + 4) size
  let _ ← kAFLHypercall .release

/-- `main`. -/
def main (fuel : Nat) (sys : GdiplusStartup) (loadFont : Nat → Int → Guest Unit)
    (mems : List Mem) : Guest Unit := do
  dropVA fuel sys.addressSpace
  let registered ← addExceptionHandler
  withHandler registered do
    let payloadBuffer ← gdiplusSubmit sys
    Prog.each (mainRound loadFont payloadBuffer) mems

end GdiplusLoadfont

end KaflTargets
