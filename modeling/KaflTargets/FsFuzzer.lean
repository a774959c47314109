import KaflTargets.Handshake

/-!
# The file-system fuzzer (`fs_fuzzer/src/fs_fuzzer.c`)

The agent writes each payload to a backing file behind a loop device and mounts
it. The descriptors of the loop control and of the loop device carry no state:
the calls on them only succeed or fail.
-/

namespace KaflTargets.FsFuzzer

open CString

def KAFL_TMP_FILE : Bytes := ascii "/tmp/trash"

def PAYLOAD_MAX_SIZE : Nat := 1 * 1024 * 1024

/-- `CHECK_ERRNO`. -/
def checkErrno (x : Bool) (msg : String) : Guest Unit :=
  if x then pure ()
  else do
    habort msg
    Prog.stop (.exit 1)

/-- `agent_init`. -/
def agentInit : Guest Int := do
  let _ ← kAFLHypercall .acquire
  let _ ← kAFLHypercall .release
  let _ ← kAFLHypercall .getHostConfig
  let hostConfig ← Prog.gets (·.hostConfig)
  linuxCheckConfig PAYLOAD_MAX_SIZE hostConfig do
    let _ ← kAFLHypercall (.setAgentConfig
      { agentMagic := NYX_AGENT_MAGIC
        agentVersion := NYX_AGENT_VERSION
        agentNonReloadMode := 0
        coverageBitmapSize := hostConfig.bitmapSize })
    pure 0

/-- The conversion to `size_t`. -/
def sizeT (n : Int) : Nat := (n % 2 ^ 64).toNat

/-- What an iteration does with a payload of more than eight bytes. -/
def fuzzImage (pbuf backingfile : Nat) (size : Int) : Guest Unit := do
  let ret ← rewind backingfile
  checkErrno (ret ≠ -1) "Failed to seek in backingfile"
  let ret ← write backingfile (pbuf + 4) (sizeT size)
  checkErrno (ret ≠ -1) "Failed to write backingfile"
  if ret ≠ size then
    hprintf (ascii "Incomplete write to backingfile")
  let _ ← syscall
  -- the result of the `write` again, not that of the `ioctl`
  checkErrno (ret ≠ -1) "Failed to ioctl(LOOP_SET_CAPACITY"
  let ret ← mount backingfile
  if ret = 0 then
    hprintf (ascii "mount() => success!\n")
    let _ ← syscall
    let _ ← syscall
    let _ ← syscall

/-- The payload of an iteration. -/
def fuzzPayload (pbuf backingfile : Nat) : Guest Unit := do
  let size ← Prog.gets fun w => payloadSize w.mem pbuf
  if sizeT size > 8 then
    fuzzImage pbuf backingfile size

/-- An iteration of the `while (1)`. -/
def fuzzRound (pbuf backingfile : Nat) : Unit → Guest (Unit ⊕ Unit)
  | () => do
    fuzzPayload pbuf backingfile
    let _ ← kAFLHypercall .release
    let _ ← kAFLHypercall .nextPayload
    let _ ← kAFLHypercall .acquire
    pure (.inl ())

/-- `main` from `agent_init` on. -/
def fuzzDevice (fuel pbuf : Nat) : Guest Unit := do
  let _ ← agentInit
  let _ ← kAFLHypercall (.getPayload pbuf)
  let loopfd ← syscall
  checkErrno (loopfd ≠ -1) "Failed to open loop device"
  match ← openCreate KAFL_TMP_FILE 0o777 with
  | none => checkErrno false "Failed to open backing file"
  | some backingfile =>
    let ret ← syscall
    checkErrno (ret ≠ -1) "Failed to ioctl(LOOP_SET_FD)"
    Prog.modify fun w => { w with mem := w.mem.store pbuf (Mem.le32 20) }
    Prog.iter .timeout (fuzzRound pbuf backingfile) fuel ()

/-- `main`; `fuel` bounds the iterations. -/
def main (fuel : Nat) (argv : List Bytes) : Guest Unit := do
  if argv.length ≠ 2 then
    hprintf (ascii "Usage: fs_fuzzer <fstype>")
    Prog.stop (.exit 1)
  let _ ← syscall
  let pbuf ← mallocResidentPages (PAYLOAD_MAX_SIZE / PAGE_SIZE)
  if pbuf = 0 then
    Prog.stop .assertFailed
  let loopctlfd ← syscall
  checkErrno (loopctlfd ≠ -1) "Failed to open /dev/loop-control"
  let devnr ← syscall
  checkErrno (devnr ≠ -1) "Failed to get free loop device"
  fuzzDevice fuel pbuf

end KaflTargets.FsFuzzer
