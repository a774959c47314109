import KaflTargets.Handshake

/-!
# The Zephyr agent (`zephyr_x86_32/src/main.c`)

The default build, with the payload buffer in the static array `bss_buffer`.
The target is a parameter.
-/

namespace KaflTargets.Zephyr

open CString

def PAYLOAD_MAX_SIZE : Nat := 128 * 1024

/-- The checks of `agent_init`. After a failed one it goes on, unless the host
ends the run. -/
def checkConfig (hostConfig : HostConfig) : Guest Unit := do
  if hostConfig.hostMagic ≠ NYX_HOST_MAGIC ∨ hostConfig.hostVersion ≠ NYX_HOST_VERSION then
    hprintf (ascii "host_config magic/version mismatch!\n")
    habort "GET_HOST_CNOFIG magic/version mismatch!\n"
  printSizes hostConfig
  if PAYLOAD_MAX_SIZE < hostConfig.payloadBufferSize.toNat then
    habort "Insufficient guest payload buffer!\n"

/-- `agent_init`. -/
def agentInit (panicHandler kasanHandler : Nat) : Guest Unit := do
  hprintf (ascii "Initiate fuzzer handshake...\n")
  let _ ← kAFLHypercall .acquire
  let _ ← kAFLHypercall .release
  let _ ← kAFLHypercall .submitCr3
  let _ ← kAFLHypercall (.userSubmitMode KAFL_MODE_32)
  submitHandlers panicHandler kasanHandler
  let _ ← kAFLHypercall .getHostConfig
  let hostConfig ← Prog.gets (·.hostConfig)
  checkConfig hostConfig
  let _ ← kAFLHypercall (.setAgentConfig (persistentConfig hostConfig))

/-- An iteration of the `while (1)`. -/
def agentRound (targetEntry : Nat → Int → Guest Unit) (payloadBuffer : Nat) :
    Unit → Guest (Unit ⊕ Unit)
  | () => do
    let _ ← kAFLHypercall .nextPayload
    let _ ← kAFLHypercall .acquire
    let size ← Prog.gets fun w => payloadSize w.mem payloadBuffer
    targetEntry (payloadBuffer + 4) size
    let _ ← kAFLHypercall .release
    pure (.inl ())

/-- `agent_run`. -/
def agentRun (fuel : Nat) (targetInit : Guest Unit) (targetEntry : Nat → Int → Guest Unit)
    (bssBuffer : Nat) : Guest Unit := do
  Prog.modify fun w => { w with mem := w.mem.fill bssBuffer PAYLOAD_MAX_SIZE 0 }
  let _ ← kAFLHypercall (.getPayload bssBuffer)
  targetInit
  hprintf (ascii "Target init done...\n")
  Prog.iter .timeout (agentRound targetEntry bssBuffer) fuel ()

/-- `main`, for a board of the given name. -/
def main (fuel : Nat) (board : Bytes) (targetInit : Guest Unit)
    (targetEntry : Nat → Int → Guest Unit) (bssBuffer : Nat) : Guest Unit := do
  hprintf (ascii "kAFL Hello World! " ++ board ++ ascii "\n\n")
  hprintf (ascii "Kernel Panic Handler Address:\t(nil)\n")
  agentInit 0 0
  agentRun fuel targetInit targetEntry bssBuffer

end KaflTargets.Zephyr
