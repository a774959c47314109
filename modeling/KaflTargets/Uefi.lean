import KaflTargets.Handshake

/-!
# The UEFI agents (`uefi_ovmf_64`)

The library `kAFLAgentLib`, an application's harness with its payload buffer on
the stack, and the driver `kAFLDxe`, which publishes a protocol for others to
start the loop and has its buffer in pages of its own. The target is a
parameter, given the address and the size of the data.
-/

namespace KaflTargets.Uefi

open CString

def PAYLOAD_MAX_SIZE : Nat := 128 * 1024

/-- An iteration of the loops of `agent_run` and `HarnessRun`. -/
def harnessRound (target : Nat → Int → Guest Unit) (payloadBuffer : Nat) :
    Unit → Guest (Unit ⊕ Unit)
  | () => do
    let _ ← kAFLHypercall .nextPayload
    let _ ← kAFLHypercall .acquire
    let size ← Prog.gets fun w => payloadSize w.mem payloadBuffer
    target (payloadBuffer + 4) size
    let _ ← kAFLHypercall .release
    pure (.inl ())

/-! ## `kAFLAgentLib.c` -/

/-- `agent_init`. -/
def agentInit (initTestHarness : Guest Unit) (panicHandler kasanHandler : Nat) : Guest Unit := do
  uefiHandshake PAYLOAD_MAX_SIZE panicHandler kasanHandler
  initTestHarness

/-- `(a + 0x1000) & 0xfffffffffffff000`, on 64 bits. -/
def alignUp (a : Nat) : Nat := (a + 0x1000) % 2 ^ 64 &&& 0xfffffffffffff000

/-- `agent_run`, with its array `buffer` at the address `b`. -/
def agentRun (fuel : Nat) (target : Nat → Int → Guest Unit) (b : Nat) : Guest Unit := do
  Prog.modify fun w => { w with live := (b, PAYLOAD_MAX_SIZE + 0x1000) :: w.live }
  let payloadBuffer := alignUp b
  let _ ← kAFLHypercall (.getPayload payloadBuffer)
  let _ ← kAFLHypercall .submitCr3
  Prog.iter .timeout (harnessRound target payloadBuffer) fuel ()

/-- `UefiMain`. -/
def uefiMain (fuel : Nat) (initTestHarness : Guest Unit) (target : Nat → Int → Guest Unit)
    (b : Nat) : Guest Unit := do
  agentInit initTestHarness 0 0
  agentRun fuel target b

/-! ## `kAFLDxe.c` -/

/-- `HarnessInit`. -/
def harnessInit (panicHandler kasanHandler : Nat) : Guest Unit :=
  uefiHandshake PAYLOAD_MAX_SIZE panicHandler kasanHandler

/-- `HarnessRun`, with the global `payload_buffer`. -/
def harnessRun (fuel : Nat) (target : Nat → Int → Guest Unit) (payloadBuffer : Nat) :
    Guest Unit := do
  let _ ← kAFLHypercall (.getPayload payloadBuffer)
  Prog.iter .timeout (harnessRound target payloadBuffer) fuel ()

end KaflTargets.Uefi
