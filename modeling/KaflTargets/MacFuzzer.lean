import KaflTargets.MacVuln
import KaflTargets.Handshake

/-!
# The macOS fuzzer (`macOS_x86_64/fuzzer/vuln_test.c`)

The fuzzer writes every payload to the device of the test driver. It makes no handshake of
its own: the loader that starts it has done so.
-/

namespace KaflTargets.MacFuzzer

open CString

/-- What decides how the device behaves: whether it opens, what the stack of the kernel
holds, and what `copyin` returns. -/
structure Device where
  opens : Bool
  stack : World → LocalArray (MacVuln.BUFFERSIZE + 1)
  copyin : World → Int

/-- The largest count `write` accepts. -/
def INT_MAX : Nat := 0x7fffffff

/-- `write` to the device. The size is converted to a `size_t`. -/
def writeDevice (dev : Device) (addr : Nat) (size : Int) : Guest Unit := do
  let count := (size % 2 ^ 64).toNat
  let w ← Prog.gets id
  if !dev.opens then Prog.modify fun w => { w with errno := 9 }
  else if INT_MAX < count then Prog.modify fun w => { w with errno := 22 }
  else
    match MacVuln.vulnWrite (dev.stack w) (dev.copyin w) (w.mem.load addr count) with
    | .ok _ => pure ()
    | .error .panic => Prog.stop .halted
    | .error .overflow => Prog.stop .overflow

/-- An iteration of the `while (1)`. -/
def fuzzRound (dev : Device) (payloadBuffer : Nat) : Unit → Guest (Unit ⊕ Unit)
  | () => do
    let _ ← kAFLHypercall .nextPayload
    let _ ← kAFLHypercall .acquire
    let size ← Prog.gets fun w => payloadSize w.mem payloadBuffer
    writeDevice dev (payloadBuffer + 4) size
    let _ ← kAFLHypercall .release
    pure (.inl ())

/-- `main`, with the constant `PAYLOAD_SIZE` of `kafl_user.h`. -/
def main (fuel payloadMax : Nat) (dev : Device) : Guest Unit := do
  let payloadBuffer ← alignedAlloc payloadMax
  memset payloadBuffer 0xff payloadMax
  let _ ← kAFLHypercall (.getPayload payloadBuffer)
  let _ ← kAFLHypercall .submitCr3
  Prog.iter .timeout (fuzzRound dev payloadBuffer) fuel ()

end KaflTargets.MacFuzzer
