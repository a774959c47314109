import KaflTargets.Lib.Scanf
import KaflTargets.Handshake

/-!
# The fork server up to its main loop (`forkserver/src/forkserver.c`)

The main loop, where two processes and the host take turns, is a transition
system of its own (`ForkProtocol`).
-/

namespace KaflTargets.ForkServer

open CString

def PAYLOAD_MAX_SIZE : Nat := 128 * 1024

/-- `ERRNO_FAIL_ON`. -/
def errnoFailOn (cond : Bool) (msg : String) : Guest Unit :=
  if cond then do
    let text ← Prog.gets fun w => w.env.strerror w.errno
    hprintf (ascii "Error: " ++ text ++ ascii "\n")
    habort msg
  else pure ()

/-! ## Handshake -/

/-- `agent_init`. -/
def agentInit (allowPersistent : Bool) : Guest Int := do
  Prog.modify fun w => { w with hostConfig := HostConfig.zero }
  let _ ← getNyxCpuType
  let _ ← kAFLHypercall .getHostConfig
  let hostConfig ← Prog.gets (·.hostConfig)
  linuxCheckConfig PAYLOAD_MAX_SIZE hostConfig do
    let _ ← kAFLHypercall (.setAgentConfig
      { agentMagic := NYX_AGENT_MAGIC
        agentVersion := NYX_AGENT_VERSION
        agentNonReloadMode := allowPersistent.toNat.toUInt8
        traceBufferVaddr := 0xdeadbeef
        ijonTraceBufferVaddr := 0xdeadbeef
        coverageBitmapSize := hostConfig.bitmapSize })
    let _ ← kAFLHypercall .acquire
    let _ ← kAFLHypercall .release
    pure 0

/-! ## Code ranges -/

/-- The format `"%lx-%lx %*2cxp %*x %*2d:%*2d %*d %ms"`. -/
def mapsFormat : List Scanf.Directive :=
  [.conv { kind := .lx }, .lit 45, .conv { kind := .lx }, .space,
    .conv { kind := .c, suppress := true, width := some 2 }, .lit 120, .lit 112, .space,
    .conv { kind := .x, suppress := true }, .space,
    .conv { kind := .d, suppress := true, width := some 2 }, .lit 58,
    .conv { kind := .d, suppress := true, width := some 2 }, .space,
    .conv { kind := .d, suppress := true }, .space, .conv { kind := .s }]

/-- The message about a range that matches. -/
def matchedMessage (region start stop : Nat) (file : Bytes) : Bytes :=
  ascii " => matched range " ++ dec region ++ ascii ": " ++ hex start ++ ascii "-" ++ hex stop ++
    ascii " (" ++ file ++ ascii ")\n"

/-- One line of `detectranges`, and the new value of `region` (`unsigned`). -/
def detectLine (fuel : Nat) (pattern line : Bytes) (region : Nat) : Guest Nat :=
  match Scanf.sscanf mapsFormat (cstr line) with
  | (3, [.num start, .num stop, .str file]) =>
    if strstr file pattern then do
      hprintf (matchedMessage region start stop file)
      hrangeSubmit fuel region start stop
      pure ((region + 1) % 2 ^ 32)
    else pure region
  | (3, _) => Prog.stop .invalidPointer
  | _ => pure region

/-- The `while` of `detectranges`. -/
def detectRound (fuel : Nat) (pattern : Bytes) : FILE × Nat → Guest ((FILE × Nat) ⊕ Nat)
  | (fp, region) =>
    match fp.fgets 4096 with
    | none => pure (.inr region)
    | some (line, fp') => do
      let region ← detectLine fuel pattern line region
      pure (.inl (fp', region))

/-- The conversion of an `unsigned` to `int`. -/
def unsignedToInt (n : Nat) : Int := (n : Int).bmod (2 ^ 32)

/-- `detectranges` for two strings. -/
def detectranges (fuel : Nat) (mapfile pattern : Bytes) : Guest Int := do
  let fp ← fopen mapfile
  errnoFailOn fp.isNone "fopen() failure"
  match fp with
  | none => Prog.stop .invalidPointer
  | some fp =>
    let region ← Prog.iter .timeout (detectRound fuel pattern) fuel (fp, 0)
    pure (unsignedToInt region)

/-! ## Start -/

/-- `dup2(open("/dev/null", ..), ..)`: the result of `dup2`, which fails on the
-1 of a failed `open`, too. -/
def dupNull : Guest Int := do
  let fd ← syscall
  let ret ← syscall
  pure (if fd = -1 then -1 else ret)

/-- The pipe, and the redirections of the standard streams. -/
def redirect (stdinMode : Bool) : Guest Unit := do
  let ret ← syscall
  errnoFailOn (ret = -1) "pipe"
  let ret ← dupNull
  errnoFailOn (ret = -1) "dup2(STDOUT)"
  let ret ← dupNull
  errnoFailOn (ret = -1) "dup2(STDERR)"
  if !stdinMode then
    let ret ← dupNull
    errnoFailOn (ret = -1) "dup2(STDIN)"

/-- `forkserver` up to its `while (1)`. -/
def forkserver (fuel : Nat) (allowPersistent stdinMode : Bool) (mainOrig : Nat) : Guest Unit := do
  redirect stdinMode
  let _ ← agentInit allowPersistent
  let payloadBuffer ← mallocResidentPages (PAYLOAD_MAX_SIZE / PAGE_SIZE)
  let _ ← kAFLHypercall (.getPayload payloadBuffer)
  let _ ← kAFLHypercall (.userSubmitMode KAFL_MODE_64)
  let ret ← detectranges fuel (ascii "/proc/self/maps") (ascii "bison")
  if ret < 1 then
    habort "No IP ranges registered?!"
  hprintf (ascii "main() => 0x" ++ hex mainOrig ++ ascii "\n")

end KaflTargets.ForkServer
