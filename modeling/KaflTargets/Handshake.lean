import KaflTargets.Libnyx

/-!
# The handshake with the host

Every agent asks for the host's configuration, checks it and announces its own.
The Linux agents share the wording of their checks, and so do the two UEFI
agents. Each wording is a definition here with the agent's `PAYLOAD_MAX_SIZE`
as a parameter.
-/

namespace KaflTargets

open CString

/-! ## Linux agents (`forkserver.c`, `fs_fuzzer.c`) -/

/-- The checks of `agent_init` and what follows when they pass. A check that
fails reports and aborts; `agent_init` returns -1 if the host lets it. -/
def linuxCheckConfig (payloadMaxSize : Nat) (hostConfig : HostConfig) (next : Guest Int) :
    Guest Int :=
  if hostConfig.hostMagic ≠ NYX_HOST_MAGIC then do
    hprintf (ascii "HOST_MAGIC mismatch: " ++ hex08 hostConfig.hostMagic.toNat ++ ascii " != " ++
      hex08 NYX_HOST_MAGIC.toNat ++ ascii "\n")
    habort "HOST_MAGIC mismatch!"
    pure (-1)
  else if hostConfig.hostVersion ≠ NYX_HOST_VERSION then do
    hprintf (ascii "HOST_VERSION mismatch: " ++ hex08 hostConfig.hostVersion.toNat ++
      ascii " != " ++ hex08 NYX_HOST_VERSION.toNat ++ ascii "\n")
    habort "HOST_VERSION mismatch!"
    pure (-1)
  else if hostConfig.payloadBufferSize.toNat > payloadMaxSize then do
    hprintf (ascii "Fuzzer payload size too large: " ++ dec hostConfig.payloadBufferSize.toNat ++
      ascii " > " ++ dec payloadMaxSize ++ ascii "\n")
    habort "Host payload size too large!"
    pure (-1)
  else next

/-! ## UEFI agents (`kAFLAgentLib.c`, `kAFLDxe.c`) and the Zephyr agent -/

/-- Submit the handlers that were given. -/
def submitHandlers (panicHandler kasanHandler : Nat) : Guest Unit := do
  if panicHandler ≠ 0 then
    let _ ← kAFLHypercall (.submitPanic panicHandler)
  if kasanHandler ≠ 0 then
    let _ ← kAFLHypercall (.submitKasan kasanHandler)

/-- The sizes these agents print. -/
def printSizes (hostConfig : HostConfig) : Guest Unit := do
  hprintf (ascii "\thost_config.bitmap_size: 0x" ++ hex hostConfig.bitmapSize.toNat ++ ascii "\n")
  hprintf (ascii "\thost_config.ijon_bitmap_size: 0x" ++ hex hostConfig.ijonBitmapSize.toNat ++
    ascii "\n")
  hprintf (ascii "\thost_config.payload_buffer_size: 0x" ++
    hex hostConfig.payloadBufferSize.toNat ++ ascii "\n")

/-- What these agents announce. -/
def persistentConfig (hostConfig : HostConfig) : AgentConfig where
  agentMagic := NYX_AGENT_MAGIC
  agentVersion := NYX_AGENT_VERSION
  agentNonReloadMode := 1
  coverageBitmapSize := hostConfig.bitmapSize

/-- The checks of the UEFI agents. After a failed one they go on, unless the
host ends the run. -/
def uefiCheckConfig (payloadMaxSize : Nat) (hostConfig : HostConfig) : Guest Unit := do
  if hostConfig.hostMagic ≠ NYX_HOST_MAGIC ∨ hostConfig.hostVersion ≠ NYX_HOST_VERSION then
    hprintf (ascii "host_config magic/version mismatch hm: 0x" ++
      hex08 hostConfig.hostMagic.toNat ++ ascii ", hv: 0x" ++ hex08 hostConfig.hostVersion.toNat ++
      ascii ", am: 0x" ++ hex08 NYX_HOST_MAGIC.toNat ++ ascii ", av: 0x" ++
      hex08 NYX_HOST_VERSION.toNat ++ ascii "!\n")
    habort "GET_HOST_CONFIG magic/version mismatch!\n"
  printSizes hostConfig
  if hostConfig.payloadBufferSize.toNat > payloadMaxSize then
    hprintf (ascii "Host payload buffer requested size is too large, " ++
      ascii "please build the harness with a larger one!\n")
    habort "GET_HOST_CONFIG harness payload buffer too small\n"

/-- `agent_init` of the library without its last call, and `HarnessInit` of the
driver. -/
def uefiHandshake (payloadMaxSize panicHandler kasanHandler : Nat) : Guest Unit := do
  let _ ← kAFLHypercall .acquire
  let _ ← kAFLHypercall .release
  submitHandlers panicHandler kasanHandler
  hprintf (ascii "Fuzzer handshake done\n")
  let _ ← kAFLHypercall .getHostConfig
  let hostConfig ← Prog.gets (·.hostConfig)
  uefiCheckConfig payloadMaxSize hostConfig
  hprintf (ascii "Sending agent configuration\n")
  let _ ← kAFLHypercall (.setAgentConfig (persistentConfig hostConfig))
  hprintf (ascii "End send agent configuration\n")

end KaflTargets
