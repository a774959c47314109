import KaflTargets.Lib.CString

/-!
# The hypercall interface (`nyx_api.h`)

The requests a guest can make of the host, the structures they carry and the
constants both sides compare.
-/

namespace KaflTargets

open CString

def PAGE_SIZE : Nat := 4096

def HPRINTF_MAX_SIZE : Nat := 0x1000

def KAFL_MODE_64 : Nat := 0
def KAFL_MODE_32 : Nat := 1

def NYX_HOST_MAGIC : UInt32 := 0x4878794e
def NYX_AGENT_MAGIC : UInt32 := 0x4178794e
def NYX_HOST_VERSION : UInt32 := 2
def NYX_AGENT_VERSION : UInt32 := 1

/-- `host_config_t`: what the host answers to `GET_HOST_CONFIG`. -/
structure HostConfig where
  hostMagic : UInt32
  hostVersion : UInt32
  bitmapSize : UInt32
  ijonBitmapSize : UInt32
  payloadBufferSize : UInt32
  workerId : UInt32
  deriving DecidableEq

/-- `host_config_t host_config = { 0 }`. -/
def HostConfig.zero : HostConfig := ⟨0, 0, 0, 0, 0, 0⟩

/-- `agent_config_t`: what the agent announces with `SET_AGENT_CONFIG`. -/
structure AgentConfig where
  agentMagic : UInt32 := 0
  agentVersion : UInt32 := 0
  agentTimeoutDetection : UInt8 := 0
  agentTracing : UInt8 := 0
  agentIjonTracing : UInt8 := 0
  agentNonReloadMode : UInt8 := 0
  traceBufferVaddr : UInt64 := 0
  ijonTraceBufferVaddr : UInt64 := 0
  coverageBitmapSize : UInt32 := 0
  inputBufferSize : UInt32 := 0
  dumpPayloads : UInt8 := 0
  deriving DecidableEq

/-- `kafl_dump_file_t`, with the file name its first field points to. -/
structure DumpFile where
  fileName : Bytes
  dataPtr : Nat
  bytes : Nat
  append : UInt8
  deriving DecidableEq

/-- `req_data_bulk_t`: `file_name` is the array of 256 bytes, `addresses` the
array of 479 words. -/
structure ReqDataBulk where
  fileName : Bytes
  numAddresses : Nat
  addresses : List Nat
  deriving DecidableEq

/-- A hypercall `HYPERCALL_KAFL_*` with its argument. Where the argument is the address of a
structure or of a string, the constructor carries what the address points to
when the call is made. -/
inductive Hypercall
  | acquire
  | getPayload (addr : Nat)
  | release
  | submitCr3
  | submitPanic (addr : Nat)
  | submitKasan (addr : Nat)
  | panic (arg : Nat)
  | kasan (arg : Nat)
  | lock
  | nextPayload
  | printf (buffer : Bytes)
  | userSubmitMode (mode : Nat)
  | userFastAcquire
  | userAbort (msg : Bytes)
  | rangeSubmit (start stop id : Nat)
  | panicExtended (msg : Bytes)
  | getHostConfig
  | setAgentConfig (config : AgentConfig)
  | dumpFile (req : DumpFile)
  | reqStreamDataBulk (req : ReqDataBulk)
  /-- A number that none of the agents uses by name. -/
  | other (id arg : Nat)
  deriving DecidableEq

/-- The guest CPU as `get_nyx_cpu_type` classifies it. -/
inductive NyxCpuType
  | nyxCpuInvalid
  | nyxCpuNone
  | nyxCpuV1
  | nyxCpuV2
  deriving DecidableEq

/-- The value of the C enumeration. -/
def NyxCpuType.val : NyxCpuType → Int
  | .nyxCpuInvalid => -1
  | .nyxCpuNone => 0
  | .nyxCpuV1 => 1
  | .nyxCpuV2 => 2

end KaflTargets
