import Mathlib.Algebra.Ring.Int.Defs
import Mathlib.Algebra.Ring.Nat
import Mathlib.Logic.Function.Basic
import KaflTargets.Lib.Prog
import KaflTargets.Lib.Memory
import KaflTargets.NyxApi

/-!
# The world an agent runs in

A Linux agent is one process over a kernel, inside a virtual machine whose
host answers hypercalls. `World` holds the state of all three that the agents
read or change. `Env` holds what the outside decides: the CPUID string, which
paths open, how much each `read` and `write` transfers, which allocations
succeed. The outcomes of `read`, `write`, `aligned_alloc` and `mlock` are
functions of a tick that advances with every such call, and those of `open`,
`creat`, `fopen` and `chdir` of the number of such calls so far, so one `Env`
stands for one arbitrary sequence of outcomes.

Every hypercall is appended to `World.trace`, and so is every `write` and
`mount`, with what it returned. A Windows agent runs in the same `World`; the
trace has its `VirtualQuery`s and what it reads of the list of modules.
-/

namespace KaflTargets

open CString

/-! ## The environment -/

/-- A value of `errno` after a failed call: never 0. -/
abbrev Errno := { e : Nat // 0 < e }

/-- What a `read` of a file descriptor does: it returns at most `limit` bytes
(at least one before the end of the file), or fails. -/
inductive ReadOutcome
  | chunk (limit : Nat)
  | error (e : Errno)

/-- What a `write` does: it takes everything, at most `limit` bytes, or fails. -/
inductive WriteOutcome
  | full
  | short (limit : Nat)
  | error (e : Errno)

/-- How many of `count` bytes a `write` takes that does not fail. -/
def WriteOutcome.amount (o : WriteOutcome) (count : Nat) : Nat :=
  match o with
  | .short limit => min limit count
  | _ => count

/-- A `FILE *` opened for reading: the bytes that can still be read, whether
reading past them ends in an error instead of the end of the file, and the two
indicators of the stream. -/
structure FILE where
  data : Bytes
  failing : Bool := false
  eof : Bool := false
  error : Bool := false

/-- One option returned by `getopt`: an option character with its argument, or
`'?'`. -/
inductive GetoptItem
  | opt (c : UInt8) (arg : Option Bytes)
  | bad

/-- A scan by `getopt` from the current `optind` to its end: the options it
returned before -1, the arguments from the entry `optind` on in the order the
scan left them, and how far `optind` advanced. -/
structure GetoptScan where
  items : List GetoptItem
  args : List Bytes
  ind : Nat

/-- `getopt`, as far as its callers rely on it: it scans the arguments from the
current `optind` on and leaves `optind` between there and `argc`. -/
structure Getopt where
  scan : Bytes → List Bytes → GetoptScan
  length_args : ∀ optstring args, (scan optstring args).args.length = args.length
  ind_le : ∀ optstring args, (scan optstring args).ind ≤ args.length

/-- What the outside decides. -/
structure Env where
  /-- The 16 bytes CPUID returns at `KAFL_CPUID_IDENTIFIER`. -/
  cpuid : Bytes
  /-- The page number of the memory `aligned_alloc` returns. -/
  alignedAlloc : Nat → Except Errno { page : Nat // 0 < page }
  mlock : Nat → Option Errno
  read : Nat → ReadOutcome
  write : Nat → WriteOutcome
  /-- Why a file that exists cannot be opened by this call. -/
  openErr : Nat → Bytes → Option Errno
  /-- How many bytes of a file the stream opened by this call can read before it
  fails. -/
  streamErr : Nat → Bytes → Option Nat
  creatErr : Nat → Bytes → Option Errno
  chdirErr : Nat → Bytes → Option Errno
  stdin : FILE
  isatty : Bool
  getopt : Getopt
  /-- What a local variable holds before it is assigned. -/
  uninit : Nat := 0
  /-- Why the system calls without an entry of their own fail. -/
  sysErr : Nat → Option Errno := fun _ => none
  strerror : Nat → Bytes := fun _ => []
  lseekErr : Nat → Option Errno := fun _ => none
  mountErr : Nat → Option Errno := fun _ => none
  /-- What a file system writes to the device it is mounted from. -/
  mountWrites : Nat → Bytes → Bytes := fun _ image => image

/-- A `getopt` that finds no option among its arguments. -/
def Getopt.noOptions : Getopt where
  scan _ args := ⟨[], args, 0⟩
  length_args _ _ := rfl
  ind_le _ _ := Nat.zero_le _

/-- An environment on a Nyx CPU in which every call succeeds and transfers all
it is asked to. -/
def Env.plain : Env where
  cpuid := ascii "NYX vCPU (PT)" ++ [0, 0, 0]
  alignedAlloc _ := .ok ⟨1, Nat.one_pos⟩
  mlock _ := none
  read _ := .chunk (1024 * 1024)
  write _ := .full
  openErr _ _ := none
  streamErr _ _ := none
  creatErr _ _ := none
  chdirErr _ _ := none
  stdin := { data := [] }
  isatty := true
  getopt := Getopt.noOptions

/-! ## The host -/

/-- The host side of the interface. -/
structure Host where
  /-- The strings printed for `KAFL_PRINTF`, oldest first. -/
  log : List Bytes := []
  /-- The dump directory. -/
  dump : Bytes → Option Bytes := fun _ => none
  /-- The shared directory. -/
  share : Bytes → Option Bytes := fun _ => none
  /-- How far each shared file has been streamed. -/
  cursor : Bytes → Nat := fun _ => 0
  /-- Bulk requests answered so far, and which of them the host fails. -/
  bulkCount : Nat := 0
  bulkFails : Nat → Bool := fun _ => false
  /-- The reply to `GET_HOST_CONFIG`. -/
  config : HostConfig := HostConfig.zero
  /-- The payload buffer, the payloads (the first one is there with the buffer)
  and how many were delivered with `NEXT_PAYLOAD`. -/
  payloadAddr : Nat := 0
  payloads : Nat → Bytes := fun _ => []
  delivered : Nat := 0
  /-- Whether the guest continues after `USER_ABORT`. -/
  abortReturns : Bool := false

/-- The value that answers a bulk request the host cannot serve. -/
def BULK_ERROR : Nat := 0xFFFFFFFFFFFFFFFF

/-! ## The process -/

/-- What the outside sees a guest do. -/
inductive Event
  /-- The `vmcall` instruction was executed and returned `ret`. -/
  | vmcall (call : Hypercall) (ret : Nat)
  /-- `hypercall()` was asked for `call` and did not execute it. -/
  | skipped (call : Hypercall)
  /-- `write(fd, addr, count)` returned `ret`. -/
  | write (addr count : Nat) (ret : Int)
  /-- `mount` of a device backed by a file with this content. -/
  | mount (image : Bytes)
  /-- `VirtualQuery` for an address. -/
  | virtualQuery (addr : Nat)
  /-- An entry of the list of loaded modules was read. -/
  | moduleEntry (index : Nat)
  deriving DecidableEq

/-- A regular file. -/
structure File where
  content : Bytes
  mode : Nat
  deriving DecidableEq

/-- An open file description. -/
structure OpenFile where
  path : Bytes
  pos : Nat
  deriving DecidableEq

/-- Something a process gives back: a buffer, a descriptor, locked memory. -/
inductive Release
  | buffer (addr : Nat)
  | descriptor (fd : Nat)
  | pages (addr len : Nat)
  deriving DecidableEq

/-- Why a program does not run on. -/
inductive Stop
  /-- `assert` failed. -/
  | assertFailed
  /-- The host ended the run at `USER_ABORT`. -/
  | aborted
  /-- `exit(code)` was called. -/
  | exit (code : Int)
  /-- An access past the end of `argv`. -/
  | outOfBounds
  /-- An access through a null or an uninitialised pointer. -/
  | invalidPointer
  /-- A write past the end of a buffer. -/
  | overflow
  /-- An exception of the processor or the system, by its code. -/
  | exception (code : Nat)
  /-- The kernel halted after a fatal error. -/
  | halted
  /-- A loop or a chain of calls used up the bound it was run with. -/
  | timeout
  deriving DecidableEq

structure World where
  env : Env
  host : Host := {}
  /-- Globals of `nyx_agent.c` and of the C library. -/
  nyxCpuType : NyxCpuType := .nyxCpuInvalid
  optind : Nat := 1
  errno : Nat := 0
  /-- `static char hprintf_buffer[HPRINTF_MAX_SIZE]` of `hprintf_from_file`. -/
  hprintfBuffer : Bytes := List.replicate HPRINTF_MAX_SIZE 0
  /-- `static req_data_bulk_t req_file` of `hget_file`. -/
  reqFile : ReqDataBulk := ⟨List.replicate 256 0, 0, List.replicate 479 0⟩
  /-- The `host_config` variable that `GET_HOST_CONFIG` fills. -/
  hostConfig : HostConfig := HostConfig.zero
  /-- Files by absolute path, the working directory, open descriptors. -/
  files : Bytes → Option File := fun _ => none
  cwd : Bytes := []
  fds : Nat → Option OpenFile := fun _ => none
  nextFd : Nat := 3
  /-- Memory, allocated buffers (address, bytes) and locked pages. -/
  mem : Mem := fun _ => 0
  live : List (Nat × Nat) := []
  locked : List Nat := []
  /-- What was given back so far. -/
  releases : List Release := []
  tick : Nat := 0
  /-- The calls of `open`, `creat`, `fopen` and `chdir` so far. -/
  lookups : Nat := 0
  trace : List Event := []

/-- A process on a Nyx CPU that has not done anything yet. -/
def freshNyxWorld : World := { env := Env.plain, nyxCpuType := .nyxCpuV1 }

/-- `freshNyxWorld` with one file. -/
def oneFileWorld (path content : Bytes) : World :=
  { freshNyxWorld with
    files := fun name => if name = path then some ⟨content, 0o644⟩ else none }

/-- A program of the guest. -/
abbrev Guest := Prog Stop World

/-! ## Hypercalls -/

/-- The text the host prints for a buffer: up to the first NUL, at most
`HPRINTF_MAX_SIZE` bytes. -/
def Host.text (buffer : Bytes) : Bytes := cstr (buffer.take HPRINTF_MAX_SIZE)

/-- `DUMP_FILE`: append to the dump file or replace it. -/
def Host.putFile (h : Host) (req : DumpFile) (data : Bytes) : Host :=
  let old := if req.append = 0 then [] else (h.dump req.fileName).getD []
  { h with dump := Function.update h.dump req.fileName (some (old ++ data)) }

/-- `REQ_STREAM_DATA_BULK`: the bytes the host has for a request, if it serves
it at all. -/
def Host.bulkData (h : Host) (req : ReqDataBulk) : Option Bytes :=
  if h.bulkFails h.bulkCount then none
  else
    (h.share (cstr req.fileName)).map fun content =>
      (content.drop (h.cursor (cstr req.fileName))).take (req.numAddresses * PAGE_SIZE)

/-- The host's state after it streamed `n` bytes of the requested file. -/
def Host.advance (h : Host) (req : ReqDataBulk) (n : Nat) : Host :=
  let name := cstr req.fileName
  { h with
    cursor := Function.update h.cursor name (h.cursor name + n)
    bulkCount := h.bulkCount + 1 }

/-- The field `size` of a `kAFL_payload`, an `int32_t` before the data. -/
@[irreducible] def payloadSize (mem : Mem) (addr : Nat) : Int :=
  (mem.word32 addr : Int).bmod (2 ^ 32)

/-- Put the payload that is next into the buffer: its size, then its data. -/
def World.deliver (w : World) : World :=
  let data := w.host.payloads w.host.delivered
  { w with mem := w.mem.store w.host.payloadAddr (Mem.le32 data.length ++ data) }

/-- What the host does on a hypercall: its return value and the new world. -/
def World.react (w : World) : Hypercall → Nat × World
  | .getPayload addr => (0, { w with host.payloadAddr := addr }.deliver)
  | .nextPayload => (0, { w with host.delivered := w.host.delivered + 1 }.deliver)
  | .printf buffer => (0, { w with host.log := w.host.log ++ [Host.text buffer] })
  | .getHostConfig => (0, { w with hostConfig := w.host.config })
  | .dumpFile req => (0, { w with host := w.host.putFile req (w.mem.load req.dataPtr req.bytes) })
  | .reqStreamDataBulk req =>
    match w.host.bulkData req with
    | none => (BULK_ERROR, { w with host := w.host.advance req 0 })
    | some data =>
      (data.length,
        { w with
          host := w.host.advance req data.length
          mem := w.mem.scatter PAGE_SIZE (req.addresses.take req.numAddresses) data })
  | _ => (0, w)

/-- One `vmcall` with its entry in the trace. -/
def World.vmcall (w : World) (call : Hypercall) : Nat × World :=
  let (ret, w') := w.react call
  (ret, { w' with trace := w'.trace ++ [.vmcall call ret] })

/-- `kAFL_hypercall`: the raw `vmcall` instruction. -/
def kAFLHypercall (call : Hypercall) : Guest Nat :=
  ⟨fun w =>
    let (ret, w') := w.vmcall call
    match call with
    | .userAbort _ => if w.host.abortReturns then (.ok ret, w') else (.error .aborted, w')
    | _ => (.ok ret, w')⟩

/-- `habort` of `nyx_api.h`. -/
def habort (msg : String) : Guest Unit := do
  let _ ← kAFLHypercall (.userAbort (ascii msg))

/-- `hprintf` of `nyx_api.h`: the text is formatted into a buffer of
`HPRINTF_MAX_SIZE` bytes and always terminated. -/
def hprintf (text : Bytes) : Guest Unit := do
  let _ ← kAFLHypercall (.printf (text.take (HPRINTF_MAX_SIZE - 1) ++ [0]))

theorem kAFLHypercall_run {call : Hypercall} (h : ∀ msg, call ≠ .userAbort msg) (w : World) :
    (kAFLHypercall call).run w = (.ok (w.vmcall call).1, (w.vmcall call).2) := by
  cases call
  case userAbort msg => exact absurd rfl (h msg)
  all_goals rfl

theorem kAFLHypercall_abort_run (msg : Bytes) (w : World) :
    (kAFLHypercall (.userAbort msg)).run w =
      (if w.host.abortReturns then .ok 0 else .error .aborted,
        { w with trace := w.trace ++ [.vmcall (.userAbort msg) 0] }) := by
  cases h : w.host.abortReturns <;> simp [kAFLHypercall, World.vmcall, World.react, h]

theorem hprintf_run (text : Bytes) (w : World) :
    (hprintf text).run w =
      (.ok (), (w.vmcall (.printf (text.take (HPRINTF_MAX_SIZE - 1) ++ [0]))).2) :=
  rfl

/-! ## System calls and C library -/

def setErrno (e : Errno) : Guest Unit := Prog.modify fun w => { w with errno := e.val }

/-- A relative path is looked up in the working directory. -/
def World.resolve (w : World) (path : Bytes) : Bytes :=
  if path.head? = some 47 then path else w.cwd ++ ascii "/" ++ path

/-- `aligned_alloc(PAGE_SIZE, size)`: an address, or 0. -/
def alignedAlloc (size : Nat) : Guest Nat :=
  ⟨fun w =>
    match w.env.alignedAlloc w.tick with
    | .ok page =>
      (.ok (page.val * PAGE_SIZE),
        { w with tick := w.tick + 1, live := (page.val * PAGE_SIZE, size) :: w.live })
    | .error e => (.ok 0, { w with tick := w.tick + 1, errno := e.val })⟩

/-- `free(ptr)`. -/
def free (ptr : Nat) : Guest Unit :=
  Prog.modify fun w => { w with
    live := w.live.filter fun b => b.1 ≠ ptr
    releases := if ptr = 0 then w.releases else w.releases ++ [.buffer ptr] }

/-- `memset`, on an address that may be a null pointer. -/
def memset (addr : Nat) (c : UInt8) (n : Nat) : Guest Unit :=
  if addr = 0 then Prog.stop .invalidPointer
  else Prog.modify fun w => { w with mem := w.mem.fill addr n c }

/-- The pages that hold the `len` bytes from `addr` on. -/
def pagesOf (addr len : Nat) : List Nat :=
  if len = 0 then []
  else List.range' (addr / PAGE_SIZE) ((addr + len - 1) / PAGE_SIZE + 1 - addr / PAGE_SIZE)

/-- `mlock(addr, len)`: 0 or -1. -/
def mlock (addr len : Nat) : Guest Int :=
  ⟨fun w =>
    match w.env.mlock w.tick with
    | none => (.ok 0, { w with tick := w.tick + 1, locked := pagesOf addr len ++ w.locked })
    | some e => (.ok (-1), { w with tick := w.tick + 1, errno := e.val })⟩

/-- `munlock(addr, len)`. -/
def munlock (addr len : Nat) : Guest Unit :=
  Prog.modify fun w => { w with
    locked := w.locked.filter fun p => p ∉ pagesOf addr len
    releases := w.releases ++ [.pages addr len] }

/-- Enter an open file in the descriptor table. -/
def World.install (w : World) (f : OpenFile) : World :=
  { w with fds := Function.update w.fds w.nextFd (some f), nextFd := w.nextFd + 1 }

/-- One more call has looked up a path. -/
def World.called (w : World) : World := { w with lookups := w.lookups + 1 }

/-- `open(path, O_RDONLY)`: a descriptor, or none for -1. -/
def openRead (path : Bytes) : Guest (Option Nat) :=
  ⟨fun w =>
    match w.env.openErr w.lookups path, w.files (w.resolve path) with
    | none, some _ => (.ok (some w.nextFd), w.called.install ⟨w.resolve path, 0⟩)
    | none, none => (.ok none, { w.called with errno := 2 })
    | some e, _ => (.ok none, { w.called with errno := e.val })⟩

/-- `creat(path, mode)`: the file is created or truncated. -/
def creat (path : Bytes) (mode : Nat) : Guest (Option Nat) :=
  ⟨fun w =>
    match w.env.creatErr w.lookups path with
    | some e => (.ok none, { w.called with errno := e.val })
    | none =>
      let name := w.resolve path
      let mode' := ((w.files name).map File.mode).getD mode
      let files := Function.update w.files name (some ⟨[], mode'⟩)
      (.ok (some w.nextFd), { w.called with files }.install ⟨name, 0⟩)⟩

/-- `close(fd)`. -/
def close (fd : Nat) : Guest Unit :=
  Prog.modify fun w => { w with
    fds := Function.update w.fds fd none
    releases := w.releases ++ [.descriptor fd] }

/-- The world after `close(fd)` and `free(ptr)`. -/
def World.released (w : World) (fd ptr : Nat) : World := ((free ptr).run ((close fd).run w).2).2

@[simp] theorem released_files (w : World) (fd ptr : Nat) : (w.released fd ptr).files = w.files :=
  rfl

/-- The bytes a `read` of at most `count` bytes gets from what is left. -/
def readChunk (limit count : Nat) (rest : Bytes) : Bytes :=
  rest.take (min (max limit 1) count)

/-- `read(fd, addr, count)`: the number of bytes stored at `addr`, or -1. -/
def read (fd addr count : Nat) : Guest Int :=
  ⟨fun w =>
    match w.fds fd with
    | none => (.ok (-1), { w with errno := 9 })
    | some f =>
      match w.env.read w.tick with
      | .error e => (.ok (-1), { w with tick := w.tick + 1, errno := e.val })
      | .chunk limit =>
        let content := ((w.files f.path).map File.content).getD []
        let data := readChunk limit count (content.drop f.pos)
        (.ok data.length,
          { w with
            tick := w.tick + 1
            mem := w.mem.store addr data
            fds := Function.update w.fds fd (some { f with pos := f.pos + data.length }) })⟩

/-- Store `data` in an open file at its offset. -/
def World.writeAt (w : World) (fd : Nat) (f : OpenFile) (data : Bytes) : World :=
  let file := (w.files f.path).getD ⟨[], 0⟩
  { w with
    files := Function.update w.files f.path
      (some { file with content := overwrite file.content f.pos data })
    fds := Function.update w.fds fd (some { f with pos := f.pos + data.length }) }

/-- The largest count `write` accepts. -/
def SSIZE_MAX : Nat := 0x7fffffffffffffff

/-- `write(fd, addr, count)` without its entry in the trace. -/
def World.writeCall (w : World) (fd addr count : Nat) : Int × World :=
  match w.fds fd with
  | none => (-1, { w with errno := 9 })
  | some f =>
    if SSIZE_MAX < count then (-1, { w with errno := 22 })
    else
      match w.env.write w.tick with
      | .error e => (-1, { w with tick := w.tick + 1, errno := e.val })
      | outcome =>
        let n := outcome.amount count
        (n, { w.writeAt fd f (w.mem.load addr n) with tick := w.tick + 1 })

theorem writeCall_trace (w : World) (fd addr count : Nat) :
    (w.writeCall fd addr count).2.trace = w.trace := by
  unfold World.writeCall
  split
  · rfl
  · split
    · rfl
    · split <;> rfl

/-- `write(fd, addr, count)`: the number of bytes written, or -1. -/
def write (fd addr count : Nat) : Guest Int :=
  ⟨fun w =>
    let (ret, w') := w.writeCall fd addr count
    (.ok ret, { w' with trace := w'.trace ++ [.write addr count ret] })⟩

theorem write_run (w : World) (fd addr count : Nat) :
    (write fd addr count).run w =
      (.ok (w.writeCall fd addr count).1,
        { (w.writeCall fd addr count).2 with
          trace := (w.writeCall fd addr count).2.trace ++
            [.write addr count (w.writeCall fd addr count).1] }) := rfl

/-- A count that is no `ssize_t` is refused. -/
theorem writeCall_large {w : World} {fd : Nat} {f : OpenFile} (addr : Nat) {count : Nat}
    (hfd : w.fds fd = some f) (hlarge : SSIZE_MAX < count) :
    w.writeCall fd addr count = (-1, { w with errno := 22 }) := by
  simp [World.writeCall, hfd, hlarge]

/-- A `write` to an open file takes everything, or returns something else than
the count it was given, also after the conversion to an unsigned type. -/
theorem writeCall_cases {w : World} {fd : Nat} {f : OpenFile} (addr : Nat) {count : Nat}
    (hfd : w.fds fd = some f) (hcount : count < 2 ^ 64 - 1) :
    w.writeCall fd addr count =
        ((count : Int), { w.writeAt fd f (w.mem.load addr count) with tick := w.tick + 1 }) ∨
      ∃ ret w', w.writeCall fd addr count = (ret, w') ∧ w'.trace = w.trace ∧
        ret ≠ count ∧ ret % 2 ^ 64 ≠ count := by
  by_cases hlarge : SSIZE_MAX < count
  · exact .inr ⟨-1, { w with errno := 22 }, writeCall_large addr hfd hlarge, rfl, by omega,
      by omega⟩
  cases hw : w.env.write w.tick with
  | full =>
    refine .inl ?_
    simp [World.writeCall, hfd, hlarge, hw, WriteOutcome.amount]
  | short limit =>
    by_cases hle : count ≤ limit
    · refine .inl ?_
      simp [World.writeCall, hfd, hlarge, hw, WriteOutcome.amount, Nat.min_eq_right hle]
    · refine .inr ⟨(min limit count : Nat),
        { w.writeAt fd f (w.mem.load addr (min limit count)) with tick := w.tick + 1 },
        ?_, rfl, by omega, by omega⟩
      simp [World.writeCall, hfd, hlarge, hw, WriteOutcome.amount]
  | error e =>
    refine .inr ⟨-1, { w with tick := w.tick + 1, errno := e.val }, ?_, rfl, by omega, by omega⟩
    simp [World.writeCall, hfd, hlarge, hw]

/-- `fopen(path, "r")`. -/
def fopen (path : Bytes) : Guest (Option FILE) :=
  ⟨fun w =>
    match w.env.openErr w.lookups path, w.files (w.resolve path) with
    | some e, _ => (.ok none, { w.called with errno := e.val })
    | none, none => (.ok none, { w.called with errno := 2 })
    | none, some file =>
      match w.env.streamErr w.lookups path with
      | none => (.ok (some { data := file.content }), w.called)
      | some n => (.ok (some { data := file.content.take n, failing := true }), w.called)⟩

/-- `fread(.., 1, count, f)`: the bytes read and the stream afterwards. The
count is short only at the end of the data, where an indicator is set. -/
def FILE.fread (f : FILE) (count : Nat) : Bytes × FILE :=
  if count ≤ f.data.length then (f.data.take count, { f with data := f.data.drop count })
  else
    (f.data,
      { f with data := [], eof := f.eof || !f.failing, error := f.error || f.failing })

/-- `fgets(line, size, f)`: the line with its newline, if it fits. There is none
at the end of the file and on an error. -/
def FILE.fgets (f : FILE) (size : Nat) : Option (Bytes × FILE) :=
  let body := f.data.takeWhile (· ≠ 10)
  let line := (if body.length < f.data.length then body ++ [10] else body).take (size - 1)
  let cut := line.length = f.data.length && line.length < size - 1 && line.getLast? ≠ some 10
  if line = [] || (f.failing && cut) then none
  else some (line, { f with data := f.data.drop line.length })

/-- A system call of which only success or failure matters: 0 or -1. -/
def syscall : Guest Int :=
  ⟨fun w =>
    match w.env.sysErr w.tick with
    | none => (.ok 0, { w with tick := w.tick + 1 })
    | some e => (.ok (-1), { w with tick := w.tick + 1, errno := e.val })⟩

/-- `open(path, O_RDWR | O_CREAT, mode)`: the file is created if there is none,
and keeps its content otherwise. -/
def openCreate (path : Bytes) (mode : Nat) : Guest (Option Nat) :=
  ⟨fun w =>
    match w.env.openErr w.lookups path with
    | some e => (.ok none, { w.called with errno := e.val })
    | none =>
      let name := w.resolve path
      let file := (w.files name).getD ⟨[], mode⟩
      (.ok (some w.nextFd),
        { w.called with files := Function.update w.files name (some file) }.install ⟨name, 0⟩)⟩

/-- `lseek(fd, 0, SEEK_SET)`: 0 or -1. -/
def rewind (fd : Nat) : Guest Int :=
  ⟨fun w =>
    match w.fds fd, w.env.lseekErr w.tick with
    | none, _ => (.ok (-1), { w with errno := 9 })
    | some _, some e => (.ok (-1), { w with tick := w.tick + 1, errno := e.val })
    | some f, none =>
      (.ok 0,
        { w with
          tick := w.tick + 1
          fds := Function.update w.fds fd (some { f with pos := 0 }) })⟩

/-- The content of a file a file system was mounted from. The size of a device
does not change. -/
def World.mountedContent (w : World) (content : Bytes) : Bytes :=
  overwrite content 0 ((w.env.mountWrites w.tick content).take content.length)

/-- `mount` of the device behind which the open file `fd` stands: 0 or -1. -/
def mount (fd : Nat) : Guest Int :=
  ⟨fun w =>
    match w.fds fd with
    | none => (.ok (-1), { w with errno := 9 })
    | some f =>
      let file := (w.files f.path).getD ⟨[], 0⟩
      let shown := { w with tick := w.tick + 1, trace := w.trace ++ [Event.mount file.content] }
      match w.env.mountErr w.tick with
      | some e => (.ok (-1), { shown with errno := e.val })
      | none =>
        (.ok 0,
          { shown with
            files := Function.update w.files f.path
              (some { file with content := w.mountedContent file.content }) })⟩

/-- `chdir(path)`: 0 or -1. -/
def chdir (path : Bytes) : Guest Int :=
  ⟨fun w =>
    match w.env.chdirErr w.lookups path with
    | none => (.ok 0, { w.called with cwd := w.resolve path })
    | some e => (.ok (-1), { w.called with errno := e.val })⟩

/-! ## Aborts -/

/-- `USER_ABORT` was issued from `w` to `v`. -/
def Aborts (w v : World) : Prop :=
  ∃ es, v.trace = w.trace ++ es ∧ ∃ msg ret, Event.vmcall (.userAbort msg) ret ∈ es

theorem Aborts.of_prefix {w u v : World} {es : List Event} (h : Aborts u v)
    (htrace : u.trace = w.trace ++ es) : Aborts w v := by
  obtain ⟨es', hes', msg, ret, hmem⟩ := h
  refine ⟨es ++ es', by rw [hes', htrace, List.append_assoc], msg, ret, ?_⟩
  exact List.mem_append_right _ hmem

theorem Aborts.congr {w u v : World} (h : Aborts w u) (htrace : v.trace = u.trace) :
    Aborts w v := by
  obtain ⟨es, hes, hmem⟩ := h
  exact ⟨es, htrace.trans hes, hmem⟩

/-- How a program ends that issues `USER_ABORT`. -/
def World.abortEnd (w : World) : Except Stop Unit :=
  if w.host.abortReturns then .ok () else .error .aborted

theorem habort_run (w : World) (msg : String) :
    (habort msg).run w =
      (w.abortEnd, { w with trace := w.trace ++ [.vmcall (.userAbort (ascii msg)) 0] }) := by
  rw [habort, Prog.run_bind, kAFLHypercall_abort_run, World.abortEnd]
  cases w.host.abortReturns <;> rfl

end KaflTargets
