import KaflTargets.World

/-!
# The agent library (`libnyx_agent/src/nyx_agent.c`)

Every function below follows its source statement by statement, without the
diagnostics on `stderr` and `stdout`. Loops and the chain `hypercall` →
`habort_msg` → `hypercall` run with a bound `fuel`.
-/

namespace KaflTargets

open CString

def EIO : Int := 5
def EINVAL : Int := 22
def ENAMETOOLONG : Int := 36

/-! ## Resident pages -/

/-- `malloc_resident_pages`. The pages are filled and locked; 0 stands for
`NULL`. -/
def mallocResidentPages (numPages : Nat) : Guest Nat := do
  let dataSize := PAGE_SIZE * numPages % 2 ^ 64
  let ptr ← alignedAlloc dataSize
  if ptr = 0 then
    free ptr
    pure 0
  else
    Prog.modify fun w => { w with mem := w.mem.fill ptr dataSize 0x42 }
    let locked ← mlock ptr dataSize
    if locked = -1 then
      free ptr
      pure 0
    else if ptr % PAGE_SIZE = 0 then pure ptr
    else Prog.stop .assertFailed

/-- The world after `numPages` pages were allocated at `page` and locked. -/
def World.withPages (w : World) (page numPages : Nat) : World :=
  { w with
    tick := w.tick + 2
    live := (page * PAGE_SIZE, PAGE_SIZE * numPages) :: w.live
    mem := w.mem.fill (page * PAGE_SIZE) (PAGE_SIZE * numPages) 0x42
    locked := pagesOf (page * PAGE_SIZE) (PAGE_SIZE * numPages) ++ w.locked }

/-- The size in bytes wraps around with the number of pages. -/
theorem mallocResidentPages_wraps {w : World} {page : { p : Nat // 0 < p }} (numPages : Nat)
    (halloc : w.env.alignedAlloc w.tick = .ok page) (hlock : w.env.mlock (w.tick + 1) = none) :
    (mallocResidentPages numPages).run w =
      (.ok (page.val * PAGE_SIZE), w.withPages page.val (numPages % 2 ^ 52)) := by
  have hne : page.val * PAGE_SIZE ≠ 0 :=
    Nat.mul_ne_zero (Nat.pos_iff_ne_zero.mp page.property) (by decide)
  have halign : page.val * PAGE_SIZE % PAGE_SIZE = 0 := Nat.mul_mod_left _ _
  have hsize : PAGE_SIZE * numPages % 2 ^ 64 = PAGE_SIZE * (numPages % 2 ^ 52) :=
    Nat.mul_mod_mul_left PAGE_SIZE numPages (2 ^ 52)
  simp only [mallocResidentPages, hsize]
  simp [Prog.run_bind, alignedAlloc, mlock, halloc, hlock, hne, halign, World.withPages]

theorem mallocResidentPages_run {w : World} {page : { p : Nat // 0 < p }} {numPages : Nat}
    (hpages : numPages < 2 ^ 52) (halloc : w.env.alignedAlloc w.tick = .ok page)
    (hlock : w.env.mlock (w.tick + 1) = none) :
    (mallocResidentPages numPages).run w =
      (.ok (page.val * PAGE_SIZE), w.withPages page.val numPages) := by
  have hrun := mallocResidentPages_wraps numPages halloc hlock
  rwa [Nat.mod_eq_of_lt hpages] at hrun

/-- What `malloc_resident_pages` returns at `tick`: the address of a buffer that
was allocated and locked, or 0. -/
def Env.residentPages (env : Env) (tick : Nat) : Nat :=
  match env.alignedAlloc tick, env.mlock (tick + 1) with
  | .ok page, none => page.val * PAGE_SIZE
  | _, _ => 0

/-- The calls of `malloc_resident_pages` that can fail, one tick each: `mlock` is
called only for memory that was allocated. -/
def Env.residentTicks (env : Env) (tick : Nat) : Nat :=
  match env.alignedAlloc tick with
  | .ok _ => 2
  | .error _ => 1

/-- A `malloc_resident_pages` at this tick gets its memory and locks it. -/
def Env.Resident (env : Env) (tick : Nat) : Prop :=
  (∃ page, env.alignedAlloc tick = .ok page) ∧ env.mlock (tick + 1) = none

theorem residentPages_eq {env : Env} {tick : Nat} (h : env.Resident tick) :
    ∃ page : { p : Nat // 0 < p }, env.alignedAlloc tick = .ok page ∧
      env.residentPages tick = page.val * PAGE_SIZE := by
  obtain ⟨⟨page, halloc⟩, hlock⟩ := h
  exact ⟨page, halloc, by simp [Env.residentPages, halloc, hlock]⟩

theorem residentPages_zero {env : Env} {tick : Nat} (h : ¬env.Resident tick) :
    env.residentPages tick = 0 := by
  unfold Env.residentPages
  split
  · next page halloc hlock => exact absurd ⟨⟨page, halloc⟩, hlock⟩ h
  · rfl

theorem residentPages_pos {env : Env} {tick : Nat} (h : env.Resident tick) :
    env.residentPages tick ≠ 0 := by
  obtain ⟨page, -, haddr⟩ := residentPages_eq h
  rw [haddr]
  exact Nat.mul_ne_zero (Nat.pos_iff_ne_zero.mp page.property) (by decide)

theorem residentPages_aligned (env : Env) (tick : Nat) :
    env.residentPages tick % PAGE_SIZE = 0 := by
  unfold Env.residentPages
  split
  · exact Nat.mul_mod_left _ _
  · rfl

/-- The address `aligned_alloc` returns at `tick`, or 0. -/
def Env.allocated (env : Env) (tick : Nat) : Nat :=
  match env.alignedAlloc tick with
  | .ok page => page.val * PAGE_SIZE
  | .error _ => 0

/-- Without its memory, `malloc_resident_pages` sets `errno` and frees what it
has got. -/
theorem mallocResidentPages_fails {w : World} (numPages : Nat) (h : ¬w.env.Resident w.tick) :
    ∃ (e : Errno) (mem : Mem), (mallocResidentPages numPages).run w =
      (.ok 0,
        { w with
          tick := w.tick + w.env.residentTicks w.tick
          errno := e.val
          mem := mem
          live := w.live.filter fun b => b.1 ≠ w.env.allocated w.tick
          releases := if w.env.allocated w.tick = 0 then w.releases
            else w.releases ++ [.buffer (w.env.allocated w.tick)] }) := by
  cases halloc : w.env.alignedAlloc w.tick with
  | error e =>
    refine ⟨e, w.mem, ?_⟩
    simp [mallocResidentPages, Prog.run_bind, alignedAlloc, free, Env.residentTicks, Env.allocated,
      halloc]
  | ok page =>
    cases hlock : w.env.mlock (w.tick + 1) with
    | none => exact absurd ⟨⟨page, halloc⟩, hlock⟩ h
    | some e =>
      have hne : page.val * PAGE_SIZE ≠ 0 :=
        Nat.mul_ne_zero (Nat.pos_iff_ne_zero.mp page.property) (by decide)
      refine ⟨e, w.mem.fill (page.val * PAGE_SIZE) (PAGE_SIZE * numPages % 2 ^ 64) 0x42, ?_⟩
      simp [mallocResidentPages, Prog.run_bind, alignedAlloc, mlock, free, Env.residentTicks,
        Env.allocated, halloc, hlock, hne]

/-- Whatever the outcome, `malloc_resident_pages` touches nothing but the
memory of the process. -/
theorem mallocResidentPages_total (w : World) (numPages : Nat) :
    ∃ errno mem live locked releases, (mallocResidentPages numPages).run w =
      (.ok (w.env.residentPages w.tick),
        { w with
          tick := w.tick + w.env.residentTicks w.tick
          errno := errno
          mem := mem
          live := live
          locked := locked
          releases := releases }) := by
  by_cases h : w.env.Resident w.tick
  · obtain ⟨page, halloc, haddr⟩ := residentPages_eq h
    refine ⟨w.errno, (w.withPages page.val (numPages % 2 ^ 52)).mem,
      (w.withPages page.val (numPages % 2 ^ 52)).live,
      (w.withPages page.val (numPages % 2 ^ 52)).locked, w.releases, ?_⟩
    rw [mallocResidentPages_wraps numPages halloc h.2, haddr]
    simp [Env.residentTicks, halloc, World.withPages]
  · obtain ⟨e, mem, hrun⟩ := mallocResidentPages_fails numPages h
    exact ⟨e.val, mem, _, w.locked, _, by rw [hrun, residentPages_zero h]⟩

/-- `free_resident_pages`. The length given to `munlock` is the page count. -/
def freeResidentPages (buf numPages : Nat) : Guest Unit :=
  if buf = 0 then pure ()
  else do
    munlock buf numPages
    free buf

/-! ## CPU type and hypercalls -/

/-- `_get_nyx_cpu_type`: compare the CPUID string, NUL-terminated after its 16
bytes, with the two names. -/
def classifyCpuid (cpuid : Bytes) : NyxCpuType :=
  let str := cstr (cpuid.take 16)
  if strncmpEq str (ascii "NYX vCPU (PT)") 17 then .nyxCpuV1
  else if strncmpEq str (ascii "NYX vCPU (NO-PT)") 17 then .nyxCpuV2
  else .nyxCpuNone

/-- `get_nyx_cpu_type`. -/
def getNyxCpuType : Guest NyxCpuType := do
  let t ← Prog.gets (·.nyxCpuType)
  if t = .nyxCpuInvalid then
    Prog.modify fun w => { w with nyxCpuType := classifyCpuid w.env.cpuid }
  Prog.gets (·.nyxCpuType)

/-- The `switch` of `hypercall`, with what the branch for an unset CPU type
does. -/
def switchCpu (call : Hypercall) (invalid : Guest Nat) : Guest Nat := do
  match ← Prog.gets (·.nyxCpuType) with
  | .nyxCpuV1 => kAFLHypercall call
  | .nyxCpuV2 | .nyxCpuNone =>
    Prog.modify fun w => { w with trace := w.trace ++ [.skipped call] }
    pure 0
  | .nyxCpuInvalid => invalid

/-- `hypercall`. With an unset CPU type it calls `habort_msg`, which calls it
again. -/
def hypercall : Nat → Hypercall → Guest Nat
  | 0, call => switchCpu call (Prog.stop .timeout)
  | fuel + 1, call => switchCpu call do
      let _ ← hypercall fuel (.userAbort (ascii "get_nyx_cpu_type() must be called first\n"))
      Prog.stop .assertFailed

theorem hypercall_run_v1 {w : World} (h : w.nyxCpuType = .nyxCpuV1) (fuel : Nat)
    (call : Hypercall) : (hypercall fuel call).run w = (kAFLHypercall call).run w := by
  cases fuel <;> simp [hypercall, switchCpu, Prog.run_bind, h]

theorem hypercall_run_skipped {w : World}
    (h : w.nyxCpuType = .nyxCpuV2 ∨ w.nyxCpuType = .nyxCpuNone) (fuel : Nat) (call : Hypercall) :
    (hypercall fuel call).run w = (.ok 0, { w with trace := w.trace ++ [.skipped call] }) := by
  rcases h with h | h
  all_goals cases fuel <;> simp [hypercall, switchCpu, Prog.run_bind, h]

/-- `habort_msg`. -/
def habortMsg (fuel : Nat) (msg : Bytes) : Guest Unit := do
  let _ ← hypercall fuel (.userAbort msg)

/-- `hrange_submit`. -/
def hrangeSubmit (fuel id start stop : Nat) : Guest Unit := do
  let _ ← hypercall fuel (.rangeSubmit start stop id)

/-! ## Streaming a file to the host log -/

/-- The `while (!feof(f))` of `hprintf_from_file`: the stream and the count of
bytes written so far go from round to round. Only the bytes read are replaced
in the static buffer. -/
def hprintfRound (fuel : Nat) : FILE × Nat → Guest ((FILE × Nat) ⊕ Int)
  | (f, written) =>
    if f.eof then pure (.inr written)
    else do
      let (bytes, f') := f.fread HPRINTF_MAX_SIZE
      Prog.modify fun w => { w with hprintfBuffer := overwrite w.hprintfBuffer 0 bytes }
      if f'.error then pure (.inr (-1))
      else
        let buffer ← Prog.gets (·.hprintfBuffer)
        let _ ← hypercall fuel (.printf buffer)
        pure (.inl (f', written + bytes.length))

/-- `hprintf_from_file`: the number of bytes written, or -1. -/
def hprintfFromFile (fuel : Nat) (f : FILE) : Guest Int :=
  Prog.iter .timeout (hprintfRound fuel) fuel (f, 0)

/-! ## Fetching a file from the host -/

/-- The `do .. while (read == scratch_size)` of `hget_file`. It leaves with the
value of `ret`. -/
def hgetRound (fuel fd scratchBuf scratchSize : Nat) : Unit → Guest (Unit ⊕ Int)
  | () => do
    let reqFile ← Prog.gets (·.reqFile)
    let read ← hypercall fuel (.reqStreamDataBulk reqFile)
    if read = BULK_ERROR then pure (.inr (- EIO))
    else
      let ret ← write fd scratchBuf read
      if (read : Int) ≠ ret % 2 ^ 64 then pure (.inr (- EIO))
      else if read = scratchSize then pure (.inl ())
      else pure (.inr 0)

/-- `hget_file` from `creat` on: the loop, and the release of the descriptor
and of the buffer. -/
def hgetCopy (fuel : Nat) (dstPath : Bytes) (flags scratchBuf scratchSize : Nat) : Guest Int := do
  match ← creat dstPath flags with
  | none =>
    let errno ← Prog.gets (·.errno)
    pure errno
  | some fd =>
    let ret ← Prog.iter .timeout (hgetRound fuel fd scratchBuf scratchSize) fuel ()
    close fd
    free scratchBuf
    pure ret

/-- `hget_file`. -/
def hgetFile (fuel : Nat) (srcPath : Bytes) (flags : Nat) : Guest Int := do
  let numPages := 256
  let scratchSize := numPages * PAGE_SIZE
  let scratchBuf ← mallocResidentPages numPages
  Prog.modify fun w => { w with
    reqFile.addresses :=
      Mem.pages PAGE_SIZE scratchBuf numPages ++ w.reqFile.addresses.drop numPages
    reqFile.numAddresses := numPages }
  if srcPath.length < 256 then
    Prog.modify fun w => { w with
      reqFile.fileName := overwrite w.reqFile.fileName 0 (srcPath ++ [0]) }
    hgetCopy fuel (basename srcPath) flags scratchBuf scratchSize
  else pure (-ENAMETOOLONG)

/-! ## Pushing a file to the host -/

/-- The progress line of `hpush_file`. -/
def hpushMessage (srcPath dstName : Bytes) (bytes : Int) : Bytes :=
  ascii "[hpush] " ++ srcPath ++ ascii " => " ++ dstName ++ ascii " (" ++
    dec (bytes % 2 ^ 64).toNat ++ ascii " bytes)\n"

/-- The `do .. while (bytes > 0)` of `hpush_file`: the `append` field of the
request and the total go from round to round. It leaves with the total. -/
def hpushRound (fd scratchBuf scratchSize : Nat) (srcPath dstName : Bytes) :
    UInt8 × Nat → Guest ((UInt8 × Nat) ⊕ Nat)
  | (append, totalSent) => do
    let bytes ← read fd scratchBuf scratchSize
    hprintf (hpushMessage srcPath dstName bytes)
    if bytes = -1 then
      habort "hpush read error"
      pure (.inr totalSent)
    else if bytes = 0 then pure (.inr totalSent)
    else
      let _ ← kAFLHypercall (.dumpFile ⟨dstName, scratchBuf, bytes.toNat, append⟩)
      pure (.inl (1, totalSent + bytes.toNat))

/-- `hpush_file`. -/
def hpushFile (fuel : Nat) (srcPath dstName : Bytes) (append : Nat) : Guest Int := do
  let scratchSize := 1024 * 1024
  let scratchPages := scratchSize / PAGE_SIZE
  match ← openRead srcPath with
  | none =>
    let errno ← Prog.gets (·.errno)
    pure errno
  | some fd =>
    let scratchBuf ← mallocResidentPages scratchPages
    let ret ←
      if scratchBuf = 0 then do
        let errno ← Prog.gets (·.errno)
        pure (errno : Int)
      else do
        let totalSent ← Prog.iter .timeout
          (hpushRound fd scratchBuf scratchSize srcPath dstName) fuel (append.toUInt8, 0)
        hprintf (hpushMessage srcPath dstName totalSent)
        pure 0
    freeResidentPages scratchBuf scratchPages
    close fd
    pure ret

/-! ## Checking the host -/

/-- `check_host_magic`: 0, or -1 on a mismatch. The configuration is zeroed
before the hypercall. -/
def checkHostMagic (fuel : Nat) : Guest Int := do
  Prog.modify fun w => { w with hostConfig := HostConfig.zero }
  let _ ← hypercall fuel .getHostConfig
  let hostConfig ← Prog.gets (·.hostConfig)
  if hostConfig.hostMagic ≠ NYX_HOST_MAGIC then pure (-1)
  else if hostConfig.hostVersion ≠ NYX_HOST_VERSION then pure (-1)
  else pure 0

end KaflTargets
