import KaflTargets.Lib.CString
import KaflTargets.Lib.Prog
import Mathlib.Algebra.Ring.Int.Defs
import Mathlib.Algebra.Ring.Nat

/-!
# The decompression harness (`uefi_ovmf_64/TestDecompressPkg/TestDecompress.c`)

The harness asks for the two sizes the input states, allocates both buffers and
decompresses. All five exits go through one label that frees what was allocated and
returns the one status variable. An allocation that fails leaves in it the success
of the call before, and the size of the destination is a `UINT32` plus one.

Results:
1. `runTestHarness_run`: every exit with what happened on the way.
2. `runTestHarness_safe_iff`: when the call is safe and the status is true.
-/

namespace KaflTargets.TestDecompress

open CString

/-! ## The firmware -/

/-- What the harness does that shows. A call of `UefiDecompress` has the sizes of the
buffers it was handed, if they are any. -/
inductive PoolEvent
  | print (text : Bytes)
  | allocate (size : UInt32) (buffer : Nat)
  | decompress (destination scratch : Option UInt32) (status : UInt64)
  | free (buffer : Nat)
  deriving DecidableEq

structure Pool where
  live : List (Nat × UInt32) := []
  trace : List PoolEvent := []

/-- What the calls return. The second allocation does not give the buffer of the
first. -/
structure Firmware where
  getInfo : UInt64
  destinationSize : UInt32
  scratchSize : UInt32
  scratch : Nat
  destination : Nat
  fresh : scratch ≠ 0 → destination ≠ scratch
  decompress : UInt64

/-- A program of the firmware; it does not stop early. -/
abbrev Harness := Prog Empty Pool

/-- `EFI_ERROR`: the highest bit of an `EFI_STATUS`. -/
def efiError (status : UInt64) : Bool := 2 ^ 63 ≤ status.toNat

/-- `%d`, which takes an `INT32`. -/
def int32 (n : UInt64) : Bytes :=
  let value := (n.toNat : Int).bmod (2 ^ 32)
  if value < 0 then ascii "-" ++ dec value.natAbs else dec value.natAbs

/-- `KAFL_PRINT`. -/
def kaflPrint (text : Bytes) : Harness Unit :=
  Prog.modify fun p => { p with trace := p.trace ++ [.print text] }

/-- `AllocateZeroPool`, which returns `buffer`, or 0. -/
def allocateZeroPool (buffer : Nat) (size : UInt32) : Harness Nat :=
  ⟨fun p =>
    (.ok buffer,
      if buffer = 0 then p
      else
        { live := (buffer, size) :: p.live
          trace := p.trace ++ [.allocate size buffer] })⟩

/-- `FreePool`. -/
def freePool (buffer : Nat) : Harness Unit :=
  Prog.modify fun p =>
    { live := p.live.filter fun b => b.1 ≠ buffer
      trace := p.trace ++ [.free buffer] }

/-- `UefiDecompress`, which returns `status`. -/
def uefiDecompress (status : UInt64) (destination scratch : Nat) : Harness UInt64 :=
  ⟨fun p =>
    (.ok status,
      { p with trace := p.trace ++
          [.decompress (p.live.lookup destination) (p.live.lookup scratch) status] })⟩

/-! ## The harness -/

/-- The label `ERROR`. -/
def cleanup (scratch destination : Nat) (status : UInt64) : Harness UInt64 := do
  if scratch ≠ 0 then
    freePool scratch
  if destination ≠ 0 then
    freePool destination
  pure status

/-- `RunTestHarness`. -/
def runTestHarness (sys : Firmware) : Harness UInt64 := do
  kaflPrint (ascii "Start->")
  let status := sys.getInfo
  if efiError status then do
    kaflPrint (ascii "Error G" ++ int32 status ++ ascii "\n")
    cleanup 0 0 status
  else do
    let scratch ← allocateZeroPool sys.scratch sys.scratchSize
    if scratch = 0 then do
      kaflPrint (ascii "Error A" ++ int32 status ++ ascii "\n")
      cleanup scratch 0 status
    else do
      -- on 32 bits
      let destination ← allocateZeroPool sys.destination (sys.destinationSize + 1)
      if destination = 0 then do
        kaflPrint (ascii "Error A" ++ int32 status ++ ascii "\n")
        cleanup scratch destination status
      else do
        let status ← uefiDecompress sys.decompress destination scratch
        if efiError status then
          kaflPrint (ascii "Error D" ++ int32 status ++ ascii "\n")
        else
          kaflPrint (ascii "Success! " ++ int32 status ++ ascii "\n")
        cleanup scratch destination status

/-! ## Definitions -/

/-- The two buffers are large enough at every call of `UefiDecompress`; a status that
is no error is that of a call that succeeded; and every buffer is freed once. -/
structure Safe (sys : Firmware) (status : UInt64) (trace : List PoolEvent) : Prop where
  buffers : ∀ destination scratch result,
    PoolEvent.decompress destination scratch result ∈ trace →
      (∃ n, destination = some n ∧ sys.destinationSize ≤ n) ∧
        ∃ n, scratch = some n ∧ sys.scratchSize ≤ n
  truthful : efiError status = false → ∃ destination scratch result,
    PoolEvent.decompress destination scratch result ∈ trace ∧ efiError result = false
  freed : ∀ n buffer, PoolEvent.allocate n buffer ∈ trace → trace.count (.free buffer) = 1

/-- The condition: the sizes are refused, or both buffers are there and the size of the
destination does not wrap. -/
def Firmware.Provides (sys : Firmware) : Prop :=
  efiError sys.getInfo = true ∨
    (sys.scratch ≠ 0 ∧ sys.destination ≠ 0 ∧ sys.destinationSize ≠ 0xffffffff)

/-! ## 1. The exits -/

/-- What a run did. -/
inductive Exit (sys : Firmware) : UInt64 → List PoolEvent → Prop
  | refused {g : Bytes} (hinfo : efiError sys.getInfo = true) :
      Exit sys sys.getInfo [.print (ascii "Start->"), .print g]
  | noScratch {a : Bytes} (hinfo : efiError sys.getInfo = false) (hscratch : sys.scratch = 0) :
      Exit sys sys.getInfo [.print (ascii "Start->"), .print a]
  | noDestination {a : Bytes} (hinfo : efiError sys.getInfo = false) (hscratch : sys.scratch ≠ 0)
      (hdestination : sys.destination = 0) :
      Exit sys sys.getInfo [.print (ascii "Start->"), .allocate sys.scratchSize sys.scratch,
        .print a, .free sys.scratch]
  | called {text : Bytes} (hinfo : efiError sys.getInfo = false) (hscratch : sys.scratch ≠ 0)
      (hdestination : sys.destination ≠ 0) :
      Exit sys sys.decompress [.print (ascii "Start->"), .allocate sys.scratchSize sys.scratch,
        .allocate (sys.destinationSize + 1) sys.destination,
        .decompress (some (sys.destinationSize + 1)) (some sys.scratchSize) sys.decompress,
        .print text, .free sys.scratch, .free sys.destination]

namespace DecompressLemmas

theorem allocate_null (size : UInt32) (p : Pool) : (allocateZeroPool 0 size).run p = (.ok 0, p) :=
  rfl

theorem allocate_buffer {buffer : Nat} (h : buffer ≠ 0) (size : UInt32) (p : Pool) :
    (allocateZeroPool buffer size).run p =
      (.ok buffer, ⟨(buffer, size) :: p.live, p.trace ++ [.allocate size buffer]⟩) := by
  unfold allocateZeroPool
  dsimp only
  rw [if_neg h]

theorem kaflPrint_run (text : Bytes) (p : Pool) :
    (kaflPrint text).run p = (.ok (), ⟨p.live, p.trace ++ [.print text]⟩) := rfl

theorem freePool_run (buffer : Nat) (p : Pool) :
    (freePool buffer).run p =
      (.ok (), ⟨p.live.filter fun b => b.1 ≠ buffer, p.trace ++ [.free buffer]⟩) := rfl

theorem cleanup_scratch {scratch : Nat} (h : scratch ≠ 0) (status : UInt64) (p : Pool) :
    ∃ q, (cleanup scratch 0 status).run p = (.ok status, q) ∧
      q.trace = p.trace ++ [.free scratch] := by
  unfold cleanup
  rw [if_pos h, Prog.run_bind_ok (freePool_run scratch p)]
  exact ⟨_, rfl, rfl⟩

theorem cleanup_both {scratch destination : Nat} (hscratch : scratch ≠ 0)
    (hdestination : destination ≠ 0) (status : UInt64) (p : Pool) :
    ∃ q, (cleanup scratch destination status).run p = (.ok status, q) ∧
      q.trace = p.trace ++ [.free scratch, .free destination] := by
  unfold cleanup
  rw [if_pos hscratch, Prog.run_bind_ok (freePool_run scratch p), if_pos hdestination,
    Prog.run_bind_ok (freePool_run destination _)]
  exact ⟨_, rfl, List.append_assoc _ [_] [_]⟩

/-- Both buffers are live at the call. -/
theorem uefiDecompress_run (sys : Firmware) (h : sys.scratch ≠ 0) (trace : List PoolEvent) :
    (uefiDecompress sys.decompress sys.destination sys.scratch).run
        ⟨[(sys.destination, sys.destinationSize + 1), (sys.scratch, sys.scratchSize)], trace⟩ =
      (.ok sys.decompress,
        ⟨[(sys.destination, sys.destinationSize + 1), (sys.scratch, sys.scratchSize)],
          trace ++ [.decompress (some (sys.destinationSize + 1)) (some sys.scratchSize)
            sys.decompress]⟩) := by
  have hfresh : (sys.scratch == sys.destination) = false :=
    beq_eq_false_iff_ne.mpr (sys.fresh h).symm
  unfold uefiDecompress
  simp [List.lookup_cons, hfresh]

end DecompressLemmas

open DecompressLemmas

theorem runTestHarness_run (sys : Firmware) :
    ∃ status pool, (runTestHarness sys).run {} = (.ok status, pool) ∧
      Exit sys status pool.trace := by
  unfold runTestHarness
  rw [Prog.run_bind_ok (kaflPrint_run _ _)]
  dsimp only
  cases hinfo : efiError sys.getInfo with
  | true =>
    rw [if_pos rfl]
    exact ⟨_, _, rfl, .refused hinfo⟩
  | false =>
    rw [if_neg Bool.false_ne_true]
    by_cases hscratch : sys.scratch = 0
    · rw [hscratch]
      exact ⟨_, _, rfl, .noScratch hinfo hscratch⟩
    · rw [Prog.run_bind_ok (allocate_buffer hscratch _ _), if_neg hscratch]
      by_cases hdestination : sys.destination = 0
      · rw [hdestination, Prog.run_bind_ok (allocate_null _ _), if_pos rfl,
          Prog.run_bind_ok (kaflPrint_run _ _)]
        obtain ⟨q, hrun, htrace⟩ := cleanup_scratch hscratch sys.getInfo _
        refine ⟨_, q, hrun, ?_⟩
        rw [htrace]
        exact .noDestination hinfo hscratch hdestination
      · rw [Prog.run_bind_ok (allocate_buffer hdestination _ _), if_neg hdestination,
          Prog.run_bind_ok (uefiDecompress_run sys hscratch _)]
        cases herror : efiError sys.decompress with
        | true =>
          rw [if_pos rfl, Prog.run_bind_ok (kaflPrint_run _ _)]
          obtain ⟨q, hrun, htrace⟩ := cleanup_both hscratch hdestination sys.decompress _
          refine ⟨_, q, hrun, ?_⟩
          rw [htrace]
          exact .called hinfo hscratch hdestination
        | false =>
          rw [if_neg Bool.false_ne_true, Prog.run_bind_ok (kaflPrint_run _ _)]
          obtain ⟨q, hrun, htrace⟩ := cleanup_both hscratch hdestination sys.decompress _
          refine ⟨_, q, hrun, ?_⟩
          rw [htrace]
          exact .called hinfo hscratch hdestination

/-! ## 2. Safety -/

namespace DecompressLemmas

/-- A size plus one covers the size unless it wraps. -/
theorem le_add_one_iff (n : UInt32) : n ≤ n + 1 ↔ n ≠ 0xffffffff := by
  have hlt := n.toNat_lt
  rw [UInt32.le_iff_toNat_le, UInt32.toNat_add, ne_eq, ← UInt32.toNat_inj]
  show n.toNat ≤ (n.toNat + 1) % 2 ^ 32 ↔ ¬n.toNat = 4294967295
  omega

/-- A success that no call of `UefiDecompress` stands for. -/
theorem untruthful {sys : Firmware} {trace : List PoolEvent}
    (hinfo : efiError sys.getInfo = false)
    (h : ∀ destination scratch result,
      PoolEvent.decompress destination scratch result ∉ trace) :
    ¬Safe sys sys.getInfo trace := by
  intro hsafe
  obtain ⟨destination, scratch, result, hmem, _⟩ := hsafe.truthful hinfo
  exact h destination scratch result hmem

/-- The exits on which both buffers are there. -/
theorem called_safe_iff {sys : Firmware} (hscratch : sys.scratch ≠ 0) (start text : Bytes) :
    Safe sys sys.decompress [.print start, .allocate sys.scratchSize sys.scratch,
      .allocate (sys.destinationSize + 1) sys.destination,
      .decompress (some (sys.destinationSize + 1)) (some sys.scratchSize) sys.decompress,
      .print text, .free sys.scratch, .free sys.destination] ↔
        sys.destinationSize ≠ 0xffffffff := by
  have hfresh := sys.fresh hscratch
  rw [← le_add_one_iff]
  constructor
  · intro hsafe
    obtain ⟨⟨n, hn, hle⟩, _⟩ := hsafe.buffers (some (sys.destinationSize + 1))
      (some sys.scratchSize) sys.decompress (by simp)
    cases hn
    exact hle
  · intro hle
    refine ⟨fun destination scratch result hmem => ?_, fun hok => ?_, fun n buffer hmem => ?_⟩
    · simp only [List.mem_cons, PoolEvent.decompress.injEq, reduceCtorEq, false_or, or_false,
        List.not_mem_nil] at hmem
      obtain ⟨rfl, rfl, _⟩ := hmem
      exact ⟨⟨_, rfl, hle⟩, _, rfl, UInt32.le_refl _⟩
    · exact ⟨some (sys.destinationSize + 1), some sys.scratchSize, _, by simp, hok⟩
    · simp only [List.mem_cons, PoolEvent.allocate.injEq, reduceCtorEq, false_or, or_false,
        List.not_mem_nil] at hmem
      rcases hmem with ⟨_, rfl⟩ | ⟨_, rfl⟩
      · simp [hfresh]
      · simp [hfresh.symm]

end DecompressLemmas

/-- The harness is safe and truthful exactly if the sizes are refused, or both buffers are
there and the size of the destination does not wrap. -/
theorem runTestHarness_safe_iff (sys : Firmware) :
    ∃ status pool, (runTestHarness sys).run {} = (.ok status, pool) ∧
      (Safe sys status pool.trace ↔ sys.Provides) := by
  obtain ⟨status, pool, hrun, hexit⟩ := runTestHarness_run sys
  refine ⟨status, pool, hrun, ?_⟩
  generalize pool.trace = trace at hexit
  unfold Firmware.Provides
  cases hexit with
  | refused hinfo =>
    refine iff_of_true ⟨?_, ?_, ?_⟩ (.inl hinfo)
    · simp
    · simp [hinfo]
    · simp
  | noScratch hinfo hscratch =>
    refine iff_of_false (untruthful hinfo (by simp)) ?_
    simp [hinfo, hscratch]
  | noDestination hinfo hscratch hdestination =>
    refine iff_of_false (untruthful hinfo (by simp)) ?_
    simp [hinfo, hdestination]
  | called hinfo hscratch hdestination =>
    rw [called_safe_iff hscratch]
    simp [hinfo, hscratch, hdestination]

/-- The input is fine and there is no memory. -/
def exhausted : Firmware where
  getInfo := 0
  destinationSize := 16
  scratchSize := 16
  scratch := 0
  destination := 0
  fresh h := absurd rfl h
  decompress := 0

/-- Success is returned, but nothing was decompressed. -/
theorem runTestHarness_untruthful :
    ∃ status pool, (runTestHarness exhausted).run {} = (.ok status, pool) ∧
      ¬Safe exhausted status pool.trace := by
  refine ⟨0, _, rfl, untruthful (by decide) fun destination scratch result => ?_⟩
  show _ ∉ [PoolEvent.print _, PoolEvent.print _]
  simp

end KaflTargets.TestDecompress
