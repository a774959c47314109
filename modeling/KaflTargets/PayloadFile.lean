import KaflTargets.ForkServer
import KaflTargets.FsFuzzer

/-!
# The input of the fork server's target (`forkserver/src/forkserver.c`)

In file mode a child truncates the output file and writes its payload to it
before it enters `main_orig`. The `int32_t` size goes to `write` as a `size_t`,
and the `ssize_t` that comes back is compared with the size as an `int`. A
negative size is no `ssize_t`, so the `write` fails; the size -1 looks like that
failure, and the target runs on an empty file.

Results:
1. `writePayload_faithful_iff`: when a child enters `main_orig` with its payload
   only; `unfaithful_of_minus_one`: the size that slips through.
2. `visits_faithful_iff`: the children of any run.
-/

namespace KaflTargets.ForkServer

open CString Prog
open FsFuzzer (sizeT)

def outputFilename : Bytes := ascii "/tmp/payload"

/-- `open(path, O_RDWR | O_CREAT | O_TRUNC, mode)`: the file is created or
truncated. -/
def openTrunc (path : Bytes) (mode : Nat) : Guest (Option Nat) :=
  ⟨fun w =>
    match w.env.sysErr w.tick with
    | some e => (.ok none, { w with tick := w.tick + 1, errno := e.val })
    | none =>
      let name := w.resolve path
      let mode' := ((w.files name).map File.mode).getD mode
      (.ok (some w.nextFd),
        { w with
          tick := w.tick + 1
          files := Function.update w.files name (some ⟨[], mode'⟩) }.install ⟨name, 0⟩)⟩

/-- `write` on a descriptor that may be -1. -/
def writeFd (fd : Option Nat) (addr count : Nat) : Guest Int :=
  match fd with
  | some fd => write fd addr count
  | none => do
    setErrno ⟨9, by decide⟩
    pure (-1)

/-- The conversion of a `ssize_t` to `int`. -/
def ssizeToInt (n : Int) : Int := n.bmod (2 ^ 32)

/-- The input of a child in file mode. -/
def writePayload (payloadBuffer : Nat) : Guest Unit := do
  let fd ← openTrunc outputFilename 0o666
  errnoFailOn fd.isNone "open"
  let size ← Prog.gets fun w => payloadSize w.mem payloadBuffer
  let ret ← writeFd fd (payloadBuffer + 4) (sizeT size)
  errnoFailOn (ssizeToInt ret ≠ size) "write"
  match fd with
  | some fd => close fd
  | none => pure ()

/-- The input of a child in stdin mode: a pipe with the pages of the payload. Only
the first call is checked. -/
def splicePayload : Guest Unit := do
  let ret ← syscall
  errnoFailOn (ret = -1) "pipe"
  let _ ← syscall
  let _ ← syscall
  let _ ← syscall

/-- A child from `FAST_ACQUIRE` on, up to its call of `main_orig`. The host answers
with a payload: the memory is `mem` from then on. -/
def childSetup (stdinMode : Bool) (payloadBuffer : Nat) (mem : Mem) : Guest Unit := do
  let _ ← kAFLHypercall .userFastAcquire
  Prog.modify fun w => { w with mem := mem }
  if stdinMode then splicePayload else writePayload payloadBuffer
  -- `setrlimit`, `setitimer`
  let _ ← syscall
  let _ ← syscall

/-! ## Definitions -/

/-- What happens in an iteration besides the code above: the payload, and all
that is done from `main_orig` on up to the next `FAST_ACQUIRE`. -/
structure Iteration where
  mem : Mem
  rest : World → World

/-- A child that was forked: the world it started in, its payload, and how it got
on. It has entered `main_orig` if it did not stop. -/
structure Visit where
  before : World
  mem : Mem
  result : Except Stop Unit × World

/-- The children of a run in file mode. A run ends when a child stops: then the
host has ended it. -/
def visits (payloadBuffer : Nat) : List Iteration → World → List Visit
  | [], _ => []
  | it :: its, w =>
    let result := (childSetup false payloadBuffer it.mem).run w
    ⟨w, it.mem, result⟩ ::
      match result with
      | (.ok _, v) => visits payloadBuffer its (it.rest v)
      | (.error _, _) => []

/-- The content of the output file. -/
def output (w : World) : Option Bytes := (w.files (w.resolve outputFilename)).map File.content

/-- The output file holds the payload, and nothing else. -/
def Shows (payloadBuffer : Nat) (mem : Mem) (w : World) : Prop :=
  0 ≤ payloadSize mem payloadBuffer ∧
    output w = some (mem.load (payloadBuffer + 4) (payloadSize mem payloadBuffer).toNat)

/-- A `write` takes all `count` bytes. -/
def Completes (o : WriteOutcome) (count : Int) : Prop :=
  match o with
  | .full => True
  | .short limit => count ≤ limit
  | .error _ => False

namespace Visit

/-- `main_orig` sees exactly the payload, and in every other case `USER_ABORT` was
issued. -/
def Faithful (payloadBuffer : Nat) (x : Visit) : Prop :=
  (x.result.1 = .ok () → Shows payloadBuffer x.mem x.result.2) ∧
    (¬Shows payloadBuffer x.mem x.result.2 → Aborts x.before x.result.2)

/-- The condition: the file opens and takes the payload; or the host ends the run
at the abort, which a size of -1 does not lead to. (A host that does not end it
goes on with what is in the file.) -/
def Safe (payloadBuffer : Nat) (x : Visit) : Prop :=
  let size := payloadSize x.mem payloadBuffer
  let opens := x.before.env.sysErr x.before.tick = none
  (opens ∧ 0 ≤ size ∧ (Completes (x.before.env.write (x.before.tick + 1)) size ∨ size = 0)) ∨
    (x.before.host.abortReturns = false ∧ ¬(opens ∧ size = -1)) ∨
      (x.before.host.abortReturns = true ∧ ¬opens ∧ Shows payloadBuffer x.mem x.before)

end Visit

/-! ## 1. One child -/

namespace PayloadLemmas

variable {w v u : World} {buf : Nat} {mem : Mem}

theorem payloadSize_bounds (mem : Mem) (buf : Nat) :
    -(2 ^ 31) ≤ payloadSize mem buf ∧ payloadSize mem buf < 2 ^ 31 := by
  unfold payloadSize
  have hlow := Int.le_bmod (x := (mem.word32 buf : Int)) (m := 2 ^ 32) (by decide)
  have hhigh := Int.bmod_lt (x := (mem.word32 buf : Int)) (m := 2 ^ 32) (by decide)
  omega

/-- A size that is not negative goes through both conversions. -/
theorem sizeT_nonneg {n : Int} (h : 0 ≤ n) (hlt : n < 2 ^ 31) : sizeT n = n.toNat := by
  unfold sizeT
  omega

/-- A negative one is no `ssize_t`. -/
theorem sizeT_neg {n : Int} (h : n < 0) (hle : -(2 ^ 31) ≤ n) : SSIZE_MAX < sizeT n := by
  unfold sizeT SSIZE_MAX
  omega

theorem ssizeToInt_eq {n : Int} (h : -1 ≤ n) (hlt : n < 2 ^ 31) : ssizeToInt n = n :=
  Int.bmod_eq_of_le_mul_two (by omega) (by omega)

/-- A failed check was reported, and nothing else happened. -/
structure Reported (w v : World) : Prop where
  env : v.env = w.env
  files : v.files = w.files
  cwd : v.cwd = w.cwd
  fds : v.fds = w.fds
  mem : v.mem = w.mem
  tick : v.tick = w.tick
  abortEnd : v.abortEnd = w.abortEnd
  aborts : Aborts w v

theorem errnoFailOn_run (w : World) (msg : String) :
    ∃ v, (errnoFailOn true msg).run w = (w.abortEnd, v) ∧ Reported w v := by
  unfold errnoFailOn
  rw [if_pos rfl, Prog.run_bind, Prog.run_gets]
  dsimp only
  rw [Prog.run_bind, hprintf_run]
  dsimp only
  rw [habort_run]
  refine ⟨_, rfl, ⟨rfl, rfl, rfl, rfl, rfl, rfl, rfl, ?_⟩⟩
  refine ⟨[.vmcall _ 0, .vmcall (.userAbort (ascii msg)) 0], List.append_assoc _ _ _,
    ascii msg, 0, ?_⟩
  exact List.mem_cons_of_mem _ (List.mem_singleton_self _)

/-! ### The file -/

/-- The world with the file open and empty. -/
def opened (w : World) : World :=
  { w with
    tick := w.tick + 1
    files := Function.update w.files outputFilename
      (some ⟨[], ((w.files outputFilename).map File.mode).getD 0o666⟩) }.install
    ⟨outputFilename, 0⟩

theorem resolve_output (w : World) : w.resolve outputFilename = outputFilename := rfl

theorem opened_fds (w : World) : (opened w).fds w.nextFd = some ⟨outputFilename, 0⟩ :=
  Function.update_self w.nextFd _ w.fds

theorem opened_files (w : World) :
    (opened w).files outputFilename =
      some ⟨[], ((w.files outputFilename).map File.mode).getD 0o666⟩ :=
  Function.update_self outputFilename _ w.files

theorem output_opened (w : World) : output (opened w) = some [] := by
  rw [output, resolve_output, opened_files]
  rfl

theorem openTrunc_run (h : w.env.sysErr w.tick = none) :
    (openTrunc outputFilename 0o666).run w = (.ok (some w.nextFd), opened w) := by
  unfold openTrunc
  dsimp only
  rw [h]
  rfl

theorem openTrunc_fails {e : Errno} (h : w.env.sysErr w.tick = some e) :
    (openTrunc outputFilename 0o666).run w =
      (.ok none, { w with tick := w.tick + 1, errno := e.val }) := by
  unfold openTrunc
  dsimp only
  rw [h]

/-- What a `write` of `count` bytes to the empty file does: it returned `ret`, and
`n` bytes are in the file. -/
structure Wrote (w v : World) (addr count : Nat) (ret : Int) (n : Nat) : Prop where
  content : output v = some (w.mem.load addr n)
  trace : v.trace = w.trace
  abortEnd : v.abortEnd = w.abortEnd
  amount : ret = n ∨ ret = -1 ∧ n = 0
  le : n ≤ count
  large : SSIZE_MAX < count → ret = -1
  small : count ≤ SSIZE_MAX → (ret = count ↔ Completes (w.env.write (w.tick + 1)) count)

/-- The file after `n` bytes were written to it. -/
theorem output_writeAt {data : Bytes} :
    output { (opened w).writeAt w.nextFd ⟨outputFilename, 0⟩ data with
      tick := (opened w).tick + 1 } = some data := by
  rw [output, resolve_output]
  unfold World.writeAt
  dsimp only
  rw [opened_files, Function.update_self]
  simp [overwrite]

theorem writeCall_opened (w : World) (addr count : Nat) :
    ∃ ret v n, (opened w).writeCall w.nextFd addr count = (ret, v) ∧
      Wrote w v addr count ret n := by
  have hfd := opened_fds w
  by_cases hlarge : SSIZE_MAX < count
  · refine ⟨-1, { opened w with errno := 22 }, 0, writeCall_large addr hfd hlarge, ?_⟩
    exact ⟨output_opened w, rfl, rfl, .inr ⟨rfl, rfl⟩, Nat.zero_le _, fun _ => rfl,
      fun h => absurd h (Nat.not_le.mpr hlarge)⟩
  · unfold World.writeCall
    rw [hfd]
    dsimp only
    rw [if_neg hlarge]
    have henv : (opened w).env.write (opened w).tick = w.env.write (w.tick + 1) := rfl
    cases hw : w.env.write (w.tick + 1) with
    | full =>
      rw [henv, hw]
      refine ⟨_, _, count, rfl, ?_⟩
      exact ⟨output_writeAt, rfl, rfl, .inl rfl, Nat.le_refl _, fun h => absurd h hlarge,
        fun _ => by simp [Completes, WriteOutcome.amount, hw]⟩
    | short limit =>
      rw [henv, hw]
      refine ⟨_, _, min limit count, rfl, ?_⟩
      refine ⟨output_writeAt, rfl, rfl, .inl rfl, Nat.min_le_right _ _, fun h => absurd h hlarge,
        fun _ => ?_⟩
      simp only [Completes, WriteOutcome.amount, hw]
      omega
    | error e =>
      rw [henv, hw]
      refine ⟨-1, _, 0, rfl, ?_⟩
      refine ⟨output_opened w, rfl, rfl, .inr ⟨rfl, rfl⟩, Nat.zero_le _, fun _ => rfl, fun _ => ?_⟩
      simp only [Completes, hw]
      exact ⟨fun h => by omega, False.elim⟩

/-! ### The payload -/

/-- What a child in file mode did with its payload, as far as its result shows. -/
structure Ended (buf : Nat) (w : World) (r : Except Stop Unit × World) (ret : Int) (n : Nat) :
    Prop where
  content : output r.2 = some (w.mem.load (buf + 4) n)
  amount : ret = n ∨ ret = -1 ∧ n = 0
  le : n ≤ sizeT (payloadSize w.mem buf)
  negative : payloadSize w.mem buf < 0 → ret = -1
  complete : 0 ≤ payloadSize w.mem buf →
    (ret = payloadSize w.mem buf ↔
      Completes (w.env.write (w.tick + 1)) (payloadSize w.mem buf))
  accepted : ret = payloadSize w.mem buf → r.1 = .ok ()
  refused : ret ≠ payloadSize w.mem buf → r.1 = w.abortEnd ∧ Aborts w r.2

theorem output_congr (h : v.files = w.files) : output v = output w := by
  unfold output
  rw [resolve_output, resolve_output, h]

/-- A program that neither stops nor shows. -/
def Quiet (x : Guest Unit) : Prop :=
  ∀ w, ∃ v, x.run w = (.ok (), v) ∧ v.files = w.files ∧ v.trace = w.trace

theorem Quiet.after {k : Guest Unit} (hk : Quiet k) (x : Guest Unit) (w : World) :
    ∃ v, (x >>= fun _ => k).run w = ((x.run w).1, v) ∧ v.files = (x.run w).2.files ∧
      v.trace = (x.run w).2.trace := by
  rw [Prog.run_bind]
  cases hx : x.run w with
  | mk r u =>
    cases r with
    | error e => exact ⟨u, rfl, rfl, rfl⟩
    | ok a => exact hk u

theorem quiet_close (fd : Nat) : Quiet (close fd) := fun _ => ⟨_, rfl, rfl, rfl⟩

theorem quiet_syscall {k : Guest Unit} (hk : Quiet k) : Quiet (syscall >>= fun _ => k) := by
  intro w
  have hsys : ∃ ret u, syscall.run w = (.ok ret, u) ∧ u.files = w.files ∧ u.trace = w.trace := by
    unfold syscall
    dsimp only
    split
    · exact ⟨_, _, rfl, rfl, rfl⟩
    · exact ⟨_, _, rfl, rfl, rfl⟩
  obtain ⟨ret, u, hrun, hfiles, htrace⟩ := hsys
  obtain ⟨v, hv, hfiles', htrace'⟩ := hk u
  rw [Prog.run_bind_ok hrun]
  exact ⟨v, hv, hfiles'.trans hfiles, htrace'.trans htrace⟩

/-- What `write` returns for a payload fits an `int`. -/
theorem Wrote.narrow {addr : Nat} {ret : Int} {n : Nat}
    (h : Wrote w v addr (sizeT (payloadSize w.mem buf)) ret n) : ssizeToInt ret = ret := by
  obtain ⟨hlow, hhigh⟩ := payloadSize_bounds w.mem buf
  by_cases hneg : payloadSize w.mem buf < 0
  · rw [h.large (sizeT_neg hneg hlow)]
    rfl
  · have hle := h.le
    rw [sizeT_nonneg (by omega) hhigh] at hle
    have hret := h.amount
    exact ssizeToInt_eq (by omega) (by omega)

theorem Wrote.complete {addr : Nat} {ret : Int} {n : Nat}
    (h : Wrote w v addr (sizeT (payloadSize w.mem buf)) ret n) (hsize : 0 ≤ payloadSize w.mem buf) :
    ret = payloadSize w.mem buf ↔
      Completes (w.env.write (w.tick + 1)) (payloadSize w.mem buf) := by
  obtain ⟨_, hhigh⟩ := payloadSize_bounds w.mem buf
  have hcast : (sizeT (payloadSize w.mem buf) : Int) = payloadSize w.mem buf := by
    rw [sizeT_nonneg hsize hhigh, Int.toNat_of_nonneg hsize]
  have hsmall := h.small (by unfold SSIZE_MAX; omega)
  rwa [hcast] at hsmall

theorem writePayload_opens (buf : Nat) (hopen : w.env.sysErr w.tick = none) :
    ∃ ret n, Ended buf w ((writePayload buf).run w) ret n := by
  obtain ⟨ret, v, n, hcall, h⟩ := writeCall_opened w (buf + 4) (sizeT (payloadSize w.mem buf))
  obtain ⟨hlow, hhigh⟩ := payloadSize_bounds w.mem buf
  let u := { v with trace := v.trace ++
    [Event.write (buf + 4) (sizeT (payloadSize w.mem buf)) ret] }
  have hrun : (writePayload buf).run w =
      (errnoFailOn (ssizeToInt ret ≠ payloadSize w.mem buf) "write" >>=
        fun _ => close w.nextFd).run u := by
    unfold writePayload
    rw [Prog.run_bind_ok (openTrunc_run hopen)]
    have hwrite : (write w.nextFd (buf + 4) (sizeT (payloadSize w.mem buf))).run (opened w) =
        (.ok ret, u) := by
      rw [write_run, hcall]
    show (write w.nextFd (buf + 4) (sizeT (payloadSize w.mem buf)) >>= fun ret =>
      errnoFailOn (ssizeToInt ret ≠ payloadSize w.mem buf) "write" >>=
        fun _ => close w.nextFd).run (opened w) = _
    exact Prog.run_bind_ok hwrite
  obtain ⟨v', hrun', hfiles, htrace⟩ := (quiet_close w.nextFd).after
    (errnoFailOn (ssizeToInt ret ≠ payloadSize w.mem buf) "write") u
  rw [hrun, hrun', h.narrow]
  rw [h.narrow] at hfiles htrace
  have hout : output u = some (w.mem.load (buf + 4) n) := h.content
  have hnegative (hneg : payloadSize w.mem buf < 0) : ret = -1 := h.large (sizeT_neg hneg hlow)
  by_cases heq : ret = payloadSize w.mem buf
  · have hpass : errnoFailOn (ret ≠ payloadSize w.mem buf) "write" = pure () := by
      simp [errnoFailOn, heq]
    rw [hpass] at hfiles htrace ⊢
    exact ⟨ret, n, (output_congr hfiles).trans hout, h.amount, h.le, hnegative, h.complete,
      fun _ => rfl, fun hne => absurd heq hne⟩
  · have hfail : errnoFailOn (ret ≠ payloadSize w.mem buf) "write" = errnoFailOn true "write" := by
      simp [heq]
    obtain ⟨t, ht, hreport⟩ := errnoFailOn_run u "write"
    rw [hfail, ht] at hfiles htrace ⊢
    have hcontent : output v' = some (w.mem.load (buf + 4) n) :=
      (output_congr hfiles).trans ((output_congr hreport.files).trans hout)
    have haborts : Aborts w t :=
      Aborts.of_prefix hreport.aborts (congrArg (· ++ [_]) h.trace)
    refine ⟨ret, n, hcontent, h.amount, h.le, hnegative, h.complete, fun h => absurd h heq,
      fun _ => ⟨h.abortEnd, Aborts.congr haborts htrace⟩⟩

/-- The file shows the payload if `write` took it, or if there is nothing to show. -/
theorem Ended.shows {r : Except Stop Unit × World} {ret : Int} {n : Nat}
    (h : Ended buf w r ret n) :
    Shows buf w.mem r.2 ↔ 0 ≤ payloadSize w.mem buf ∧
      (Completes (w.env.write (w.tick + 1)) (payloadSize w.mem buf) ∨
        payloadSize w.mem buf = 0) := by
  obtain ⟨_, hhigh⟩ := payloadSize_bounds w.mem buf
  have hamount := h.amount
  unfold Shows
  rw [h.content]
  refine and_congr_right fun hsize => ?_
  have hle := h.le
  rw [sizeT_nonneg hsize hhigh] at hle
  rw [← h.complete hsize]
  constructor
  · intro hload
    have hlength := congrArg List.length (Option.some.inj hload)
    rw [Mem.load_length, Mem.load_length] at hlength
    omega
  · intro hret
    have hn : n = (payloadSize w.mem buf).toNat := by omega
    rw [hn]

theorem errnoFailOn_returns (h : w.abortEnd = .ok ()) (cond : Bool) (msg : String) :
    ∃ v es, (errnoFailOn cond msg).run w = (.ok (), v) ∧ v.files = w.files ∧
      v.trace = w.trace ++ es := by
  cases cond with
  | false => exact ⟨w, [], rfl, rfl, (List.append_nil _).symm⟩
  | true =>
    obtain ⟨v, hrun, hreport⟩ := errnoFailOn_run w msg
    obtain ⟨es, hes, _⟩ := hreport.aborts
    exact ⟨v, es, by rw [hrun, h], hreport.files, hes⟩

theorem writeFd_none (addr count : Nat) (w : World) :
    (writeFd none addr count).run w = (.ok (-1), { w with errno := 9 }) := rfl

/-- Nothing is written without a descriptor. A host that goes on after the first
abort sees the child reach its end, perhaps over a second one. -/
theorem writePayload_fails (buf : Nat) {e : Errno} (hopen : w.env.sysErr w.tick = some e) :
    ∃ v, (writePayload buf).run w = (w.abortEnd, v) ∧ v.files = w.files ∧ Aborts w v := by
  obtain ⟨v, hrun, hreport⟩ :=
    errnoFailOn_run { w with tick := w.tick + 1, errno := e.val } "open"
  have hverdict : World.abortEnd { w with tick := w.tick + 1, errno := e.val } = w.abortEnd := rfl
  rw [hverdict] at hrun
  have haborts : Aborts w v := hreport.aborts
  unfold writePayload
  rw [Prog.run_bind_ok (openTrunc_fails hopen)]
  cases hw : w.abortEnd with
  | error stop =>
    rw [hw] at hrun
    exact ⟨v, Prog.run_bind_error hrun, hreport.files, haborts⟩
  | ok a =>
    rw [hw] at hrun
    have hreturns : World.abortEnd { v with errno := 9 } = .ok () := hreport.abortEnd.trans hw
    obtain ⟨t, es, ht, hfiles, htrace⟩ := errnoFailOn_returns hreturns
      (ssizeToInt (-1) ≠ payloadSize v.mem buf) "write"
    refine ⟨t, ?_, hfiles.trans hreport.files, ?_⟩
    · show (errnoFailOn true "open" >>= _).run _ = _
      rw [Prog.run_bind_ok hrun]
      have hwrite := writeFd_none (buf + 4) (sizeT (payloadSize v.mem buf)) v
      rw [Prog.run_bind_ok (Prog.run_gets _ _), Prog.run_bind_ok hwrite, Prog.run_bind_ok ht]
      exact Prog.run_pure () t
    · obtain ⟨es', hes', msg, ret, hmem⟩ := haborts
      refine ⟨es' ++ es, ?_, msg, ret, List.mem_append_left _ hmem⟩
      rw [htrace, hes', List.append_assoc]

/-- The world in which the host has delivered `mem`. -/
def acquired (w : World) (mem : Mem) : World :=
  { w with trace := w.trace ++ [.vmcall .userFastAcquire 0], mem := mem }

/-- Around the file, a child does nothing that shows. -/
theorem childSetup_run (w : World) (mem : Mem) (buf : Nat) :
    ∃ v, (childSetup false buf mem).run w = (((writePayload buf).run (acquired w mem)).1, v) ∧
      v.files = ((writePayload buf).run (acquired w mem)).2.files ∧
      v.trace = ((writePayload buf).run (acquired w mem)).2.trace := by
  have hquiet : Quiet (syscall >>= fun _ => syscall >>= fun _ => pure ()) :=
    quiet_syscall (quiet_syscall fun w => ⟨w, rfl, rfl, rfl⟩)
  exact hquiet.after (writePayload buf) (acquired w mem)

theorem abortEnd_ok_iff : w.abortEnd = .ok () ↔ w.host.abortReturns = true := by
  unfold World.abortEnd
  cases w.host.abortReturns <;> simp

/-- A child whose file opens. It is `write` that decides how it gets on. -/
theorem faithful_opens {x : Visit} (hx : x.result = (childSetup false buf x.mem).run x.before)
    (hopen : x.before.env.sysErr x.before.tick = none) : x.Faithful buf ↔ x.Safe buf := by
  obtain ⟨w, mem, result⟩ := x
  dsimp only at hx hopen
  obtain ⟨v, hrun, hfiles, htrace⟩ := childSetup_run w mem buf
  have hacquired : (acquired w mem).env.sysErr (acquired w mem).tick = none := hopen
  obtain ⟨ret, n, hended⟩ := writePayload_opens buf hacquired
  have hverdict : (acquired w mem).abortEnd = .ok () ↔ w.host.abortReturns = true := abortEnd_ok_iff
  have hshows : Shows buf mem v ↔ 0 ≤ payloadSize mem buf ∧
      (Completes (w.env.write (w.tick + 1)) (payloadSize mem buf) ∨ payloadSize mem buf = 0) := by
    unfold Shows
    rw [output_congr hfiles]
    exact hended.shows
  have hnegative : payloadSize mem buf < 0 → ret = -1 := hended.negative
  have hcomplete : 0 ≤ payloadSize mem buf → (ret = payloadSize mem buf ↔
      Completes (w.env.write (w.tick + 1)) (payloadSize mem buf)) := hended.complete
  have haborts (hne : ret ≠ payloadSize mem buf) : Aborts w v :=
    Aborts.of_prefix (Aborts.congr (hended.refused hne).2 htrace) rfl
  rw [hrun] at hx
  subst hx
  unfold Visit.Faithful Visit.Safe
  dsimp only
  rw [← hshows]
  by_cases heq : ret = payloadSize mem buf
  · have hentered : ((writePayload buf).run (acquired w mem)).1 = .ok () := hended.accepted heq
    constructor
    · rintro ⟨hsees, _⟩
      exact .inl ⟨hopen, hsees hentered⟩
    · intro hsafe
      have hv : Shows buf mem v := by
        rcases hsafe with ⟨_, hv⟩ | ⟨_, hminus⟩ | ⟨_, hclosed, _⟩
        · exact hv
        · have hsize : 0 ≤ payloadSize mem buf := by
            refine Int.not_lt.mp fun hneg => hminus ⟨hopen, ?_⟩
            rw [← heq, hnegative hneg]
          exact hshows.mpr ⟨hsize, .inl ((hcomplete hsize).mp heq)⟩
        · exact absurd hopen hclosed
      exact ⟨fun _ => hv, fun hnot => absurd hv hnot⟩
  · have hstopped : ((writePayload buf).run (acquired w mem)).1 = (acquired w mem).abortEnd :=
      (hended.refused heq).1
    rw [hstopped, hverdict]
    constructor
    · rintro ⟨hsees, _⟩
      cases hreturns : w.host.abortReturns with
      | true => exact .inl ⟨hopen, hsees hreturns⟩
      | false =>
        refine .inr (.inl ⟨rfl, ?_⟩)
        rintro ⟨_, hminus⟩
        exact heq ((hnegative (by omega)).trans hminus.symm)
    · intro hsafe
      refine ⟨fun hreturns => ?_, fun _ => haborts heq⟩
      rcases hsafe with ⟨_, hv⟩ | ⟨hends, _⟩ | ⟨_, hclosed, _⟩
      · exact hv
      · rw [hreturns] at hends
        cases hends
      · exact absurd hopen hclosed

/-- A child whose file does not open finds what was there before. -/
theorem faithful_fails {x : Visit} (hx : x.result = (childSetup false buf x.mem).run x.before)
    {e : Errno} (hopen : x.before.env.sysErr x.before.tick = some e) :
    x.Faithful buf ↔ x.Safe buf := by
  obtain ⟨w, mem, result⟩ := x
  dsimp only at hx hopen
  obtain ⟨v, hrun, hfiles, htrace⟩ := childSetup_run w mem buf
  have hacquired : (acquired w mem).env.sysErr (acquired w mem).tick = some e := hopen
  obtain ⟨u, hwrite, hfiles', haborts⟩ := writePayload_fails buf hacquired
  rw [hwrite] at hrun hfiles htrace
  have hverdict : (acquired w mem).abortEnd = .ok () ↔ w.host.abortReturns = true := abortEnd_ok_iff
  have hshows : Shows buf mem v ↔ Shows buf mem w := by
    unfold Shows
    rw [output_congr (hfiles.trans hfiles'), output_congr (v := acquired w mem) (w := w) rfl]
  rw [hrun] at hx
  subst hx
  unfold Visit.Faithful Visit.Safe
  dsimp only
  have habort : Aborts w v := Aborts.of_prefix (Aborts.congr haborts htrace) rfl
  have hclosed : w.env.sysErr w.tick ≠ none := by
    rw [hopen]
    exact Option.some_ne_none e
  rw [hverdict, hshows]
  constructor
  · rintro ⟨hsees, _⟩
    cases hreturns : w.host.abortReturns with
    | false => exact .inr (.inl ⟨rfl, fun h => hclosed h.1⟩)
    | true => exact .inr (.inr ⟨rfl, hclosed, hsees hreturns⟩)
  · intro hsafe
    refine ⟨fun hreturns => ?_, fun _ => habort⟩
    rcases hsafe with ⟨hopens, _⟩ | ⟨hends, _⟩ | ⟨_, _, hw⟩
    · exact absurd hopens hclosed
    · rw [hreturns] at hends
      cases hends
    · exact hw

theorem mem_visits {its : List Iteration} {x : Visit} (hx : x ∈ visits buf its w) :
    x.result = (childSetup false buf x.mem).run x.before := by
  induction its generalizing w with
  | nil => cases hx
  | cons it its ih =>
    rw [visits] at hx
    cases hx with
    | head => rfl
    | tail _ htail =>
      cases hrun : (childSetup false buf it.mem).run w with
      | mk r v =>
        rw [hrun] at htail
        cases r with
        | ok a => exact ih htail
        | error e => cases htail

end PayloadLemmas

open PayloadLemmas

/-- A child enters `main_orig` with its payload only, and aborts where it cannot,
exactly if it is safe. -/
theorem writePayload_faithful_iff {buf : Nat} {x : Visit}
    (hx : x.result = (childSetup false buf x.mem).run x.before) :
    x.Faithful buf ↔ x.Safe buf := by
  cases hopen : x.before.env.sysErr x.before.tick with
  | none => exact faithful_opens hx hopen
  | some e => exact faithful_fails hx hopen

/-- A size of -1 always gets the target to run on an empty file. -/
theorem unfaithful_of_minus_one {buf : Nat} {x : Visit}
    (hx : x.result = (childSetup false buf x.mem).run x.before)
    (hopen : x.before.env.sysErr x.before.tick = none) (hsize : payloadSize x.mem buf = -1) :
    ¬x.Faithful buf := by
  rw [writePayload_faithful_iff hx]
  rintro (⟨_, hpos, _⟩ | ⟨_, hminus⟩ | ⟨_, hclosed, _⟩)
  · rw [hsize] at hpos
    exact absurd hpos (by decide)
  · exact hminus ⟨hopen, hsize⟩
  · exact hclosed hopen

/-! ## 2. The children of a run -/

theorem visits_faithful_iff (payloadBuffer : Nat) (its : List Iteration) (w : World) :
    (∀ x ∈ visits payloadBuffer its w, x.Faithful payloadBuffer) ↔
      ∀ x ∈ visits payloadBuffer its w, x.Safe payloadBuffer :=
  forall₂_congr fun _ hx => writePayload_faithful_iff (mem_visits hx)

/-- The host ends runs at the abort, every call succeeds, and the size is 0xffffffff. -/
theorem visits_run_on_nothing :
    ¬∀ x ∈ visits 4096 [⟨fun _ => 0xff, id⟩] freshNyxWorld, x.Faithful 4096 := by
  intro h
  let child : Visit := ⟨freshNyxWorld, fun _ => 0xff,
    (childSetup false 4096 fun _ => 0xff).run freshNyxWorld⟩
  have hsize : payloadSize child.mem 4096 = -1 := by
    unfold payloadSize
    decide
  have hmem : child ∈ visits 4096 [⟨fun _ => 0xff, id⟩] freshNyxWorld := by
    rw [visits]
    exact List.mem_cons_self
  exact unfaithful_of_minus_one rfl rfl hsize (h child hmem)

end KaflTargets.ForkServer
