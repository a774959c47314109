import Mathlib.Data.List.Nodup
import KaflTargets.FailedDownload
import KaflTargets.HandshakeGate
import KaflTargets.LibraryCalls
import KaflTargets.Upload

/-!
# Which memory reaches the host

Four functions get a buffer from `malloc_resident_pages` and hand it to the
host. `hpush_file` and the file-system fuzzer look at the pointer first.
`hget_file` and the fork server do not: after a failed allocation the first
asks for data at the addresses 0, 4096, .., or writes from the null pointer,
and the second hands over the null pointer for the payload.

The payload buffer is large enough if the agent has checked the size the host
announced, which holds unless the host lets the guest run on after an abort.

Results:
1. `hgetFile_onlyLive_iff`, `hpushFile_onlyLive`: the two functions of the library.
2. `forkserver_outcome`, `fsFuzzer_outcome`: when the two agents hand over
   their buffer, and which address.
3. `onlyLive_iff`: when only live buffers reach the host.
-/

namespace KaflTargets

open CString Prog

/-! ## Definitions -/

/-- The event hands memory to the host. -/
def Event.handsOver : Event → Bool
  | .vmcall (.reqStreamDataBulk _) _ | .vmcall (.dumpFile _) _ | .vmcall (.getPayload _) _ => true
  | _ => false

/-- The event hands memory to the host or writes from it. -/
def Event.usesMemory : Event → Bool
  | .write .. => true
  | e => e.handsOver

/-- An aligned range inside a buffer. -/
structure InBuffer (buffer bytes addr len : Nat) : Prop where
  aligned : addr % PAGE_SIZE = 0
  lower : buffer ≤ addr
  upper : addr + len ≤ buffer + bytes

/-- What the event hands to the host are distinct pages of the buffer, or a range
of it; the buffer for payloads has room for the largest one. -/
def Event.Fits (buffer bytes payload : Nat) : Event → Prop
  | .vmcall (.reqStreamDataBulk req) _ =>
    req.numAddresses ≤ 479 ∧ 0 ∈ req.fileName.take 256 ∧
      (req.addresses.take req.numAddresses).Nodup ∧
      ∀ addr ∈ req.addresses.take req.numAddresses, InBuffer buffer bytes addr PAGE_SIZE
  | .vmcall (.dumpFile req) _ => InBuffer buffer bytes req.dataPtr req.bytes
  | .vmcall (.getPayload addr) _ => InBuffer buffer bytes addr payload
  | _ => True

/-- The buffer is allocated, and all its pages are locked. -/
def World.Holds (w : World) (buffer bytes : Nat) : Prop :=
  (buffer, bytes) ∈ w.live ∧ ∀ p ∈ pagesOf buffer bytes, p ∈ w.locked

/-- The callers of `malloc_resident_pages`. -/
inductive Caller
  | hgetFile (srcPath : Bytes) (flags : Nat)
  | hpushFile (srcPath dstName : Bytes) (append : Nat)
  | forkserver (allowPersistent stdinMode : Bool) (mainOrig : Nat)
    (actions : List ForkServer.Action)
  | fsFuzzer (argv : List Bytes)

namespace Caller

/-- A run, with its main loop in the case of the fork server: whether the caller
has returned, and the world it leads to. -/
def run (fuel : Nat) : Caller → World → Bool × World
  | .hgetFile srcPath flags, w =>
    let (r, v) := (KaflTargets.hgetFile fuel srcPath flags).run w
    (r.isOk, v)
  | .hpushFile srcPath dstName append, w =>
    let (r, v) := (KaflTargets.hpushFile fuel srcPath dstName append).run w
    (r.isOk, v)
  | .forkserver allowPersistent stdinMode mainOrig actions, w =>
    (false, forkserverRun fuel allowPersistent stdinMode mainOrig actions w)
  | .fsFuzzer argv, w => (false, ((FsFuzzer.main fuel argv).run w).2)

/-- The size of the buffer. -/
def bytes : Caller → Nat
  | .hgetFile .. | .hpushFile .. => PAGE_SIZE * 256
  | .forkserver .. => PAGE_SIZE * (ForkServer.PAYLOAD_MAX_SIZE / PAGE_SIZE)
  | .fsFuzzer .. => PAGE_SIZE * (FsFuzzer.PAYLOAD_MAX_SIZE / PAGE_SIZE)

/-- The system calls before `malloc_resident_pages`: those that redirect the
standard streams, and the `system` of the file-system fuzzer. -/
def callsBefore : Caller → Nat
  | .hgetFile .. | .hpushFile .. => 0
  | .forkserver _ stdinMode _ _ => if stdinMode then 5 else 7
  | .fsFuzzer .. => 1

/-- The tick at which the buffer is allocated. -/
def tick (c : Caller) (w : World) : Nat := w.tick + c.callsBefore

/-- Whether a caller that has returned has released its buffer. -/
def releases : Caller → Bool
  | .hgetFile .. | .hpushFile .. => true
  | .forkserver .. | .fsFuzzer .. => false

/-- What was done from `w` to `v` with memory was done with a buffer that was
obtained and is still there, unless it was released in the end. -/
def Handed (c : Caller) (returned : Bool) (w v : World) : Prop :=
  ∃ es, v.trace = w.trace ++ es ∧ ∀ e ∈ es, e.usesMemory = true →
    w.env.Resident (c.tick w) ∧
      e.Fits (w.env.residentPages (c.tick w)) c.bytes w.host.config.payloadBufferSize.toNat ∧
      ((returned && c.releases) = true ∨ v.Holds (w.env.residentPages (c.tick w)) c.bytes)

/-- The run comes to the point where the buffer is used. -/
def Reaches : Caller → World → Prop
  | .hgetFile srcPath _, w =>
    srcPath.length < 256 ∧ w.env.creatErr w.lookups (basename srcPath) = none ∧
      w.nyxCpuType ≠ .nyxCpuInvalid
  | .hpushFile srcPath .., w => (w.files (w.resolve srcPath)).isSome ∧ Obtained srcPath w
  | .forkserver _ stdinMode _ _, w =>
    w.host.abortReturns = true ∨
      (∀ i < if stdinMode then 5 else 7, w.env.sysErr (w.tick + i) = none) ∧
        w.host.config.Accepted ForkServer.PAYLOAD_MAX_SIZE
  | .fsFuzzer argv, w =>
    argv.length = 2 ∧ w.env.Resident (w.tick + 1) ∧ w.env.sysErr (w.tick + 3) = none ∧
      w.env.sysErr (w.tick + 4) = none ∧
      (w.host.abortReturns = true ∨ w.host.config.Accepted FsFuzzer.PAYLOAD_MAX_SIZE)

/-- The condition under which only live buffers are used. -/
def Careful (c : Caller) (w : World) : Prop :=
  c.Reaches w → w.env.Resident (c.tick w) ∧
    match c with
    | .forkserver .. | .fsFuzzer .. => w.host.config.payloadBufferSize.toNat ≤ c.bytes
    | .hgetFile .. | .hpushFile .. => True

end Caller

/-- Only live buffers reach the host in a run, and nothing is written from any
other. -/
def OnlyLive (fuel : Nat) (c : Caller) (w : World) : Prop :=
  c.Handed (c.run fuel w).1 w (c.run fuel w).2

namespace LiveLemmas

variable {c : Caller} {w v : World} {S : Event → Prop} {tick : Nat}

/-! ### Buffers -/

theorem holds_withPages (w : World) (page numPages : Nat) :
    (w.withPages page numPages).Holds (page * PAGE_SIZE) (PAGE_SIZE * numPages) :=
  ⟨List.mem_cons_self, fun _ hp => List.mem_append_left _ hp⟩

theorem Holds.frame {buffer bytes : Nat} (h : w.Holds buffer bytes) (hf : Frame S w v) :
    v.Holds buffer bytes :=
  ⟨hf.live _ h.1, fun p hp => hf.locked p (h.2 p hp)⟩

/-- A range at the start of the buffer. -/
theorem inBuffer_start {buffer bytes len : Nat} (haligned : buffer % PAGE_SIZE = 0)
    (hlen : len ≤ bytes) : InBuffer buffer bytes buffer len :=
  ⟨haligned, Nat.le_refl _, Nat.add_le_add_left hlen _⟩

/-- The pages of a buffer are distinct and lie in it. -/
theorem pages_inBuffer {buffer : Nat} (haligned : buffer % PAGE_SIZE = 0) (numPages : Nat) :
    (Mem.pages PAGE_SIZE buffer numPages).Nodup ∧
      ∀ addr ∈ Mem.pages PAGE_SIZE buffer numPages,
        InBuffer buffer (PAGE_SIZE * numPages) addr PAGE_SIZE := by
  unfold Mem.pages
  constructor
  · refine List.Nodup.map (fun i j hij => ?_) List.nodup_range
    have hmul : i * PAGE_SIZE = j * PAGE_SIZE := Nat.add_left_cancel hij
    exact Nat.eq_of_mul_eq_mul_right (by decide) hmul
  · intro addr haddr
    obtain ⟨i, hi, rfl⟩ := List.mem_map.mp haddr
    refine ⟨?_, Nat.le_add_right _ _, ?_⟩
    · rw [Nat.add_mul_mod_self_right, haligned]
    · have hlast : (i + 1) * PAGE_SIZE ≤ numPages * PAGE_SIZE :=
        Nat.mul_le_mul_right _ (List.mem_range.mp hi)
      rw [Nat.add_assoc, Nat.mul_comm PAGE_SIZE]
      refine Nat.add_le_add_left ?_ _
      rwa [Nat.add_mul, Nat.one_mul] at hlast

/-! ### Events -/

/-- Events in `S` were added. -/
def Added (S : Event → Prop) (w v : World) : Prop :=
  ∃ es, v.trace = w.trace ++ es ∧ ∀ e ∈ es, S e

/-- An event that uses no memory. -/
def Idle (e : Event) : Prop := e.usesMemory = false

theorem quiet_idle {e : Event} (h : e.quiet = true) : Idle e := by
  cases e with
  | vmcall call ret =>
    cases call with
    | dumpFile _ | reqStreamDataBulk _ | getPayload _ => cases h
    | _ => rfl
  | write _ _ _ => cases h
  | skipped _ | mount _ | virtualQuery _ | moduleEntry _ => rfl

theorem handsOver_of_idle {e : Event} (h : Idle e) : e.handsOver = false := by
  cases e with
  | write _ _ _ => cases h
  | vmcall _ _ | skipped _ | mount _ | virtualQuery _ | moduleEntry _ => exact h

theorem fits_of_kept {buffer bytes payload : Nat} {e : Event} (h : e.handsOver = false) :
    e.Fits buffer bytes payload := by
  cases e with
  | vmcall call ret =>
    cases call with
    | dumpFile _ | reqStreamDataBulk _ | getPayload _ => cases h
    | _ => trivial
  | write _ _ _ | skipped _ | mount _ | virtualQuery _ | moduleEntry _ => trivial

theorem quiet_kept (e : Event) (h : e.quiet = true) : e.handsOver = false :=
  handsOver_of_idle (quiet_idle h)

theorem quiet_fits {buffer bytes payload : Nat} (e : Event) (h : e.quiet = true) :
    e.Fits buffer bytes payload :=
  fits_of_kept (quiet_kept e h)

theorem added_same (h : v.trace = w.trace) : Added S w v := ⟨[], by simp [h], by simp⟩

theorem handed_idle {returned : Bool} (h : Added Idle w v) : c.Handed returned w v := by
  obtain ⟨es, htrace, hes⟩ := h
  refine ⟨es, htrace, fun e he huses => ?_⟩
  have hidle : e.usesMemory = false := hes e he
  rw [huses] at hidle
  cases hidle

/-- Some event used memory. -/
def Used (w v : World) : Prop := ∃ es, v.trace = w.trace ++ es ∧ ∃ e ∈ es, e.usesMemory = true

theorem Used.append {u : World} {es : List Event} (h : Used w v)
    (htrace : u.trace = v.trace ++ es) : Used w u := by
  obtain ⟨fs, hv, e, he, huses⟩ := h
  exact ⟨fs ++ es, by rw [htrace, hv, List.append_assoc], e, List.mem_append_left _ he, huses⟩

/-- Memory was used, so it was obtained. -/
theorem resident_of_used {returned : Bool} (h : c.Handed returned w v) (hused : Used w v) :
    w.env.Resident (c.tick w) := by
  obtain ⟨es, htrace, hes⟩ := h
  obtain ⟨fs, htrace', e, he, huses⟩ := hused
  have heq : es = fs := List.append_cancel_left (htrace.symm.trans htrace')
  exact (hes e (heq ▸ he) huses).1

end LiveLemmas

/-! ## 1. The library -/

/-! ### `hget_file` -/

namespace LiveLemmas

variable {w w₁ v : World} {S : Event → Prop} {srcPath dstPath : Bytes}

/-- The request `hget_file` makes up for its buffer. -/
theorem request_fits {buffer : Nat} (payload : Nat) (haligned : buffer % PAGE_SIZE = 0)
    (hlen : srcPath.length < 256) (name : Bytes) (rest : List Nat) (ret : Nat) :
    (Event.vmcall (.reqStreamDataBulk
      { fileName := overwrite name 0 (srcPath ++ [0])
        numAddresses := 256
        addresses := Mem.pages PAGE_SIZE buffer 256 ++ rest }) ret).Fits buffer
      (PAGE_SIZE * 256) payload := by
  have htake : (Mem.pages PAGE_SIZE buffer 256 ++ rest).take 256 =
      Mem.pages PAGE_SIZE buffer 256 := List.take_left' (by simp [Mem.pages])
  obtain ⟨hnodup, hin⟩ := pages_inBuffer haligned 256
  refine ⟨by show 256 ≤ 479; decide, ?_, ?_, ?_⟩
  · have hfits : (srcPath ++ [0]).length ≤ 256 := by
      rw [List.length_append]
      exact hlen
    show 0 ∈ (overwrite name 0 (srcPath ++ [0])).take 256
    rw [overwrite_zero, List.take_append, List.take_of_length_le hfits]
    simp
  · show ((Mem.pages PAGE_SIZE buffer 256 ++ rest).take 256).Nodup
    rwa [htake]
  · show ∀ addr ∈ (Mem.pages PAGE_SIZE buffer 256 ++ rest).take 256, _
    rwa [htake]

/-- A round asks with the request it finds. -/
theorem hgetRound_frame (hS : ∀ e, e.quiet = true → S e)
    (hreq : ∀ ret, S (.vmcall (.reqStreamDataBulk w₁.reqFile) ret))
    (hwrite : ∀ addr count ret, S (.write addr count ret)) (fuel fd buf size : Nat) (u : Unit) :
    Keeps (Frame S w₁) (hgetRound fuel fd buf size u) := by
  unfold hgetRound
  refine Triple.bind (Triple.gets (Q := fun req v => req = w₁.reqFile ∧ Frame S w₁ v)
    fun v hv => ⟨hv.reqFile, hv⟩) fun req => Triple.assume fun heq => ?_
  subst heq
  refine Keeps.bind (emits_hypercall hS fuel hreq w₁) fun read => Keeps.ite (Keeps.pure _) ?_
  refine Keeps.bind (emits_write (hwrite _ _) w₁) fun ret => ?_
  exact Keeps.ite (Keeps.pure _) (Keeps.ite (Keeps.pure _) (Keeps.pure _))

/-- The buffer is held as long as the loop runs. -/
theorem hgetCopy_added (hS : ∀ e, e.quiet = true → S e)
    (hreq : ∀ ret, S (.vmcall (.reqStreamDataBulk w₁.reqFile) ret))
    (hwrite : ∀ addr count ret, S (.write addr count ret)) (fuel flags buf : Nat) :
    Triple (Frame S w₁) (hgetCopy fuel dstPath flags buf CHUNK) (fun _ => Added S w₁)
      (Frame S w₁) := by
  unfold hgetCopy
  refine Triple.bind (emits_creat dstPath flags w₁) fun fd => ?_
  cases fd with
  | none => exact Triple.bind (Keeps.gets _) fun _ => Triple.pure fun _ hv => hv.trace
  | some fd =>
    have hround := hgetRound_frame hS hreq hwrite fuel fd buf CHUNK
    refine Triple.bind (Keeps.iter hround fuel ()) fun ret => ?_
    refine Triple.bind (Triple.modify (Q := fun _ => Added S w₁) fun _ hv => hv.trace) fun _ => ?_
    exact Triple.bind (Triple.modify (Q := fun _ => Added S w₁) fun _ hv => hv) fun _ =>
      Triple.pure fun _ hv => hv

/-- A round with a known CPU type uses the buffer: it asks for data, or writes
from it after a skipped request. -/
theorem hgetRound_used (fuel fd buf size : Nat) :
    Triple (fun v => v.nyxCpuType ≠ .nyxCpuInvalid ∧ v.trace = w.trace)
      (hgetRound fuel fd buf size ()) (fun _ => Used w) (Used w) := by
  have hrequest (req : ReqDataBulk) :
      Triple (fun v => v.nyxCpuType ≠ .nyxCpuInvalid ∧ v.trace = w.trace)
        (hypercall fuel (.reqStreamDataBulk req))
        (fun read v => Used w v ∨ read = 0 ∧ Added (fun _ => True) w v) (Used w) := by
    rintro v ⟨hcpu, htrace⟩
    cases ht : v.nyxCpuType with
    | nyxCpuInvalid => exact absurd ht hcpu
    | nyxCpuV1 =>
      rw [hypercall_run_v1 ht, kAFLHypercall_run (by simp)]
      obtain ⟨-, -, -, -, hsnoc⟩ := vmcall_frame (.reqStreamDataBulk req) v
      refine .inl ⟨_, hsnoc.trans (by rw [htrace]), _, List.mem_singleton_self _, rfl⟩
    | nyxCpuV2 =>
      rw [hypercall_run_skipped (.inl ht)]
      exact .inr ⟨rfl, _, by rw [htrace], by simp⟩
    | nyxCpuNone =>
      rw [hypercall_run_skipped (.inr ht)]
      exact .inr ⟨rfl, _, by rw [htrace], by simp⟩
  have hwrite (read : Nat) : Triple (fun v => Used w v ∨ read = 0 ∧ Added (fun _ => True) w v)
      (write fd buf read) (fun _ => Used w) (Used w) := by
    intro v hv
    have hadded : ∃ es, v.trace = w.trace ++ es := by
      rcases hv with ⟨es, htrace, -⟩ | ⟨-, es, htrace, -⟩ <;> exact ⟨es, htrace⟩
    obtain ⟨es, htrace⟩ := hadded
    rw [write_run]
    refine ⟨es ++ [.write buf read (v.writeCall fd buf read).1], ?_, _,
      List.mem_append_right _ (List.mem_singleton_self _), rfl⟩
    show (v.writeCall fd buf read).2.trace ++ _ = _
    rw [writeCall_trace, htrace, List.append_assoc]
  unfold hgetRound
  refine Triple.bind (Triple.gets
    (Q := fun _ v => v.nyxCpuType ≠ .nyxCpuInvalid ∧ v.trace = w.trace) fun _ hv => hv)
    fun req => ?_
  refine Triple.bind (hrequest req) fun read => Triple.ite (fun herror => ?_) fun _ => ?_
  · refine Triple.pure fun v hv => ?_
    rcases hv with hv | ⟨hzero, -⟩
    · exact hv
    · rw [hzero] at herror
      exact absurd herror (by decide)
  · refine Triple.bind (hwrite read) fun ret => ?_
    refine Triple.ite (fun _ => Triple.pure fun _ hv => hv) fun _ => ?_
    exact Triple.ite (fun _ => Triple.pure fun _ hv => hv) fun _ => Triple.pure fun _ hv => hv

/-- What follows on a use does not undo it. -/
theorem used_modify {f : World → World} (h : ∀ v, (f v).trace = v.trace) :
    Keeps (Used w) (Prog.modify f : Guest Unit) := by
  refine Keeps.modify fun v hv => ?_
  have htrace : (f v).trace = v.trace ++ [] := by rw [h, List.append_nil]
  exact hv.append htrace

theorem hgetCopy_used (flags buf : Nat) :
    Triple (fun v => v.env.creatErr v.lookups dstPath = none ∧ v.nyxCpuType ≠ .nyxCpuInvalid ∧
        v.trace = w.trace)
      (hgetCopy 1 dstPath flags buf CHUNK) (fun _ => Used w) (Used w) := by
  have hcreat : Triple (fun v => v.env.creatErr v.lookups dstPath = none ∧
        v.nyxCpuType ≠ .nyxCpuInvalid ∧ v.trace = w.trace) (creat dstPath flags)
      (fun fd v => fd.isSome ∧ v.nyxCpuType ≠ .nyxCpuInvalid ∧ v.trace = w.trace) (Used w) := by
    rintro v ⟨hcreat, hcpu, htrace⟩
    simp only [creat, hcreat]
    exact ⟨rfl, hcpu, htrace⟩
  unfold hgetCopy
  refine Triple.bind hcreat fun fd => Triple.assume fun hfd => ?_
  obtain ⟨fd, rfl⟩ := Option.isSome_iff_exists.mp hfd
  refine Triple.bind (Q := fun _ => Used w) ?_ fun ret => ?_
  · refine Triple.bind (hgetRound_used 1 fd buf CHUNK) fun r => ?_
    cases r with
    | inl u => exact Keeps.stop _
    | inr ret => exact Keeps.pure _
  · refine Keeps.bind (used_modify fun _ => rfl) fun _ => ?_
    exact Keeps.bind (used_modify fun _ => rfl) fun _ => Keeps.pure _

/-- With an unset CPU type the request is never made. -/
theorem hgetCopy_idle (fuel flags buf : Nat) (hcreat : w.env.creatErr w.lookups dstPath = none)
    (hcpu : w.nyxCpuType = .nyxCpuInvalid) :
    ((hgetCopy fuel dstPath flags buf CHUNK).run w).2.trace = w.trace := by
  obtain ⟨mode, hopen⟩ := DownloadLemmas.creat_run flags hcreat
  rw [hgetCopy, run_bind_ok hopen]
  cases fuel with
  | zero => rfl
  | succ fuel =>
    obtain ⟨w2, hw2⟩ : ∃ w2, w2 = ({ w.called with
        files := Function.update w.files (w.resolve dstPath) (some ⟨[], mode⟩) } : World).install
      ⟨w.resolve dstPath, 0⟩ := ⟨_, rfl⟩
    have hcpu2 : w2.nyxCpuType = .nyxCpuInvalid := by rw [hw2]; exact hcpu
    have hround : (hgetRound (fuel + 1) w.nextFd buf CHUNK ()).run w2 =
        (.error .timeout, w2) := by
      rw [hgetRound, run_bind_ok (run_gets _ _)]
      exact run_bind_error (hypercall_diverges hcpu2 _ _)
    rw [← hw2, run_bind_error (run_iter_stop hround), hw2]
    rfl

/-- A download that does not get to its requests emits nothing. -/
theorem hgetFile_idle (fuel flags : Nat) (h : ¬(Caller.hgetFile srcPath flags).Reaches w) :
    ((hgetFile fuel srcPath flags).run w).2.trace = w.trace := by
  by_cases hlen : srcPath.length < 256
  · cases hcreat : w.env.creatErr w.lookups (basename srcPath) with
    | some e =>
      obtain ⟨w', hrun, -, htrace⟩ := hgetFile_uncreated fuel flags hlen hcreat
      rw [hrun, htrace]
    | none =>
      have hcpu : w.nyxCpuType = .nyxCpuInvalid := by
        by_contra hcpu
        exact h ⟨hlen, hcreat, hcpu⟩
      obtain ⟨errno, mem, live, locked, releases, hrun⟩ :=
        hgetFile_asks (w := w) fuel flags hlen
      rw [hrun]
      exact hgetCopy_idle fuel flags _ hcreat hcpu
  · obtain ⟨w', hrun, -, htrace⟩ := hgetFile_long fuel flags (Nat.le_of_not_lt hlen)
    rw [hrun, htrace]

/-- A caller that uses an obtained buffer properly and releases it when it
returns. -/
theorem handed_of_triple {α : Type} {c : Caller} {x : Guest α} {w₁ : World}
    (hres : w.env.Resident (c.tick w)) (htrace : w₁.trace = w.trace)
    (hholds : w₁.Holds (w.env.residentPages (c.tick w)) c.bytes) (hreleases : c.releases = true)
    (hS : S = Event.Fits (w.env.residentPages (c.tick w)) c.bytes
      w.host.config.payloadBufferSize.toNat)
    (hx : Triple (Frame S w₁) x (fun _ => Added S w₁) (Frame S w₁)) :
    c.Handed (x.run w₁).1.isOk w (x.run w₁).2 := by
  subst hS
  have hrun := hx w₁ (Frame.refl w₁)
  cases hend : x.run w₁ with
  | mk r v =>
    rw [hend] at hrun
    cases r with
    | ok a =>
      obtain ⟨es, hes, hfits⟩ : Added _ w₁ v := hrun
      exact ⟨es, by rw [hes, htrace], fun e he _ => ⟨hres, hfits e he, .inl hreleases⟩⟩
    | error e =>
      have hframe : Frame _ w₁ v := hrun
      obtain ⟨es, hes, hfits⟩ := hframe.trace
      exact ⟨es, by rw [hes, htrace],
        fun e he _ => ⟨hres, hfits e he, .inr (Holds.frame hholds hframe)⟩⟩

end LiveLemmas

open LiveLemmas

/-- A download that gets its buffer uses it properly. -/
theorem hgetFile_live {w : World} {srcPath : Bytes} (fuel flags : Nat)
    (hlen : srcPath.length < 256) (hres : w.env.Resident w.tick) :
    OnlyLive fuel (.hgetFile srcPath flags) w := by
  obtain ⟨page, halloc, haddr⟩ := residentPages_eq hres
  have haligned : page.val * PAGE_SIZE % PAGE_SIZE = 0 := Nat.mul_mod_left _ _
  have hrun := DownloadLemmas.hgetFile_run_prepared fuel flags halloc hres.2 hlen
  have hS : Event.Fits (page.val * PAGE_SIZE) (PAGE_SIZE * 256)
        w.host.config.payloadBufferSize.toNat =
      Event.Fits (w.env.residentPages w.tick) (PAGE_SIZE * 256)
        w.host.config.payloadBufferSize.toNat := by rw [haddr]
  unfold OnlyLive Caller.run
  simp only [hrun]
  refine handed_of_triple hres rfl ?_ rfl hS ?_
  · show World.Holds _ (w.env.residentPages w.tick) (PAGE_SIZE * 256)
    rw [haddr]
    exact holds_withPages w page.val 256
  · exact hgetCopy_added quiet_fits (request_fits _ haligned hlen _ _) (fun _ _ _ => trivial) fuel
      flags _

/-- Only live buffers reach the host in every run of `hget_file` exactly if it
does not get to its requests, or gets its buffer. -/
theorem hgetFile_onlyLive_iff {w : World} {srcPath : Bytes} (flags : Nat) :
    (∀ fuel, OnlyLive fuel (.hgetFile srcPath flags) w) ↔
      (Caller.hgetFile srcPath flags).Careful w := by
  constructor
  · rintro h ⟨hlen, hcreat, hcpu⟩
    obtain ⟨errno, mem, live, locked, releases, hrun⟩ := hgetFile_asks (w := w) 1 flags hlen
    have honce := h 1
    unfold OnlyLive Caller.run at honce
    simp only [hrun] at honce
    refine ⟨resident_of_used honce ?_, trivial⟩
    exact Triple.always (hgetCopy_used flags _) ⟨hcreat, hcpu, rfl⟩
  · intro h fuel
    by_cases hreach : (Caller.hgetFile srcPath flags).Reaches w
    · exact hgetFile_live fuel flags hreach.1 (h hreach).1
    · unfold OnlyLive Caller.run
      exact handed_idle (added_same (hgetFile_idle fuel flags hreach))

/-! ### `hpush_file` -/

namespace LiveLemmas

variable {w₁ : World} {S : Event → Prop}

/-- A `read` returns no more than it was asked for. -/
theorem read_bounded (fd addr count : Nat) :
    Triple (Frame S w₁) (read fd addr count) (fun n v => n.toNat ≤ count ∧ Frame S w₁ v)
      (Frame S w₁) := by
  intro v hv
  have hnext := hv.trans ((emits_read fd addr count).run v)
  have hret : ∃ n, ((read fd addr count).run v).1 = .ok n ∧ n.toNat ≤ count := by
    simp only [read]
    cases v.fds fd with
    | none => exact ⟨_, rfl, Nat.zero_le _⟩
    | some f =>
      cases v.env.read v.tick with
      | error e => exact ⟨_, rfl, Nat.zero_le _⟩
      | chunk limit =>
        refine ⟨_, rfl, ?_⟩
        simp only [Int.toNat_natCast, readChunk, List.length_take]
        omega
  obtain ⟨n, hn, hle⟩ := hret
  rw [show (read fd addr count).run v = (.ok n, ((read fd addr count).run v).2) from
    Prod.ext hn rfl]
  exact ⟨hle, hnext⟩

/-- A round sends a part of the buffer that the `read` has filled. -/
theorem hpushRound_frame (hS : ∀ e, e.quiet = true → S e) {buf size : Nat}
    (hdump : ∀ name len append ret, len ≤ size →
      S (.vmcall (.dumpFile ⟨name, buf, len, append⟩) ret))
    (fd : Nat) (srcPath dst : Bytes) (b : UInt8 × Nat) :
    Keeps (Frame S w₁) (hpushRound fd buf size srcPath dst b) := by
  unfold hpushRound
  refine Triple.bind (read_bounded fd buf size) fun bytes => Triple.assume fun hle => ?_
  refine Keeps.bind (emits_hprintf hS _ w₁) fun _ => Keeps.ite ?_ (Keeps.ite (Keeps.pure _) ?_)
  · exact Keeps.bind (emits_habort hS _ w₁) fun _ => Keeps.pure _
  · have hcall := emits_call (S := S) fun ret => hdump dst bytes.toNat b.1 ret hle
    exact Keeps.bind (hcall w₁) fun _ => Keeps.pure _

/-- The buffer is held as long as the loop runs. -/
theorem hpushLoop_added (hS : ∀ e, e.quiet = true → S e) {buf : Nat}
    (hdump : ∀ name len append ret, len ≤ 1024 * 1024 →
      S (.vmcall (.dumpFile ⟨name, buf, len, append⟩) ret))
    (fuel fd : Nat) (srcPath dst : Bytes) (b : UInt8 × Nat) :
    Triple (Frame S w₁) (do
        let totalSent ← Prog.iter .timeout (hpushRound fd buf (1024 * 1024) srcPath dst) fuel b
        hprintf (hpushMessage srcPath dst totalSent)
        freeResidentPages buf 256
        close fd
        pure 0 : Guest Int) (fun _ => Added S w₁) (Frame S w₁) := by
  have hround (b : UInt8 × Nat) :
      Keeps (Frame S w₁) (hpushRound fd buf (1024 * 1024) srcPath dst b) :=
    hpushRound_frame hS hdump fd srcPath dst b
  refine Triple.bind (Keeps.iter hround fuel b) fun total => ?_
  refine Triple.bind (emits_hprintf hS _ w₁) fun _ => ?_
  have hfree : Triple (Frame S w₁) (freeResidentPages buf 256) (fun _ => Added S w₁)
      (Frame S w₁) := by
    refine Triple.ite (fun _ => Triple.pure fun _ hv => hv.trace) fun _ => ?_
    exact Triple.bind (Triple.modify (Q := fun _ => Added S w₁) fun _ hv => hv.trace) fun _ =>
      Triple.modify fun _ hv => hv
  refine Triple.bind hfree fun _ => ?_
  exact Triple.bind (Triple.modify (Q := fun _ => Added S w₁) fun _ hv => hv) fun _ =>
    Triple.pure fun _ hv => hv

end LiveLemmas

/-- Only live buffers reach the host in every run of `hpush_file`. -/
theorem hpushFile_onlyLive (fuel : Nat) (srcPath dst : Bytes) (append : Nat) (w : World) :
    OnlyLive fuel (.hpushFile srcPath dst append) w := by
  unfold OnlyLive Caller.run
  by_cases hget : (w.files (w.resolve srcPath)).isSome ∧ Obtained srcPath w
  · obtain ⟨hfile, hopen, hres⟩ := hget
    obtain ⟨file, hfile⟩ := Option.isSome_iff_exists.mp hfile
    obtain ⟨page, halloc, haddr⟩ := residentPages_eq hres
    have haligned : page.val * PAGE_SIZE % PAGE_SIZE = 0 := Nat.mul_mod_left _ _
    have hS : Event.Fits (page.val * PAGE_SIZE) (PAGE_SIZE * 256)
          w.host.config.payloadBufferSize.toNat =
        Event.Fits (w.env.residentPages w.tick) (PAGE_SIZE * 256)
          w.host.config.payloadBufferSize.toNat := by rw [haddr]
    simp only [hpushFile_obtained fuel dst append hfile hopen halloc hres.2]
    refine handed_of_triple hres rfl ?_ rfl hS ?_
    · show World.Holds _ (w.env.residentPages w.tick) (PAGE_SIZE * 256)
      rw [haddr]
      exact holds_withPages (w.called.install ⟨w.resolve srcPath, 0⟩) page.val 256
    · refine hpushLoop_added quiet_fits ?_ fuel w.nextFd srcPath dst _
      exact fun name len append ret hle => inBuffer_start haligned hle
  · obtain ⟨ret, w', hrun, -, -, htrace, -⟩ := hpushFile_unstarted fuel dst append hget
    simp only [hrun]
    exact handed_idle (added_same htrace)

/-! ## 2. The agents -/

namespace LiveLemmas

variable {α : Type} {c : Caller} {w v : World} {k m : Nat} {G H P ok : Prop}
  {bs : List (Nat × Nat)} {R : World → Prop}

/-- An agent that has used no memory since `w`. It has made `k` system calls, got
past what `G` stands for, and holds these buffers. -/
structure Before (w : World) (k : Nat) (G : Prop) (bs : List (Nat × Nat)) (v : World) : Prop where
  frame : Frame Idle w v
  tick : v.tick = w.tick + k
  passed : G
  held : ∀ b ∈ bs, v.Holds b.1 b.2

/-- An agent that was stopped before it used any memory, because `P` fails. -/
def Barred (w : World) (P : Prop) (v : World) : Prop := Added Idle w v ∧ ¬P

/-- The address was handed over for the payload, and nothing else was. -/
def Gave (addr : Nat) (w v : World) : Prop :=
  ∃ es ret fs, v.trace = w.trace ++ (es ++ .vmcall (.getPayload addr) ret :: fs) ∧
    (∀ e ∈ es, Idle e) ∧ ∀ e ∈ fs, e.handsOver = false

/-- What a run of an agent comes to, however it ends. -/
def Outcome (c : Caller) (w v : World) : Prop :=
  (¬c.Reaches w ∧ Added Idle w v) ∨
    (c.Reaches w ∧ Gave (w.env.residentPages (c.tick w)) w v ∧
      (w.env.Resident (c.tick w) → v.Holds (w.env.residentPages (c.tick w)) c.bytes))

theorem Barred.outcome (h : Barred w (c.Reaches w) v) : Outcome c w v := .inl ⟨h.2, h.1⟩

/-! ### Steps before the buffer is used -/

theorem Before.step {u : World} (h : Before w k G bs v) (hf : Frame Idle v u)
    (htick : u.tick = w.tick + m) : Before w m G bs u :=
  ⟨h.frame.trans hf, htick, h.passed, fun b hb => Holds.frame (h.held b hb) hf⟩

theorem Before.pass (h : Before w k G bs v) (hG : G → H) : Before w k H bs v :=
  ⟨h.frame, h.tick, hG h.passed, h.held⟩

/-- A program that ends and does nothing an agent depends on. -/
def Passes (x : Guest α) : Prop :=
  ∀ v, ∃ a u, x.run v = (.ok a, u) ∧ Frame Idle v u ∧ u.tick = v.tick

theorem Passes.triple {x : Guest α} (hx : Passes x) :
    Triple (Before w k G bs) x (fun _ => Before w k G bs) R := by
  intro v hv
  obtain ⟨a, u, hrun, hframe, htick⟩ := hx v
  rw [hrun]
  exact hv.step hframe (htick.trans hv.tick)

theorem vmcall_tick (call : Hypercall) (w : World) : (w.vmcall call).2.tick = w.tick := by
  cases call
  case reqStreamDataBulk req =>
    simp only [World.vmcall, World.react]
    split <;> rfl
  all_goals rfl

theorem passes_call {call : Hypercall} (habort : ∀ msg, call ≠ .userAbort msg)
    (hidle : ∀ ret, Idle (.vmcall call ret)) : Passes (kAFLHypercall call) := by
  intro v
  refine ⟨_, _, kAFLHypercall_run habort v, ?_, vmcall_tick call v⟩
  exact run_call call v ▸ (emits_call hidle).run v

theorem passes_hprintf (text : Bytes) : Passes (hprintf text) := by
  intro v
  refine ⟨_, _, hprintf_run text v, ?_, vmcall_tick _ v⟩
  exact (emits_hprintf (fun _ => quiet_idle) text).run v

theorem passes_getNyxCpuType : Passes getNyxCpuType := by
  intro v
  have hrun : ∃ a u, getNyxCpuType.run v = (.ok a, u) ∧ u.tick = v.tick := by
    simp only [getNyxCpuType, Prog.run_bind, Prog.run_gets]
    split
    all_goals exact ⟨_, _, rfl, rfl⟩
  obtain ⟨a, u, hrun, htick⟩ := hrun
  have hframe := emits_getNyxCpuType.run (S := Idle) v
  rw [hrun] at hframe
  exact ⟨a, u, hrun, hframe, htick⟩

theorem syscall_before :
    Triple (Before w k G bs) syscall
      (fun ret v => (ret = -1 ↔ ¬w.env.sysErr (w.tick + k) = none) ∧ Before w (k + 1) G bs v)
      R := by
  intro v hv
  have hframe := emits_syscall.run (S := Idle) v
  have henv : v.env.sysErr v.tick = w.env.sysErr (w.tick + k) := by rw [hv.frame.env, hv.tick]
  cases herr : w.env.sysErr (w.tick + k) with
  | none =>
    have hrun : syscall.run v = (.ok 0, { v with tick := v.tick + 1 }) := by
      simp [syscall, henv, herr]
    rw [hrun] at hframe ⊢
    exact ⟨by simp, hv.step hframe (by rw [hv.tick, Nat.add_assoc])⟩
  | some e =>
    have hrun : syscall.run v = (.ok (-1), { v with tick := v.tick + 1, errno := e.val }) := by
      simp [syscall, henv, herr]
    rw [hrun] at hframe ⊢
    exact ⟨by simp, hv.step hframe (by rw [hv.tick, Nat.add_assoc])⟩

/-- An abort is got past only if the host lets the guest run on. -/
theorem habort_before (msg : String) (hok : ¬ok)
    (hgo : G → w.host.abortReturns = true ∨ ok → H)
    (hP : P → w.host.abortReturns = true ∨ ok) :
    Triple (Before w k G bs) (habort msg) (fun _ => Before w k H bs) (Barred w P) := by
  intro v hv
  have hframe := (emits_habort (fun _ => quiet_idle) msg).run v
  have hrun := kAFLHypercall_abort_run (ascii msg) v
  rw [hv.frame.abortReturns] at hrun
  cases hret : w.host.abortReturns with
  | true =>
    rw [if_pos hret] at hrun
    have hend := run_bind_ok (f := fun _ => (Pure.pure () : Guest Unit)) hrun
    rw [KaflTargets.habort, hend] at hframe ⊢
    exact (hv.step hframe hv.tick).pass fun hG => hgo hG (.inl hret)
  | false =>
    rw [if_neg (by simp [hret])] at hrun
    have hend := run_bind_error (f := fun _ => (Pure.pure () : Guest Unit)) hrun
    rw [KaflTargets.habort, hend] at hframe ⊢
    refine ⟨(hv.frame.trans hframe).trace, fun hp => ?_⟩
    rcases hP hp with h | h
    · simp [hret] at h
    · exact hok h

theorem errnoFailOn_before {ret : Int} (msg : String) (hret : ret = -1 ↔ ¬ok)
    (hgo : G → w.host.abortReturns = true ∨ ok → H)
    (hP : P → w.host.abortReturns = true ∨ ok) :
    Triple (Before w k G bs) (ForkServer.errnoFailOn (ret = -1) msg) (fun _ => Before w k H bs)
      (Barred w P) := by
  unfold ForkServer.errnoFailOn
  refine Triple.ite (fun hfail => ?_) fun hpass => Triple.pure fun v hv => ?_
  · have hok : ¬ok := hret.mp (of_decide_eq_true hfail)
    refine Triple.bind (Triple.gets (Q := fun _ => Before w k G bs) fun _ hv => hv) fun text => ?_
    exact Triple.bind (passes_hprintf _).triple fun _ => habort_before msg hok hgo hP
  · have hok : ok := by
      by_contra hok
      exact hpass (decide_eq_true (hret.mpr hok))
    exact hv.pass fun hG => hgo hG (.inr hok)

theorem checkErrno_before {x : Bool} (msg : String) (hx : x = true ↔ ok) (hgo : G → ok → H)
    (hP : P → ok) :
    Triple (Before w k G bs) (FsFuzzer.checkErrno x msg) (fun _ => Before w k H bs)
      (Barred w P) := by
  unfold FsFuzzer.checkErrno
  refine Triple.ite (fun hpass => Triple.pure fun v hv => hv.pass fun hG => hgo hG (hx.mp hpass))
    fun hfail => ?_
  have hbar : ¬P := fun hp => hfail (hx.mpr (hP hp))
  refine Triple.bind (habort_before msg not_false (fun hG _ => hG) fun hp => absurd hp hbar)
    fun _ => ?_
  exact Triple.stop fun v hv => ⟨hv.frame.trace, hbar⟩

/-! ### The handshakes -/

/-- A check of the reply that fails is got past only if the host lets the guest
run on. -/
theorem reject_before (text : Bytes) (msg : String) (ret : Int) (hok : ¬ok)
    (hgo : G → w.host.abortReturns = true ∨ ok → H)
    (hP : P → w.host.abortReturns = true ∨ ok) :
    Triple (Before w k G bs) (do hprintf text; habort msg; pure ret)
      (fun _ => Before w k H bs) (Barred w P) := by
  refine Triple.bind (passes_hprintf text).triple fun _ => ?_
  exact Triple.bind (habort_before msg hok hgo hP) fun _ => Triple.pure fun _ hv => hv

theorem linuxCheckConfig_before {next : Guest Int}
    (hgo : G → w.host.abortReturns = true ∨ w.host.config.Accepted m → H)
    (hP : P → w.host.abortReturns = true ∨ w.host.config.Accepted m)
    (hnext : Triple (Before w k H bs) next (fun _ => Before w k H bs) (Barred w P)) :
    Triple (Before w k G bs) (linuxCheckConfig m w.host.config next)
      (fun _ => Before w k H bs) (Barred w P) := by
  unfold linuxCheckConfig
  refine Triple.ite (fun hmagic => ?_) fun hmagic => ?_
  · exact reject_before _ _ _ (fun h => hmagic h.1) hgo hP
  refine Triple.ite (fun hversion => ?_) fun hversion => ?_
  · exact reject_before _ _ _ (fun h => hversion h.2.1) hgo hP
  refine Triple.ite (fun hsize => ?_) fun hsize => ?_
  · exact reject_before _ _ _ (fun h => Nat.not_lt.mpr h.2.2 hsize) hgo hP
  · have haccepted : w.host.config.Accepted m :=
      ⟨not_not.mp hmagic, not_not.mp hversion, Nat.not_lt.mp hsize⟩
    exact hnext.weaken (fun _ hv => hv.pass fun hG => hgo hG (.inr haccepted)) (fun _ _ h => h)
      fun _ h => h

/-- `GET_HOST_CONFIG`, and the variable it fills. -/
theorem getHostConfig_before {k' : HostConfig → Guest α} {Q : α → World → Prop}
    (hk : Triple (Before w k G bs) (k' w.host.config) Q R) :
    Triple (Before w k G bs)
      (do
        let _ ← kAFLHypercall .getHostConfig
        let reply ← Prog.gets (·.hostConfig)
        k' reply) Q R := by
  have hasked : Triple (Before w k G bs) (kAFLHypercall .getHostConfig)
      (fun _ v => v.hostConfig = w.host.config ∧ Before w k G bs v) R := by
    intro v hv
    have hemits : Emits Idle (kAFLHypercall .getHostConfig) := emits_call fun _ => rfl
    have hframe := hemits.run v
    exact ⟨hv.frame.config, hv.step hframe hv.tick⟩
  refine Triple.bind hasked fun _ => Triple.bind (Triple.gets
    (Q := fun reply v => reply = w.host.config ∧ Before w k G bs v) fun v hv => hv) fun reply => ?_
  exact Triple.assume fun hreply => hreply ▸ hk

theorem forkserver_agentInit_before (allowPersistent : Bool)
    (hgo : G → w.host.abortReturns = true ∨ w.host.config.Accepted ForkServer.PAYLOAD_MAX_SIZE → H)
    (hP : P → w.host.abortReturns = true ∨ w.host.config.Accepted ForkServer.PAYLOAD_MAX_SIZE) :
    Triple (Before w k G bs) (ForkServer.agentInit allowPersistent)
      (fun _ => Before w k H bs) (Barred w P) := by
  have hzero : Passes (Prog.modify fun w => { w with hostConfig := HostConfig.zero }) :=
    fun v => ⟨(), _, rfl, Frame.silent rfl rfl rfl rfl rfl rfl rfl, rfl⟩
  unfold ForkServer.agentInit
  refine Triple.bind hzero.triple fun _ => Triple.bind passes_getNyxCpuType.triple fun _ => ?_
  refine getHostConfig_before (linuxCheckConfig_before hgo hP ?_)
  refine Triple.bind (passes_call (by simp) fun _ => by rfl).triple fun _ => ?_
  refine Triple.bind (passes_call (by simp) fun _ => by rfl).triple fun _ => ?_
  refine Triple.bind (passes_call (by simp) fun _ => by rfl).triple fun _ => ?_
  exact Triple.pure fun _ hv => hv

theorem fsFuzzer_agentInit_before
    (hgo : G → w.host.abortReturns = true ∨ w.host.config.Accepted FsFuzzer.PAYLOAD_MAX_SIZE → H)
    (hP : P → w.host.abortReturns = true ∨ w.host.config.Accepted FsFuzzer.PAYLOAD_MAX_SIZE) :
    Triple (Before w k G bs) FsFuzzer.agentInit (fun _ => Before w k H bs) (Barred w P) := by
  unfold FsFuzzer.agentInit
  refine Triple.bind (passes_call (by simp) fun _ => by rfl).triple fun _ => ?_
  refine Triple.bind (passes_call (by simp) fun _ => by rfl).triple fun _ => ?_
  refine getHostConfig_before (linuxCheckConfig_before hgo hP ?_)
  refine Triple.bind (passes_call (by simp) fun _ => by rfl).triple fun _ => ?_
  exact Triple.pure fun _ hv => hv

/-! ### The redirections of the fork server -/

/-- The first `k` system calls from `w` on succeed. -/
def NoErr (w : World) (k : Nat) : Prop := ∀ i < k, w.env.sysErr (w.tick + i) = none

theorem NoErr.succ (h : NoErr w k) (hk : w.env.sysErr (w.tick + k) = none) : NoErr w (k + 1) := by
  intro i hi
  rcases Nat.lt_succ_iff_lt_or_eq.mp hi with hlt | rfl
  · exact h i hlt
  · exact hk

theorem dupNull_before :
    Triple (Before w k G bs) ForkServer.dupNull
      (fun ret v => (ret = -1 ↔ ¬(w.env.sysErr (w.tick + k) = none ∧
        w.env.sysErr (w.tick + (k + 1)) = none)) ∧ Before w (k + 2) G bs v) R := by
  unfold ForkServer.dupNull
  refine Triple.bind syscall_before fun fd => Triple.assume fun hfd => ?_
  refine Triple.bind syscall_before fun ret => Triple.assume fun hret => ?_
  refine Triple.pure fun v hv => ⟨?_, hv⟩
  split
  · next h => simp [hfd.mp h]
  · next h =>
    have hok : w.env.sysErr (w.tick + k) = none := by
      by_contra hok
      exact h (hfd.mpr hok)
    simp [hret, hok]

/-- The run goes on behind `k` system calls. -/
def Goes (w : World) (k : Nat) : Prop := w.host.abortReturns = true ∨ NoErr w k

/-- The check of a redirection. -/
theorem dupCheck_before {n : Nat} {ret : Int} (msg : String)
    (hret : ret = -1 ↔ ¬(w.env.sysErr (w.tick + k) = none ∧
      w.env.sysErr (w.tick + (k + 1)) = none)) (hn : k + 2 ≤ n) (hP : P → Goes w n) :
    Triple (Before w (k + 2) (Goes w k) bs) (ForkServer.errnoFailOn (ret = -1) msg)
      (fun _ => Before w (k + 2) (Goes w (k + 2)) bs) (Barred w P) := by
  refine errnoFailOn_before msg hret ?_ fun hp => ?_
  · rintro (h | h) (h' | ⟨h1, h2⟩)
    · exact .inl h
    · exact .inl h
    · exact .inl h'
    · exact .inr ((h.succ h1).succ h2)
  · rcases hP hp with h | h
    · exact .inl h
    · exact .inr ⟨h k (Nat.lt_of_lt_of_le (by simp) hn), h (k + 1) hn⟩

theorem redirect_before (stdinMode : Bool) (hP : P → Goes w (if stdinMode then 5 else 7)) :
    Triple (Before w 0 True bs) (ForkServer.redirect stdinMode)
      (fun _ => Before w (if stdinMode then 5 else 7) (Goes w (if stdinMode then 5 else 7)) bs)
      (Barred w P) := by
  have hfirst : P → w.host.abortReturns = true ∨ w.env.sysErr (w.tick + 0) = none := by
    intro hp
    rcases hP hp with h | h
    · exact .inl h
    · exact .inr (h 0 (by split <;> decide))
  unfold ForkServer.redirect
  refine Triple.bind syscall_before fun ret => Triple.assume fun hret => ?_
  refine Triple.bind (errnoFailOn_before (H := Goes w 1) _ hret ?_ hfirst) fun _ => ?_
  · rintro - (h | h)
    · exact .inl h
    · exact .inr (NoErr.succ (fun i hi => absurd hi (Nat.not_lt_zero i)) h)
  refine Triple.bind dupNull_before fun ret => Triple.assume fun hret => ?_
  refine Triple.bind (dupCheck_before _ hret (by split <;> decide) hP) fun _ => ?_
  refine Triple.bind dupNull_before fun ret => Triple.assume fun hret => ?_
  refine Triple.bind (dupCheck_before _ hret (by split <;> decide) hP) fun _ => ?_
  cases stdinMode with
  | true => exact Triple.pure fun _ hv => hv
  | false =>
    refine Triple.bind dupNull_before fun ret => Triple.assume fun hret => ?_
    exact dupCheck_before _ hret (Nat.le_refl 7) hP

/-! ### The buffer -/

/-- The buffer is held if it was obtained. -/
theorem malloc_before {numPages : Nat} (hpages : numPages < 2 ^ 52) :
    Triple (Before w k G []) (mallocResidentPages numPages)
      (fun addr v => addr = w.env.residentPages (w.tick + k) ∧ Added Idle w v ∧ G ∧
        (w.env.Resident (w.tick + k) →
          Before w (k + 2) G [(addr, PAGE_SIZE * numPages)] v)) R := by
  intro v hv
  have henv : v.env.residentPages v.tick = w.env.residentPages (w.tick + k) := by
    rw [hv.frame.env, hv.tick]
  by_cases hres : w.env.Resident (w.tick + k)
  · have hres' : v.env.Resident v.tick := by rwa [hv.frame.env, hv.tick]
    obtain ⟨page, halloc, haddr⟩ := residentPages_eq hres'
    rw [mallocResidentPages_run hpages halloc hres'.2]
    have hframe : Frame Idle v (v.withPages page.val numPages) :=
      ⟨rfl, rfl, rfl, rfl, fun _ hb => List.mem_cons_of_mem _ hb,
        fun _ hp => List.mem_append_right _ hp, [], by simp [World.withPages], by simp⟩
    have hnext := hv.step hframe (m := k + 2) (by
      show v.tick + 2 = _
      rw [hv.tick, Nat.add_assoc])
    refine ⟨haddr.symm.trans henv, hnext.frame.trace, hv.passed, fun _ => ?_⟩
    refine ⟨hnext.frame, hnext.tick, hnext.passed, fun b hb => ?_⟩
    obtain rfl := List.mem_singleton.mp hb
    exact holds_withPages v page.val numPages
  · obtain ⟨errno, mem, live, locked, releases, hrun⟩ := mallocResidentPages_total v numPages
    rw [hrun]
    exact ⟨henv, hv.frame.trace, hv.passed, fun h => absurd h hres⟩

/-- `GET_PAYLOAD`, and a rest that hands over nothing more. -/
theorem gave_rest {addr : Nat} {rest : Guest Unit} (haddr : addr = w.env.residentPages (c.tick w))
    (hreach : c.Reaches w) (hrest : Emits (fun e => e.handsOver = false) rest) :
    Triple (fun v => Added Idle w v ∧ (w.env.Resident (c.tick w) → v.Holds addr c.bytes))
      (do
        let _ ← kAFLHypercall (.getPayload addr)
        rest)
      (fun _ => Outcome c w) (Outcome c w) := by
  refine Triple.of_always fun v ⟨⟨es, hes, hidle⟩, hheld⟩ => ?_
  obtain ⟨u, hu⟩ : ∃ u, u = (v.vmcall (.getPayload addr)).2 := ⟨_, rfl⟩
  have hcall : (kAFLHypercall (.getPayload addr)).run v =
      (.ok (v.vmcall (.getPayload addr)).1, u) := by
    rw [kAFLHypercall_run (by simp), hu]
  have hframe := hrest.run u
  obtain ⟨fs, hfs, hkept⟩ := hframe.trace
  obtain ⟨-, -, -, hlive, hsnoc⟩ := vmcall_frame (.getPayload addr) v
  have hlocked := (vmcall_memory (.getPayload addr) v).2
  have htrace : (rest.run u).2.trace = w.trace ++
      (es ++ .vmcall (.getPayload addr) (v.vmcall (.getPayload addr)).1 :: fs) := by
    rw [hfs, hu, hsnoc, hes]
    simp
  rw [run_bind_ok hcall]
  subst haddr
  refine .inr ⟨hreach, ⟨es, _, fs, htrace, hidle, hkept⟩, fun hres => ?_⟩
  obtain ⟨hmem, hpages⟩ := hheld hres
  refine Holds.frame ⟨?_, fun p hp => ?_⟩ hframe
  · rw [hu, hlive]
    exact hmem
  · rw [hu, hlocked]
    exact hpages p hp

end LiveLemmas

/-- The fork server up to its main loop. -/
theorem forkserver_start (fuel : Nat) (allowPersistent stdinMode : Bool) (mainOrig : Nat)
    (actions : List ForkServer.Action) (w : World) :
    Outcome (.forkserver allowPersistent stdinMode mainOrig actions) w
      ((ForkServer.forkserver fuel allowPersistent stdinMode mainOrig).run w).2 := by
  obtain ⟨c, hc⟩ : ∃ c, c = Caller.forkserver allowPersistent stdinMode mainOrig actions :=
    ⟨_, rfl⟩
  have hreach : c.Reaches w ↔ w.host.abortReturns = true ∨
      NoErr w (if stdinMode then 5 else 7) ∧
        w.host.config.Accepted ForkServer.PAYLOAD_MAX_SIZE := by
    rw [hc]
    rfl
  have hredirect : c.Reaches w → Goes w (if stdinMode then 5 else 7) := fun h =>
    (hreach.mp h).imp id And.left
  have haccepted : c.Reaches w →
      w.host.abortReturns = true ∨ w.host.config.Accepted ForkServer.PAYLOAD_MAX_SIZE := fun h =>
    (hreach.mp h).imp id And.right
  have hgo : Goes w (if stdinMode then 5 else 7) →
      w.host.abortReturns = true ∨ w.host.config.Accepted ForkServer.PAYLOAD_MAX_SIZE →
      c.Reaches w := by
    rintro (h | h) (h' | h')
    · exact hreach.mpr (.inl h)
    · exact hreach.mpr (.inl h)
    · exact hreach.mpr (.inl h')
    · exact hreach.mpr (.inr ⟨h, h'⟩)
  rw [← hc]
  refine Triple.always (P := Before w 0 True []) ?_ ⟨Frame.refl w, rfl, trivial, by simp⟩
  unfold ForkServer.forkserver
  refine Triple.bind ((redirect_before stdinMode hredirect).weaken (fun _ h => h)
    (fun _ _ h => h) fun _ h => h.outcome) fun _ => ?_
  refine Triple.bind ((forkserver_agentInit_before allowPersistent hgo haccepted).weaken
    (fun _ h => h) (fun _ _ h => h) fun _ h => h.outcome) fun _ => ?_
  refine Triple.bind (malloc_before (by decide)) fun addr => ?_
  refine Triple.assume fun haddr => ?_
  have htick : c.tick w = w.tick + if stdinMode then 5 else 7 := by rw [hc]; rfl
  rw [← htick] at haddr ⊢
  intro v ⟨hadded, hreached, hheld⟩
  refine gave_rest haddr hreached ?_ v ⟨hadded, fun hres => ?_⟩
  · refine Emits.bind (emits_call fun _ => by rfl) fun _ => ?_
    refine Emits.bind (emits_detectranges quiet_kept _ _ _) fun ret => ?_
    exact Emits.when (emits_habort quiet_kept _) fun _ => emits_hprintf quiet_kept _
  · rw [hc]
    exact (hheld hres).held _ (List.mem_singleton_self _)

/-- Events that use no memory do not change what a run has come to. -/
theorem Outcome.append {c : Caller} {w v : World} {gs : List Event} (h : Outcome c w v)
    (hgs : ∀ e ∈ gs, Idle e) : Outcome c w { v with trace := v.trace ++ gs } := by
  rcases h with ⟨hnot, es, htrace, hidle⟩ | ⟨hreach, ⟨es, ret, fs, htrace, hidle, hkept⟩, hheld⟩
  · refine .inl ⟨hnot, es ++ gs, ?_, List.forall_mem_append.mpr ⟨hidle, hgs⟩⟩
    rw [htrace, List.append_assoc]
  · have hgs' : ∀ e ∈ gs, e.handsOver = false := fun e he => handsOver_of_idle (hgs e he)
    refine .inr ⟨hreach, ⟨es, ret, fs ++ gs, ?_, hidle, ?_⟩, hheld⟩
    · simp [htrace]
    · exact List.forall_mem_append.mpr ⟨hkept, hgs'⟩

/-- A run of the fork server. Its main loop hands over no memory. -/
theorem forkserver_outcome (fuel : Nat) (allowPersistent stdinMode : Bool) (mainOrig : Nat)
    (actions : List ForkServer.Action) (w : World) :
    Outcome (.forkserver allowPersistent stdinMode mainOrig actions) w
      (forkserverRun fuel allowPersistent stdinMode mainOrig actions w) := by
  have hstart := forkserver_start fuel allowPersistent stdinMode mainOrig actions w
  unfold forkserverRun
  cases hrun : (ForkServer.forkserver fuel allowPersistent stdinMode mainOrig).run w with
  | mk r v =>
    rw [hrun] at hstart
    cases r with
    | error e => exact hstart
    | ok u =>
      simp only
      split
      · exact hstart
      · next h _ hloop =>
        refine Outcome.append hstart fun e he => ?_
        obtain ⟨event, hevent, hentry⟩ := List.mem_flatMap.mp he
        cases event with
        | call call =>
          obtain rfl := List.mem_singleton.mp hentry
          rcases history_calls hloop hevent with rfl | rfl | rfl | rfl | ⟨b, rfl⟩ | ⟨msg, rfl⟩
          all_goals rfl
        | payload | sees _ => cases hentry

/-- The rest of the file-system fuzzer writes from its buffer, but hands over
nothing more. -/
theorem emits_fuzzRound (pbuf backingfile : Nat) (u : Unit) :
    Emits (fun e => e.handsOver = false) (FsFuzzer.fuzzRound pbuf backingfile u) := by
  unfold FsFuzzer.fuzzRound
  refine Emits.bind (emits_fuzzPayload quiet_kept _ _ fun _ _ _ => rfl) fun _ => ?_
  refine Emits.bind (emits_call fun _ => by rfl) fun _ => ?_
  refine Emits.bind (emits_call fun _ => by rfl) fun _ => ?_
  exact Emits.bind (emits_call fun _ => by rfl) fun _ => Emits.pure _

/-- From the handshake on: the buffer is handed over if the handshake is got
past. -/
theorem fuzzDevice_outcome {c : Caller} {w : World} {k : Nat} {G : Prop} {addr : Nat} (fuel : Nat)
    (haddr : addr = w.env.residentPages (c.tick w))
    (hgo : G → w.host.abortReturns = true ∨ w.host.config.Accepted FsFuzzer.PAYLOAD_MAX_SIZE →
      c.Reaches w)
    (hP : c.Reaches w →
      w.host.abortReturns = true ∨ w.host.config.Accepted FsFuzzer.PAYLOAD_MAX_SIZE) :
    Triple (Before w k G [(addr, c.bytes)]) (FsFuzzer.fuzzDevice fuel addr)
      (fun _ => Outcome c w) (Outcome c w) := by
  unfold FsFuzzer.fuzzDevice
  refine Triple.bind ((fsFuzzer_agentInit_before hgo hP).weaken (fun _ h => h) (fun _ _ h => h)
    fun _ h => h.outcome) fun _ => ?_
  intro v hv
  refine gave_rest haddr hv.passed ?_ v
    ⟨hv.frame.trace, fun _ => hv.held _ (List.mem_singleton_self _)⟩
  refine Emits.bind emits_syscall fun _ => Emits.bind (emits_checkErrno quiet_kept _ _) fun _ => ?_
  refine Emits.bind (emits_openCreate _ _) fun fd => ?_
  cases fd with
  | none => exact emits_checkErrno quiet_kept _ _
  | some backingfile =>
    refine Emits.bind emits_syscall fun _ => ?_
    refine Emits.bind (emits_checkErrno quiet_kept _ _) fun _ => ?_
    refine Emits.bind (Emits.modify fun w => ?_) fun _ => ?_
    · exact Frame.silent rfl rfl rfl rfl rfl rfl rfl
    · exact Emits.iter (emits_fuzzRound addr backingfile) fuel ()

/-- A run of the file-system fuzzer. -/
theorem fsFuzzer_outcome (fuel : Nat) (argv : List Bytes) (w : World) :
    Outcome (.fsFuzzer argv) w ((FsFuzzer.main fuel argv).run w).2 := by
  obtain ⟨c, hc⟩ : ∃ c, c = Caller.fsFuzzer argv := ⟨_, rfl⟩
  have hreach : c.Reaches w ↔ argv.length = 2 ∧ w.env.Resident (w.tick + 1) ∧
      w.env.sysErr (w.tick + 3) = none ∧ w.env.sysErr (w.tick + 4) = none ∧
      (w.host.abortReturns = true ∨ w.host.config.Accepted FsFuzzer.PAYLOAD_MAX_SIZE) := by
    rw [hc]
    rfl
  have hnot {k : Nat} {ret : Int} (h : ret = -1 ↔ ¬w.env.sysErr (w.tick + k) = none) :
      decide (ret ≠ -1) = true ↔ w.env.sysErr (w.tick + k) = none := by
    rw [decide_eq_true_eq, ne_eq, h, not_not]
  rw [← hc]
  refine Triple.always (P := Before w 0 True []) ?_ ⟨Frame.refl w, rfl, trivial, by simp⟩
  unfold FsFuzzer.main
  refine Triple.ite (fun hargs => ?_) fun hargs => ?_
  · have hbar : ¬c.Reaches w := fun h => hargs (hreach.mp h).1
    refine Triple.bind (passes_hprintf _).triple fun _ => ?_
    refine Triple.bind (Triple.stop fun v hv => ?_) fun _ => Triple.absurd
    exact Barred.outcome ⟨hv.frame.trace, hbar⟩
  refine Triple.bind syscall_before fun _ => Triple.assume fun _ => ?_
  refine Triple.bind (malloc_before (by decide)) fun addr => Triple.assume fun haddr => ?_
  rcases Classical.em (w.env.Resident (w.tick + 1)) with hres | hres
  · have hne : addr ≠ 0 := by
      rw [haddr]
      exact residentPages_pos hres
    refine Triple.when (fun h => absurd h hne)
      (fun _ v hv => show Before w 3 True [(addr, c.bytes)] v from ?_) fun _ => ?_
    · rw [hc]
      exact hv.2.2 hres
    refine Triple.bind syscall_before fun loopctlfd => Triple.assume fun hloopctl => ?_
    refine Triple.bind ((checkErrno_before (H := w.env.sysErr (w.tick + 3) = none) _
      (hnot hloopctl) (fun _ h => h) fun h => (hreach.mp h).2.2.1).weaken (fun _ h => h)
      (fun _ _ h => h) fun _ h => h.outcome) fun _ => ?_
    refine Triple.bind syscall_before fun devnr => Triple.assume fun hdevnr => ?_
    refine Triple.bind ((checkErrno_before (H := w.env.sysErr (w.tick + 3) = none ∧
      w.env.sysErr (w.tick + 4) = none) _ (hnot hdevnr) And.intro
      fun h => (hreach.mp h).2.2.2.1).weaken (fun _ h => h) (fun _ _ h => h)
      fun _ h => h.outcome) fun _ => ?_
    refine fuzzDevice_outcome fuel (haddr.trans (by rw [hc]; rfl)) (fun hG h => ?_)
      fun h => (hreach.mp h).2.2.2.2
    exact hreach.mpr ⟨not_not.mp hargs, hres, hG.1, hG.2, h⟩
  · have hzero : addr = 0 := by
      rw [haddr]
      exact residentPages_zero hres
    have hbar : ¬c.Reaches w := fun h => hres (hreach.mp h).2.1
    refine Triple.ite (fun _ => ?_) fun hne => absurd hzero hne
    refine Triple.bind (Triple.stop fun v hv => ?_) fun _ => Triple.absurd
    exact Barred.outcome ⟨hv.1, hbar⟩

/-! ## 3. All callers -/

namespace LiveLemmas

/-- An agent uses a live buffer only, exactly if it stops before it uses any or
hands over an obtained buffer that has room for the payload. -/
theorem handed_iff_of_outcome {c : Caller} {w v : World} {returned : Bool} (h : Outcome c w v) :
    c.Handed returned w v ↔ (c.Reaches w → w.env.Resident (c.tick w) ∧
      w.host.config.payloadBufferSize.toNat ≤ c.bytes) := by
  rcases h with ⟨hnot, hidle⟩ | ⟨hreach, ⟨es, ret, fs, htrace, hidle, hkept⟩, hheld⟩
  · exact ⟨fun _ h => absurd h hnot, fun _ => handed_idle hidle⟩
  · constructor
    · rintro ⟨gs, htrace', hgs⟩ -
      have heq : gs = es ++ .vmcall (.getPayload (w.env.residentPages (c.tick w))) ret :: fs :=
        List.append_cancel_left (htrace'.symm.trans htrace)
      have hmem : .vmcall (.getPayload (w.env.residentPages (c.tick w))) ret ∈ gs := by
        simp [heq]
      obtain ⟨hres, hfits, -⟩ := hgs _ hmem rfl
      exact ⟨hres, Nat.le_of_add_le_add_left hfits.upper⟩
    · intro hcareful
      obtain ⟨hres, hsize⟩ := hcareful hreach
      refine ⟨_, htrace, fun e he _ => ⟨hres, ?_, .inr (hheld hres)⟩⟩
      rcases List.mem_append.mp he with he | he
      · exact fits_of_kept (handsOver_of_idle (hidle e he))
      · rcases List.mem_cons.mp he with rfl | he
        · exact inBuffer_start (residentPages_aligned _ _) hsize
        · exact fits_of_kept (hkept e he)

end LiveLemmas

/-- Only live buffers reach the host in every run of a caller, exactly if it
does not reach the point where it uses its buffer, or has obtained it, and a
buffer for payloads has room for the largest one. -/
theorem onlyLive_iff (c : Caller) (w : World) : (∀ fuel, OnlyLive fuel c w) ↔ c.Careful w := by
  cases c with
  | hgetFile srcPath flags => exact hgetFile_onlyLive_iff flags
  | hpushFile srcPath dstName append =>
    exact ⟨fun _ h => ⟨h.2.2, trivial⟩, fun _ fuel => hpushFile_onlyLive fuel _ _ _ w⟩
  | forkserver allowPersistent stdinMode mainOrig actions =>
    have hiff (fuel : Nat) :
        OnlyLive fuel (.forkserver allowPersistent stdinMode mainOrig actions) w ↔
          (Caller.forkserver allowPersistent stdinMode mainOrig actions).Careful w :=
      handed_iff_of_outcome
        (forkserver_outcome fuel allowPersistent stdinMode mainOrig actions w)
    exact ⟨fun h => (hiff 0).mp (h 0), fun h fuel => (hiff fuel).mpr h⟩
  | fsFuzzer argv =>
    have hiff (fuel : Nat) : OnlyLive fuel (.fsFuzzer argv) w ↔ (Caller.fsFuzzer argv).Careful w :=
      handed_iff_of_outcome (fsFuzzer_outcome fuel argv w)
    exact ⟨fun h => (hiff 0).mp (h 0), fun h fuel => (hiff fuel).mpr h⟩

/-- A process on a Nyx CPU whose memory cannot be locked. -/
def unlockedWorld : World :=
  { freshNyxWorld with env := { Env.plain with mlock := fun _ => some ⟨12, by decide⟩ } }

/-- A download there asks for data at addresses from 0 on, and the fork server
hands over the null pointer. -/
theorem null_reaches_host :
    ¬OnlyLive 1 (.hgetFile (ascii "foo") 0o664) unlockedWorld ∧
      ¬OnlyLive 1 (.forkserver true true 0 [])
        { unlockedWorld with host.config := suitedWorld.host.config } := by
  have hnot {c : Caller} {returned : Bool} {w v : World} (hlock : w.env.mlock (c.tick w + 1) ≠ none)
      (htrace : w.trace = []) (hused : v.trace.any Event.usesMemory = true) :
      ¬c.Handed returned w v := by
    rintro ⟨es, hes, hall⟩
    obtain ⟨e, he, huses⟩ := List.any_eq_true.mp hused
    rw [htrace, List.nil_append] at hes
    exact hlock (hall e (hes ▸ he) huses).1.2
  exact ⟨hnot (by simp [unlockedWorld]) rfl (by decide +kernel),
    hnot (by simp [unlockedWorld]) rfl (by decide +kernel)⟩

end KaflTargets
