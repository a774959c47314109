import KaflTargets.ForkServer
import KaflTargets.FsFuzzer

/-!
# What a program emits

Most of what an agent does adds events of a few kinds to the trace and leaves
alone what other parts rely on: the environment, the settings of the host, the
request of `hget_file`, and the memory that is allocated and locked. `Emits S x`
says so of a program `x` for a set `S` of events. A claim about the events of a
run picks its own `S`.

Results:
1. `Emits.bind`, `Emits.iter`, ..: the property is closed under the ways to
   build programs.
2. `emits_call`, `emits_write`, ..: a call emits its own event, and the other
   system calls emit none.
3. `emits_detectranges`, `emits_fuzzImage`, ..: the functions of the agents.
-/

namespace KaflTargets

open CString Prog

/-! ## Definitions -/

/-- What may happen from `w₀` on: events in `S` only, no other environment or
host, the same request, and no memory is released. -/
structure Frame (S : Event → Prop) (w₀ w : World) : Prop where
  env : w.env = w₀.env
  config : w.host.config = w₀.host.config
  abortReturns : w.host.abortReturns = w₀.host.abortReturns
  reqFile : w.reqFile = w₀.reqFile
  live : ∀ b ∈ w₀.live, b ∈ w.live
  locked : ∀ p ∈ w₀.locked, p ∈ w.locked
  trace : ∃ es, w.trace = w₀.trace ++ es ∧ ∀ e ∈ es, S e

/-- A program that emits events in `S` only and releases no memory. -/
def Emits (S : Event → Prop) {α : Type} (x : Guest α) : Prop := ∀ w₀, Keeps (Frame S w₀) x

/-- The calls that pass text and numbers only and need no handshake. -/
def Hypercall.quiet : Hypercall → Bool
  | .getPayload _ | .nextPayload | .userFastAcquire | .setAgentConfig _ => false
  | .dumpFile _ | .reqStreamDataBulk _ | .other .. => false
  | _ => true

/-- The events of quiet calls, of skipped ones, and those that pass no memory. -/
def Event.quiet : Event → Bool
  | .vmcall call _ => call.quiet
  | .skipped _ | .mount _ | .virtualQuery _ | .moduleEntry _ => true
  | .write .. => false

/-! ## 1. Rules -/

section Rules

variable {α β : Type} {S S' : Event → Prop} {w₀ w v : World} {x y : Guest α}

theorem Frame.refl (w : World) : Frame S w w :=
  ⟨rfl, rfl, rfl, rfl, fun _ hb => hb, fun _ hp => hp, [], by simp, by simp⟩

theorem Frame.trans (h : Frame S w₀ w) (h' : Frame S w v) : Frame S w₀ v := by
  obtain ⟨es, htrace, hes⟩ := h.trace
  obtain ⟨fs, htrace', hfs⟩ := h'.trace
  refine ⟨h'.env.trans h.env, h'.config.trans h.config, h'.abortReturns.trans h.abortReturns,
    h'.reqFile.trans h.reqFile, fun b hb => h'.live b (h.live b hb),
    fun p hp => h'.locked p (h.locked p hp), es ++ fs, ?_, ?_⟩
  · rw [htrace', htrace, List.append_assoc]
  · exact List.forall_mem_append.mpr ⟨hes, hfs⟩

/-- A step that adds one event. -/
theorem Frame.snoc {e : Event} (he : S e) (henv : v.env = w.env)
    (hconfig : v.host.config = w.host.config) (habort : v.host.abortReturns = w.host.abortReturns)
    (hreq : v.reqFile = w.reqFile) (hlive : v.live = w.live) (hlocked : v.locked = w.locked)
    (htrace : v.trace = w.trace ++ [e]) : Frame S w v :=
  ⟨henv, hconfig, habort, hreq, fun b hb => hlive ▸ hb, fun p hp => hlocked ▸ hp, [e], htrace,
    by simpa using he⟩

/-- A step that is not in the trace. -/
theorem Frame.silent (henv : v.env = w.env) (hconfig : v.host.config = w.host.config)
    (habort : v.host.abortReturns = w.host.abortReturns) (hreq : v.reqFile = w.reqFile)
    (hlive : v.live = w.live) (hlocked : v.locked = w.locked) (htrace : v.trace = w.trace) :
    Frame S w v :=
  ⟨henv, hconfig, habort, hreq, fun b hb => hlive ▸ hb, fun p hp => hlocked ▸ hp, [],
    by simp [htrace], by simp⟩

theorem Emits.of_step (h : ∀ w, Frame S w (x.run w).2) : Emits S x :=
  fun _ => Keeps.of_step fun w hw => hw.trans (h w)

theorem Emits.run (h : Emits S x) (w : World) : Frame S w (x.run w).2 :=
  Keeps.run (h w) (Frame.refl w)

theorem Emits.pure (a : α) : Emits S (pure a : Guest α) := fun _ => Keeps.pure a

theorem Emits.stop (e : Stop) : Emits S (Prog.stop e : Guest α) := fun _ => Keeps.stop e

theorem Emits.gets (f : World → α) : Emits S (Prog.gets f : Guest α) := fun _ => Keeps.gets f

theorem Emits.modify {f : World → World} (h : ∀ w, Frame S w (f w)) :
    Emits S (Prog.modify f : Guest Unit) := Emits.of_step h

theorem Emits.bind {k : α → Guest β} (hx : Emits S x) (hk : ∀ a, Emits S (k a)) :
    Emits S (x >>= k) := fun w₀ => Keeps.bind (hx w₀) fun a => hk a w₀

theorem Emits.ite {c : Prop} [Decidable c] (hx : Emits S x) (hy : Emits S y) :
    Emits S (if c then x else y) := fun w₀ => Keeps.ite (hx w₀) (hy w₀)

theorem Emits.when {c : Prop} [Decidable c] {x : Guest PUnit} {k : PUnit → Guest α}
    (hx : Emits S x) (hk : ∀ u, Emits S (k u)) : Emits S (if c then x >>= k else k ⟨⟩) :=
  fun w₀ => Keeps.when (hx w₀) fun u => hk u w₀

theorem Emits.iter {body : β → Guest (β ⊕ α)} (h : ∀ b, Emits S (body b)) (fuel : Nat) (b : β) :
    Emits S (Prog.iter .timeout body fuel b) :=
  fun w₀ => Keeps.iter (fun b => h b w₀) fuel b

end Rules

/-! ## 2. Calls -/

/-- What every call leaves alone, and its entry in the trace. -/
theorem vmcall_frame (call : Hypercall) (w : World) :
    (w.vmcall call).2.env = w.env ∧ (w.vmcall call).2.host.config = w.host.config ∧
      (w.vmcall call).2.host.abortReturns = w.host.abortReturns ∧
      (w.vmcall call).2.live = w.live ∧
      (w.vmcall call).2.trace = w.trace ++ [.vmcall call (w.vmcall call).1] := by
  cases call
  case reqStreamDataBulk req =>
    cases hdata : w.host.bulkData req with
    | none => simp [World.vmcall, World.react, hdata, Host.advance]
    | some data => simp [World.vmcall, World.react, hdata, Host.advance]
  all_goals exact ⟨rfl, rfl, rfl, rfl, rfl⟩

theorem vmcall_memory (call : Hypercall) (w : World) :
    (w.vmcall call).2.reqFile = w.reqFile ∧ (w.vmcall call).2.locked = w.locked := by
  cases call
  case reqStreamDataBulk req =>
    cases hdata : w.host.bulkData req with
    | none => simp [World.vmcall, World.react, hdata]
    | some data => simp [World.vmcall, World.react, hdata]
  all_goals exact ⟨rfl, rfl⟩

theorem run_call (call : Hypercall) (w : World) :
    ((kAFLHypercall call).run w).2 = (w.vmcall call).2 := by
  cases call
  case userAbort msg =>
    rw [kAFLHypercall_abort_run]
    split <;> rfl
  all_goals rfl

section Calls

variable {S : Event → Prop}

theorem emits_call {call : Hypercall} (h : ∀ ret, S (.vmcall call ret)) :
    Emits S (kAFLHypercall call) := by
  refine Emits.of_step fun w => ?_
  obtain ⟨henv, hconfig, habort, hlive, htrace⟩ := vmcall_frame call w
  obtain ⟨hreq, hlocked⟩ := vmcall_memory call w
  rw [run_call]
  exact Frame.snoc (h _) henv hconfig habort hreq hlive hlocked htrace

theorem emits_write {fd addr count : Nat} (h : ∀ ret, S (.write addr count ret)) :
    Emits S (write fd addr count) := by
  have hcall (w : World) : Frame S w (w.writeCall fd addr count).2 := by
    simp only [World.writeCall]
    split
    · exact Frame.silent rfl rfl rfl rfl rfl rfl rfl
    · split
      · exact Frame.silent rfl rfl rfl rfl rfl rfl rfl
      · split
        all_goals exact Frame.silent rfl rfl rfl rfl rfl rfl rfl
  refine Emits.of_step fun w => ?_
  rw [write_run]
  exact (hcall w).trans (Frame.snoc (h _) rfl rfl rfl rfl rfl rfl rfl)

/-! ### System calls that emit nothing -/

theorem emits_syscall : Emits S syscall := by
  refine Emits.of_step fun w => ?_
  simp only [syscall]
  split
  all_goals exact Frame.silent rfl rfl rfl rfl rfl rfl rfl

theorem emits_fopen (path : Bytes) : Emits S (fopen path) := by
  refine Emits.of_step fun w => ?_
  simp only [fopen]
  split
  case h_3 => split <;> exact Frame.silent rfl rfl rfl rfl rfl rfl rfl
  all_goals exact Frame.silent rfl rfl rfl rfl rfl rfl rfl

theorem emits_openCreate (path : Bytes) (mode : Nat) : Emits S (openCreate path mode) := by
  refine Emits.of_step fun w => ?_
  simp only [openCreate]
  split
  all_goals exact Frame.silent rfl rfl rfl rfl rfl rfl rfl

theorem emits_creat (path : Bytes) (mode : Nat) : Emits S (creat path mode) := by
  refine Emits.of_step fun w => ?_
  simp only [creat]
  split
  all_goals exact Frame.silent rfl rfl rfl rfl rfl rfl rfl

theorem emits_read (fd addr count : Nat) : Emits S (read fd addr count) := by
  refine Emits.of_step fun w => ?_
  simp only [read]
  split
  · exact Frame.silent rfl rfl rfl rfl rfl rfl rfl
  · split
    all_goals exact Frame.silent rfl rfl rfl rfl rfl rfl rfl

theorem emits_rewind (fd : Nat) : Emits S (rewind fd) := by
  refine Emits.of_step fun w => ?_
  simp only [rewind]
  split
  all_goals exact Frame.silent rfl rfl rfl rfl rfl rfl rfl

theorem emits_getNyxCpuType : Emits S getNyxCpuType := by
  refine Emits.bind (Emits.gets _) fun t => Emits.ite ?_ (Emits.gets _)
  refine Emits.bind (Emits.modify fun w => ?_) fun _ => Emits.gets _
  exact Frame.silent rfl rfl rfl rfl rfl rfl rfl

end Calls

/-! ### Quiet calls -/

section Quiet

variable {S : Event → Prop} (hS : ∀ e, e.quiet = true → S e)

include hS

theorem emits_hprintf (text : Bytes) : Emits S (hprintf text) :=
  Emits.bind (emits_call fun _ => hS _ rfl) fun _ => Emits.pure ()

theorem emits_habort (msg : String) : Emits S (habort msg) :=
  Emits.bind (emits_call fun _ => hS _ rfl) fun _ => Emits.pure ()

theorem emits_mount (fd : Nat) : Emits S (mount fd) := by
  refine Emits.of_step fun w => ?_
  simp only [mount]
  split
  · exact Frame.silent rfl rfl rfl rfl rfl rfl rfl
  · split
    all_goals exact Frame.snoc (hS (.mount _) rfl) rfl rfl rfl rfl rfl rfl rfl

theorem emits_switchCpu {call : Hypercall} {invalid : Guest Nat}
    (h : ∀ ret, S (.vmcall call ret)) (hinvalid : Emits S invalid) :
    Emits S (switchCpu call invalid) := by
  refine Emits.bind (Emits.gets _) fun t => ?_
  have hskip : Emits S (Prog.modify (ε := Stop) fun w : World =>
      { w with trace := w.trace ++ [.skipped call] }) :=
    Emits.modify fun w => Frame.snoc (hS (.skipped call) rfl) rfl rfl rfl rfl rfl rfl rfl
  cases t with
  | nyxCpuV1 => exact emits_call h
  | nyxCpuInvalid => exact hinvalid
  | nyxCpuV2 => exact Emits.bind hskip fun _ => Emits.pure 0
  | nyxCpuNone => exact Emits.bind hskip fun _ => Emits.pure 0

/-- The complaint about an unset CPU type is quiet, too. -/
theorem emits_hypercall (fuel : Nat) {call : Hypercall} (h : ∀ ret, S (.vmcall call ret)) :
    Emits S (hypercall fuel call) := by
  induction fuel generalizing call with
  | zero => exact emits_switchCpu hS h (Emits.stop _)
  | succ fuel ih =>
    refine emits_switchCpu hS h (Emits.bind (ih fun _ => hS _ rfl) fun _ => Emits.stop _)

/-! ## 3. Functions of the agents -/

/-! ### The fork server -/

theorem emits_errnoFailOn (cond : Bool) (msg : String) :
    Emits S (ForkServer.errnoFailOn cond msg) := by
  refine Emits.ite (Emits.bind (Emits.gets _) fun text => ?_) (Emits.pure _)
  exact Emits.bind (emits_hprintf hS _) fun _ => emits_habort hS msg

omit hS in
theorem emits_dupNull : Emits S ForkServer.dupNull :=
  Emits.bind emits_syscall fun _ => Emits.bind emits_syscall fun _ => Emits.pure _

theorem emits_redirect (stdinMode : Bool) : Emits S (ForkServer.redirect stdinMode) := by
  unfold ForkServer.redirect
  refine Emits.bind emits_syscall fun _ => ?_
  refine Emits.bind (emits_errnoFailOn hS _ _) fun _ => ?_
  refine Emits.bind emits_dupNull fun _ => ?_
  refine Emits.bind (emits_errnoFailOn hS _ _) fun _ => ?_
  refine Emits.bind emits_dupNull fun _ => ?_
  refine Emits.bind (emits_errnoFailOn hS _ _) fun _ => ?_
  refine Emits.ite ?_ (Emits.pure _)
  exact Emits.bind emits_dupNull fun _ => emits_errnoFailOn hS _ _

theorem emits_detectLine (fuel : Nat) (pattern line : Bytes) (region : Nat) :
    Emits S (ForkServer.detectLine fuel pattern line region) := by
  unfold ForkServer.detectLine
  split
  · refine Emits.ite (Emits.bind (emits_hprintf hS _) fun _ => ?_) (Emits.pure _)
    refine Emits.bind (Emits.bind (emits_hypercall hS fuel fun _ => hS _ rfl) fun _ => ?_)
      fun _ => ?_
    · exact Emits.pure _
    · exact Emits.pure _
  · exact Emits.stop _
  · exact Emits.pure _

theorem emits_detectranges (fuel : Nat) (mapfile pattern : Bytes) :
    Emits S (ForkServer.detectranges fuel mapfile pattern) := by
  unfold ForkServer.detectranges
  refine Emits.bind (emits_fopen mapfile) fun fp => ?_
  refine Emits.bind (emits_errnoFailOn hS _ _) fun _ => ?_
  cases fp with
  | none => exact Emits.stop _
  | some fp =>
    refine Emits.bind (Emits.iter (fun (f, region) => ?_) fuel _) fun _ => Emits.pure _
    simp only [ForkServer.detectRound]
    split
    · exact Emits.pure _
    · exact Emits.bind (emits_detectLine hS _ _ _ _) fun _ => Emits.pure _

/-! ### The file-system fuzzer -/

theorem emits_checkErrno (x : Bool) (msg : String) : Emits S (FsFuzzer.checkErrno x msg) :=
  Emits.ite (Emits.pure _) (Emits.bind (emits_habort hS msg) fun _ => Emits.stop _)

theorem emits_fuzzImage (pbuf backingfile : Nat) (size : Int)
    (hwrite : ∀ addr count ret, S (.write addr count ret)) :
    Emits S (FsFuzzer.fuzzImage pbuf backingfile size) := by
  unfold FsFuzzer.fuzzImage
  refine Emits.bind (emits_rewind _) fun _ => ?_
  refine Emits.bind (emits_checkErrno hS _ _) fun _ => ?_
  refine Emits.bind (emits_write (hwrite _ _)) fun _ => ?_
  refine Emits.bind (emits_checkErrno hS _ _) fun _ => ?_
  refine Emits.when (emits_hprintf hS _) fun _ => ?_
  refine Emits.bind emits_syscall fun _ => ?_
  refine Emits.bind (emits_checkErrno hS _ _) fun _ => ?_
  refine Emits.bind (emits_mount hS _) fun _ => ?_
  refine Emits.ite (Emits.bind (emits_hprintf hS _) fun _ => ?_) (Emits.pure _)
  refine Emits.bind emits_syscall fun _ => Emits.bind emits_syscall fun _ => ?_
  exact Emits.bind emits_syscall fun _ => Emits.pure _

theorem emits_fuzzPayload (pbuf backingfile : Nat)
    (hwrite : ∀ addr count ret, S (.write addr count ret)) :
    Emits S (FsFuzzer.fuzzPayload pbuf backingfile) := by
  refine Emits.bind (Emits.gets _) fun _ => Emits.ite ?_ (Emits.pure _)
  exact emits_fuzzImage hS _ _ _ hwrite

end Quiet

end KaflTargets
