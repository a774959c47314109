import KaflTargets.Vmcall

/-!
# Functions that reach the host through `hypercall`

The functions of the agent library do not know the argument vector, and all but
`hpush_file` reach the host through `hypercall` only. Both facts are properties
of every step such a function takes. `Guarded` puts them together, so that one
pass over the library shows them.

Results:
1. `guarded_hypercall`: on a CPU that is not `nyx_cpu_v1`, `hypercall` executes
   no `vmcall`.
2. `guarded_hgetFile`, `guarded_hprintfFromFile`, `guarded_checkHostMagic`, ..:
   nor do the functions above it.
-/

namespace KaflTargets

open CString Prog

/-! ## Definitions -/

/-- The world of a run whose `optind` is one argument further on. -/
def World.shift (w : World) : World := { w with optind := w.optind + 1 }

/-- An executed `vmcall`. -/
def Event.isVmcall : Event → Bool
  | .vmcall _ _ => true
  | _ => false

/-- The CPU type is known and not `nyx_cpu_v1`, and no `vmcall` was executed. -/
def Gated (w : World) : Prop :=
  (w.nyxCpuType = .nyxCpuV2 ∨ w.nyxCpuType = .nyxCpuNone) ∧ ∀ e ∈ w.trace, e.isVmcall = false

/-- The program does not look at `optind`, and it executes no `vmcall` on a CPU
that is not `nyx_cpu_v1`. -/
structure Guarded {α : Type} (x : Guest α) : Prop where
  commutes : Commutes World.shift x
  gated : Keeps Gated x

/-! ## Rules -/

namespace Guarded

variable {α β : Type} {x y : Guest α}

theorem pure (a : α) : Guarded (pure a : Guest α) := ⟨Commutes.pure a, Keeps.pure a⟩

theorem stop (e : Stop) : Guarded (Prog.stop e : Guest α) := ⟨Commutes.stop e, Keeps.stop e⟩

theorem gets {f : World → α} (h : ∀ w, f w.shift = f w) : Guarded (Prog.gets f : Guest α) :=
  ⟨Commutes.gets h, Keeps.gets f⟩

theorem modify {f : World → World} (h : ∀ w, f w.shift = (f w).shift)
    (hgated : ∀ w, Gated w → Gated (f w)) : Guarded (Prog.modify f : Guest Unit) :=
  ⟨Commutes.modify h, Keeps.modify hgated⟩

theorem bind {k : α → Guest β} (hx : Guarded x) (hk : ∀ a, Guarded (k a)) :
    Guarded (x >>= k) :=
  ⟨Commutes.bind hx.commutes fun a => (hk a).commutes, Keeps.bind hx.gated fun a => (hk a).gated⟩

theorem ite {c : Prop} [Decidable c] (hx : Guarded x) (hy : Guarded y) :
    Guarded (if c then x else y) :=
  ⟨Commutes.ite hx.commutes hy.commutes, Keeps.ite hx.gated hy.gated⟩

theorem iter {body : β → Guest (β ⊕ α)} (h : ∀ b, Guarded (body b)) (fuel : Nat) (b : β) :
    Guarded (Prog.iter .timeout body fuel b) :=
  ⟨Commutes.iter (fun b => (h b).commutes) fuel b, Keeps.iter (fun b => (h b).gated) fuel b⟩

theorem of_run {run : World → Except Stop α × World}
    (h : ∀ w, run w.shift = ((run w).1, (run w).2.shift))
    (hgated : ∀ w, Gated w → Gated (run w).2) : Guarded (⟨run⟩ : Guest α) := by
  refine ⟨Commutes.of_run h, fun w hw => ?_⟩
  have hrun := hgated w hw
  cases hr : run w with
  | mk r t =>
    rw [hr] at hrun
    cases r <;> simpa [hr] using hrun

end Guarded

/-! ## 1. Hypercalls -/

theorem vmcall_shift (w : World) (call : Hypercall) :
    w.shift.vmcall call = ((w.vmcall call).1, (w.vmcall call).2.shift) := by
  cases call
  case reqStreamDataBulk req =>
    have hdata : w.shift.host.bulkData req = w.host.bulkData req := rfl
    simp only [World.vmcall, World.react, hdata]
    split <;> rfl
  all_goals rfl

theorem commutes_call (call : Hypercall) : Commutes World.shift (kAFLHypercall call) := by
  refine Commutes.of_run fun w => ?_
  cases call
  case userAbort msg =>
    have hhost : w.shift.host = w.host := rfl
    simp only [vmcall_shift, hhost]
    split <;> rfl
  all_goals
    simp only [vmcall_shift]

theorem commutes_switchCpu (call : Hypercall) {invalid : Guest Nat}
    (h : Commutes World.shift invalid) : Commutes World.shift (switchCpu call invalid) := by
  refine Commutes.bind (Commutes.gets fun _ => rfl) fun t => ?_
  cases t with
  | nyxCpuV1 => exact commutes_call call
  | nyxCpuInvalid => exact h
  | nyxCpuV2 => exact Commutes.bind (Commutes.modify fun _ => rfl) fun _ => Commutes.pure 0
  | nyxCpuNone => exact Commutes.bind (Commutes.modify fun _ => rfl) fun _ => Commutes.pure 0

theorem commutes_hypercall (fuel : Nat) (call : Hypercall) :
    Commutes World.shift (hypercall fuel call) := by
  induction fuel generalizing call with
  | zero => exact commutes_switchCpu call (Commutes.stop _)
  | succ fuel ih =>
    exact commutes_switchCpu call (Commutes.bind (ih _) fun _ => Commutes.stop _)

theorem gated_snoc {w : World} (h : Gated w) {e : Event} (he : e.isVmcall = false) :
    Gated { w with trace := w.trace ++ [e] } := by
  refine ⟨h.1, fun e' he' => ?_⟩
  rcases List.mem_append.mp he' with he' | he'
  · exact h.2 e' he'
  · obtain rfl := List.mem_singleton.mp he'
    exact he

theorem keeps_hypercall (fuel : Nat) (call : Hypercall) : Keeps Gated (hypercall fuel call) := by
  intro w hw
  rw [hypercall_run_skipped hw.1]
  exact gated_snoc hw rfl

theorem guarded_hypercall (fuel : Nat) (call : Hypercall) : Guarded (hypercall fuel call) :=
  ⟨commutes_hypercall fuel call, keeps_hypercall fuel call⟩

theorem guarded_habortMsg (fuel : Nat) (msg : Bytes) :
    Guarded (habortMsg fuel msg) :=
  Guarded.bind (guarded_hypercall fuel _) fun _ => Guarded.pure ()

/-! ### System calls -/

theorem guarded_alignedAlloc (size : Nat) : Guarded (alignedAlloc size) := by
  refine Guarded.of_run (fun w => ?_) fun w hw => ?_
  · have henv : w.shift.env = w.env := rfl
    have htick : w.shift.tick = w.tick := rfl
    simp only [henv, htick]
    cases w.env.alignedAlloc w.tick <;> rfl
  · cases w.env.alignedAlloc w.tick <;> exact hw

theorem guarded_mlock (addr len : Nat) : Guarded (mlock addr len) := by
  refine Guarded.of_run (fun w => ?_) fun w hw => ?_
  · have henv : w.shift.env = w.env := rfl
    have htick : w.shift.tick = w.tick := rfl
    simp only [henv, htick]
    cases w.env.mlock w.tick <;> rfl
  · cases w.env.mlock w.tick <;> exact hw

theorem guarded_openRead (path : Bytes) : Guarded (openRead path) := by
  refine Guarded.of_run (fun w => ?_) fun w hw => ?_
  · have henv : w.shift.env = w.env := rfl
    have hlookups : w.shift.lookups = w.lookups := rfl
    have hfiles : w.shift.files (w.shift.resolve path) = w.files (w.resolve path) := rfl
    simp only [henv, hlookups, hfiles]
    cases w.env.openErr w.lookups path with
    | some e => rfl
    | none => cases w.files (w.resolve path) <;> rfl
  · cases w.env.openErr w.lookups path with
    | some e => exact hw
    | none => cases w.files (w.resolve path) <;> exact hw

theorem guarded_fopen (path : Bytes) : Guarded (fopen path) := by
  refine Guarded.of_run (fun w => ?_) fun w hw => ?_
  · have henv : w.shift.env = w.env := rfl
    have hlookups : w.shift.lookups = w.lookups := rfl
    have hfiles : w.shift.files (w.shift.resolve path) = w.files (w.resolve path) := rfl
    simp only [henv, hlookups, hfiles]
    cases w.env.openErr w.lookups path with
    | some e => rfl
    | none =>
      cases w.files (w.resolve path) with
      | none => rfl
      | some file => cases w.env.streamErr w.lookups path <;> rfl
  · cases w.env.openErr w.lookups path with
    | some e => exact hw
    | none =>
      cases w.files (w.resolve path) with
      | none => exact hw
      | some file => cases w.env.streamErr w.lookups path <;> exact hw

theorem guarded_creat (path : Bytes) (mode : Nat) :
    Guarded (creat path mode) := by
  refine Guarded.of_run (fun w => ?_) fun w hw => ?_
  · have henv : w.shift.env = w.env := rfl
    have hlookups : w.shift.lookups = w.lookups := rfl
    simp only [henv, hlookups]
    cases w.env.creatErr w.lookups path <;> rfl
  · cases w.env.creatErr w.lookups path <;> exact hw

theorem writeCall_shift (w : World) (fd addr count : Nat) :
    w.shift.writeCall fd addr count =
      ((w.writeCall fd addr count).1, (w.writeCall fd addr count).2.shift) := by
  have hfds : w.shift.fds = w.fds := rfl
  have henv : w.shift.env = w.env := rfl
  have htick : w.shift.tick = w.tick := rfl
  simp only [World.writeCall, hfds, henv, htick]
  cases w.fds fd with
  | none => rfl
  | some f =>
    dsimp only
    split
    · rfl
    · cases w.env.write w.tick <;> rfl

theorem guarded_write (fd addr count : Nat) : Guarded (write fd addr count) := by
  refine Guarded.of_run (fun w => ?_) fun w hw => ?_
  · simp only [writeCall_shift]
    rfl
  · have hcall : Gated (w.writeCall fd addr count).2 := by
      simp only [World.writeCall]
      cases w.fds fd with
      | none => exact hw
      | some f =>
        dsimp only
        split
        · exact hw
        · cases w.env.write w.tick <;> exact hw
    exact gated_snoc hcall rfl

theorem guarded_chdir (path : Bytes) : Guarded (chdir path) := by
  refine Guarded.of_run (fun w => ?_) fun w hw => ?_
  · have henv : w.shift.env = w.env := rfl
    have hlookups : w.shift.lookups = w.lookups := rfl
    simp only [henv, hlookups]
    cases w.env.chdirErr w.lookups path <;> rfl
  · cases w.env.chdirErr w.lookups path <;> exact hw

/-! ### The agent library -/

theorem guarded_mallocResidentPages (numPages : Nat) :
    Guarded (mallocResidentPages numPages) := by
  refine Guarded.bind (guarded_alignedAlloc _) fun ptr => Guarded.ite ?_ ?_
  · exact Guarded.bind (Guarded.modify (fun _ => rfl) fun _ h => h) fun _ => Guarded.pure 0
  · refine Guarded.bind (Guarded.modify (fun _ => rfl) fun _ h => h) fun _ =>
      Guarded.bind (guarded_mlock _ _) fun locked => Guarded.ite ?_ ?_
    · exact Guarded.bind (Guarded.modify (fun _ => rfl) fun _ h => h) fun _ => Guarded.pure 0
    · exact Guarded.ite (Guarded.pure ptr) (Guarded.stop _)

theorem guarded_hprintfFromFile (fuel : Nat) (f : FILE) :
    Guarded (hprintfFromFile fuel f) := by
  refine Guarded.iter (fun b => ?_) fuel (f, 0)
  obtain ⟨f, written⟩ := b
  refine Guarded.ite (Guarded.pure _) (Guarded.bind
    (Guarded.modify (fun _ => rfl) fun _ h => h) fun _ =>
    Guarded.ite (Guarded.pure _) ?_)
  exact Guarded.bind (Guarded.gets fun _ => rfl) fun _ =>
    Guarded.bind (guarded_hypercall fuel _) fun _ => Guarded.pure _

theorem guarded_hgetRound (fuel fd scratchBuf scratchSize : Nat) (b : Unit) :
    Guarded (hgetRound fuel fd scratchBuf scratchSize b) := by
  refine Guarded.bind (Guarded.gets fun _ => rfl) fun reqFile =>
    Guarded.bind (guarded_hypercall fuel _) fun read => Guarded.ite (Guarded.pure _) ?_
  refine Guarded.bind (guarded_write _ _ _) fun ret => Guarded.ite (Guarded.pure _) ?_
  exact Guarded.ite (Guarded.pure _) (Guarded.pure _)

theorem guarded_hgetCopy (fuel : Nat) (dstPath : Bytes) (flags scratchBuf scratchSize : Nat) :
    Guarded (hgetCopy fuel dstPath flags scratchBuf scratchSize) := by
  refine Guarded.bind (guarded_creat _ _) fun fd => ?_
  cases fd with
  | none => exact Guarded.bind (Guarded.gets fun _ => rfl) fun _ => Guarded.pure _
  | some fd =>
    exact Guarded.bind (Guarded.iter (guarded_hgetRound _ _ _ _) _ _) fun ret =>
      Guarded.bind (Guarded.modify (fun _ => rfl) fun _ h => h) fun _ =>
      Guarded.bind (Guarded.modify (fun _ => rfl) fun _ h => h) fun _ => Guarded.pure ret

theorem guarded_hgetFile (fuel : Nat) (srcPath : Bytes) (flags : Nat) :
    Guarded (hgetFile fuel srcPath flags) := by
  refine Guarded.bind (guarded_mallocResidentPages _) fun scratchBuf =>
    Guarded.bind (Guarded.modify (fun _ => rfl) fun _ h => h) fun _ =>
    Guarded.ite ?_ (Guarded.pure _)
  exact Guarded.bind (Guarded.modify (fun _ => rfl) fun _ h => h) fun _ =>
    guarded_hgetCopy _ _ _ _ _

theorem guarded_freeResidentPages (buf numPages : Nat) :
    Guarded (freeResidentPages buf numPages) := by
  refine Guarded.ite (Guarded.pure _) ?_
  exact Guarded.bind (Guarded.modify (fun _ => rfl) fun _ h => h) fun _ =>
    Guarded.modify (fun _ => rfl) fun _ h => h

theorem guarded_checkHostMagic (fuel : Nat) : Guarded (checkHostMagic fuel) := by
  refine Guarded.bind (Guarded.modify (fun _ => rfl) fun _ h => h) fun _ =>
    Guarded.bind (guarded_hypercall fuel _) fun _ =>
    Guarded.bind (Guarded.gets fun _ => rfl) fun config => ?_
  exact Guarded.ite (Guarded.pure _) (Guarded.ite (Guarded.pure _) (Guarded.pure _))

/-! ### Parts of the handlers -/

theorem guarded_argvAt (argv : List Bytes) (i : Nat) : Guarded (argvAt argv i) :=
  Guarded.ite (Guarded.pure _) (Guarded.stop _)

theorem guarded_hcatFiles (fuel : Nat) : ∀ (files : List Bytes) (written : Nat),
    Guarded (hcatFiles fuel files written)
  | [], _ => Guarded.pure _
  | a :: as, written => by
    refine Guarded.bind (guarded_fopen a) fun f => ?_
    cases f with
    | none => exact Guarded.pure _
    | some f =>
      exact Guarded.bind (guarded_hprintfFromFile fuel f) fun n => guarded_hcatFiles fuel as _

theorem guarded_hgetFiles (fuel fmode : Nat) : ∀ files : List Bytes,
    Guarded (hgetFiles fuel fmode files)
  | [] => Guarded.pure 0
  | a :: as =>
    Guarded.bind (guarded_hgetFile fuel a fmode) fun ret =>
      Guarded.ite (Guarded.pure ret) (guarded_hgetFiles fuel fmode as)

theorem guarded_hrangeArgs (fuel : Nat) : ∀ (args : List Bytes) (vars : RangeVars),
    Guarded (hrangeArgs fuel vars args)
  | [], _ => Guarded.pure 0
  | a :: as, vars => by
    unfold hrangeArgs
    refine Guarded.ite (Guarded.pure _) (Guarded.ite (Guarded.pure _)
      (Guarded.ite (Guarded.pure _) ?_))
    refine Guarded.bind ?_ fun _ => guarded_hrangeArgs fuel as _
    exact Guarded.bind (guarded_hypercall fuel _) fun _ => Guarded.pure ()

theorem guarded_cmdCheck (fuel : Nat) (argv : List Bytes) : Guarded (cmdCheck fuel argv) := by
  refine Guarded.bind (Guarded.gets fun _ => rfl) fun t =>
    Guarded.ite (Guarded.pure _) (Guarded.ite (Guarded.pure _) ?_)
  refine Guarded.bind (guarded_checkHostMagic fuel) fun ret => Guarded.ite ?_ (Guarded.pure _)
  exact Guarded.bind (guarded_habortMsg fuel _) fun _ => Guarded.pure _

end KaflTargets
