import KaflTargets.Invocation
import KaflTargets.Upload

/-!
# The CPU-type gate of the `vmcall` tool

On a CPU that is not recognised as `nyx_cpu_v1` the tool is meant to skip its
hypercalls. Every command does, except `hpush`: `hpush_file` uses the raw
`hprintf` and `kAFL_hypercall`. A run therefore executes a `vmcall` exactly if
it dispatches to `hpush` and gets as far as its loop.

Results:
1. `cmdDispatch_run`: which handler a run dispatches to.
2. `gate_holds_iff`: when a run executes no `vmcall`.
-/

namespace KaflTargets

open CString Prog

/-! ## Definitions -/

/-- The command an argument vector selects, past all `vmcall` tokens, and the
arguments behind it. -/
def subcommand : List Bytes → Option (Cmd × List Bytes)
  | [] => none
  | token :: rest =>
    match lookup (some token) with
    | none => none
    | some .vmcall => subcommand rest
    | some c => some (c, rest)

/-- `hpush` with these arguments opens its source and gets its buffer. -/
def PushStarts (args : List Bytes) (w : World) : Prop :=
  ¬Misused .hpush args w ∧
    let scan := w.env.getopt.scan (ascii "ao:") args
    ∃ srcPath ∈ scan.args[scan.ind]?, (w.files (w.resolve srcPath)).isSome ∧ Obtained srcPath w

/-- Some `vmcall` was executed. -/
def Raw (w : World) : Prop := ∃ e ∈ w.trace, e.isVmcall = true

/-! ## 1. Dispatch -/

namespace CpuGateLemmas

open InvocationLemmas

/-- The handler a run of `cmd_dispatch` reaches, by induction on the tokens. -/
theorem cmdDispatch_run (fuel : Nat) {argv : List Bytes} : ∀ (tokens : List Bytes) (steps : Nat)
    {w : World}, argv.drop w.optind = tokens → w.optind ≤ argv.length → tokens.length < steps →
    (subcommand tokens = none ∧ ((cmdDispatch fuel steps argv).run w).2.trace = w.trace) ∨
      ∃ c args ind, subcommand tokens = some (c, args) ∧ c ≠ .vmcall ∧ ind ≤ argv.length ∧
        argv.drop ind = args ∧
        ((cmdDispatch fuel steps argv).run w).2 =
          ((handler fuel c argv).run { w with optind := ind }).2
  | _, 0, _, _, _, hsteps => absurd hsteps (Nat.not_lt_zero _)
  | [], steps + 1, w, hdrop, hind, _ => by
    have htoken : argv[w.optind]? = none := by
      rw [← List.head?_drop, hdrop]
      rfl
    have hnone : lookup none = none := by decide
    left
    rw [cmdDispatch_step fuel steps hind, htoken, hnone]
    exact ⟨rfl, rfl⟩
  | token :: rest, steps + 1, w, hdrop, hind, hsteps => by
    have htoken : argv[w.optind]? = some token := by
      rw [← List.head?_drop, hdrop]
      rfl
    have hrest : argv.drop (w.optind + 1) = rest := by
      rw [← List.drop_drop, hdrop]
      rfl
    have hind' : w.optind + 1 ≤ argv.length :=
      (List.getElem?_eq_some_iff.mp htoken).1
    rw [cmdDispatch_step fuel steps hind, htoken, subcommand]
    cases hlookup : lookup (some token) with
    | none => exact .inl ⟨rfl, rfl⟩
    | some c =>
      by_cases hc : c = .vmcall
      · subst hc
        have hinner := cmdDispatch_run fuel rest steps (w := { w with optind := w.optind + 1 })
          hrest hind' (Nat.lt_of_succ_lt_succ hsteps)
        have hsnd : ((cmdVmcall (cmdDispatch fuel steps argv)).run
            { w with optind := w.optind + 1 }).2 =
            ((cmdDispatch fuel steps argv).run { w with optind := w.optind + 1 }).2 := by
          rw [cmdVmcall_run (Prod.eta _).symm]
        simp only [if_true, hsnd]
        exact hinner
      · refine .inr ⟨c, rest, w.optind + 1, ?_, hc, hind', hrest, ?_⟩
        · cases c <;> first | rfl | exact absurd rfl hc
        · simp only [if_neg hc]

/-! ## 2. `hpush` -/

theorem raw_not_gated {w : World} (h : Raw w) : ¬∀ e ∈ w.trace, e.isVmcall = false := by
  obtain ⟨e, he, hraw⟩ := h
  intro hall
  exact absurd hraw (by simp [hall e he])

theorem raw_vmcall (w : World) (call : Hypercall) : Raw (w.vmcall call).2 := by
  refine ⟨.vmcall call (w.vmcall call).1, ?_, rfl⟩
  simp [World.vmcall]

theorem triple_call (call : Hypercall) :
    Triple (fun _ => True) (kAFLHypercall call) (fun _ => Raw) Raw := by
  intro w _
  have hraw := raw_vmcall w call
  cases call
  case userAbort msg =>
    simp only [kAFLHypercall]
    cases w.host.abortReturns <;> exact hraw
  all_goals exact hraw

theorem triple_hprintf (text : Bytes) :
    Triple (fun _ => True) (hprintf text) (fun _ => Raw) Raw :=
  Triple.bind (triple_call _) fun _ => Triple.pure fun _ h => h

/-- Every round of `hpush_file` begins with a progress line. -/
theorem triple_hpushRound (fd scratchBuf scratchSize : Nat) (srcPath dst : Bytes)
    (b : UInt8 × Nat) :
    Triple (fun _ => True) (hpushRound fd scratchBuf scratchSize srcPath dst b) (fun _ => Raw)
      Raw := by
  have hread : Triple (fun _ => True) (read fd scratchBuf scratchSize) (fun _ _ => True) Raw := by
    intro w _
    simp only [read]
    cases w.fds fd with
    | none => trivial
    | some f => cases w.env.read w.tick <;> trivial
  have htrue {α : Type} {x : Guest α} (h : Triple (fun _ => True) x (fun _ => Raw) Raw) :
      Triple Raw x (fun _ => Raw) Raw :=
    Triple.weaken h (fun _ _ => trivial) (fun _ _ h => h) fun _ h => h
  refine Triple.bind hread fun bytes => Triple.bind (triple_hprintf _) fun _ => Triple.ite ?_ ?_
  · intro _
    refine Triple.bind (Q := fun _ => Raw) ?_ fun _ => Triple.pure fun _ h => h
    exact Triple.bind (htrue (triple_call _)) fun _ => Triple.pure fun _ h => h
  · intro _
    refine Triple.ite (fun _ => Triple.pure fun _ h => h) fun _ => ?_
    exact Triple.bind (htrue (triple_call _)) fun _ => Triple.pure fun _ h => h

/-- Once a `vmcall` was executed, that stays so. -/
theorem triple_keeps {α : Type} {x : Guest α}
    (h : Triple (fun _ => True) x (fun _ => Raw) Raw) : Keeps Raw x :=
  Triple.weaken h (fun _ _ => trivial) (fun _ _ h => h) fun _ h => h

/-- The loop of `hpush_file` executes a `vmcall` in its first round. -/
theorem triple_hpushLoop (fuel fd buf : Nat) (srcPath dst : Bytes) (b : UInt8 × Nat) :
    Triple (fun _ => True) (do
        let totalSent ←
          Prog.iter .timeout (hpushRound fd buf (1024 * 1024) srcPath dst) (fuel + 1) b
        hprintf (hpushMessage srcPath dst totalSent)
        freeResidentPages buf 256
        close fd
        pure 0 : Guest Int) (fun _ => Raw) Raw := by
  have hround (b : UInt8 × Nat) := triple_hpushRound fd buf (1024 * 1024) srcPath dst b
  have hfree : Keeps Raw (freeResidentPages buf 256) :=
    Keeps.ite (Keeps.pure ()) (Keeps.bind (Keeps.modify fun _ h => h) fun _ =>
      Keeps.modify fun _ h => h)
  refine Triple.bind (Q := fun _ => Raw) ?_ fun totalSent => ?_
  · refine Triple.bind (hround b) fun r => ?_
    cases r with
    | inl b' => exact Keeps.iter (fun b => triple_keeps (hround b)) fuel b'
    | inr totalSent => exact Keeps.pure totalSent
  · exact Keeps.bind (triple_keeps (triple_hprintf _)) fun _ => Keeps.bind hfree fun _ =>
      Keeps.bind (Keeps.modify fun _ h => h) fun _ => Keeps.pure 0

/-- An upload that gets its source and its buffer executes a `vmcall`. -/
theorem hpushFile_raw {w : World} {srcPath : Bytes} (fuel : Nat) (dst : Bytes) (append : Nat)
    (hfile : (w.files (w.resolve srcPath)).isSome) (hget : Obtained srcPath w) :
    Raw ((hpushFile (fuel + 1) srcPath dst append).run w).2 := by
  obtain ⟨file, hfile⟩ := Option.isSome_iff_exists.mp hfile
  obtain ⟨hopen, ⟨page, halloc⟩, hlock⟩ := hget
  rw [hpushFile_obtained (fuel + 1) dst append hfile hopen halloc hlock]
  have h := triple_hpushLoop fuel w.nextFd (page.val * PAGE_SIZE) srcPath dst (append.toUInt8, 0)
    ((w.called.install ⟨w.resolve srcPath, 0⟩).withPages page.val 256) trivial
  split at h
  · next hrun => rwa [hrun]
  · next hrun => rwa [hrun]

/-- An upload that does not get them executes none. -/
theorem hpushFile_gated {w : World} {srcPath : Bytes} (fuel : Nat) (dst : Bytes) (append : Nat)
    (hgated : Gated w)
    (hget : ¬((w.files (w.resolve srcPath)).isSome ∧ Obtained srcPath w)) :
    Gated ((hpushFile fuel srcPath dst append).run w).2 := by
  obtain ⟨ret, w', hrun, -, -, htrace, hcpu⟩ := hpushFile_unstarted fuel dst append hget
  rw [hrun]
  exact ⟨hcpu ▸ hgated.1, htrace ▸ hgated.2⟩

theorem hpushFile_gated_iff {w : World} {srcPath : Bytes} (dst : Bytes) (append : Nat)
    (hgated : Gated w) :
    (∀ fuel, ∀ e ∈ ((hpushFile fuel srcPath dst append).run w).2.trace, e.isVmcall = false) ↔
      ¬((w.files (w.resolve srcPath)).isSome ∧ Obtained srcPath w) := by
  constructor
  · rintro hall ⟨hfile, hget⟩
    exact raw_not_gated (hpushFile_raw 0 dst append hfile hget) (hall 1)
  · intro hget fuel
    exact (hpushFile_gated fuel dst append hgated hget).2

/-- `hpush` executes a `vmcall` exactly if it starts to push. -/
theorem cmdHpush_gated_iff {w : World} {argv : List Bytes} (hgated : Gated w)
    (hind : w.optind ≤ argv.length) :
    (∀ fuel, ∀ e ∈ ((cmdHpush fuel argv).run w).2.trace, e.isVmcall = false) ↔
      ¬PushStarts (argv.drop w.optind) w := by
  obtain ⟨argv', hlen, hargs, hrun⟩ := getoptAll_run (ascii "ao:") hind
  have hlength : (argv.drop w.optind).length = argv.length - w.optind := List.length_drop
  simp only [PushStarts, Misused, cmdHpush, Prog.run_bind_ok hrun]
  generalize w.env.getopt.scan (ascii "ao:") (argv.drop w.optind) = scan at hargs ⊢
  rw [← hpushOptions_eq_none_iff scan.items (false, none)]
  obtain ⟨w1, hw1⟩ : ∃ w1, w1 = { w with optind := w.optind + scan.ind } := ⟨_, rfl⟩
  rw [← hw1]
  have hgated1 : Gated w1 := by
    rw [hw1]
    exact hgated
  cases hpushOptions scan.items (false, none) with
  | none =>
    simp only [Prog.run_pure, true_or, not_true_eq_false, false_and, not_false_eq_true, iff_true]
    exact fun _ => hgated1.2
  | some opts =>
    obtain ⟨append, dstName⟩ := opts
    have hoptind : (gets (·.optind) : Guest Nat).run w1 = (.ok (w.optind + scan.ind), w1) := by
      rw [Prog.run_gets, hw1]
    simp only [reduceCtorEq, false_or, Prog.run_bind_ok hoptind]
    by_cases hops : w.optind + scan.ind + 1 ≠ argv'.length
    · have hne : scan.ind + 1 ≠ (argv.drop w.optind).length := by omega
      simp only [if_pos hops, Prog.run_pure, hne, ne_eq, not_false_eq_true, not_true_eq_false,
        false_and, iff_true]
      exact fun _ => hgated1.2
    · have heq : scan.ind + 1 = (argv.drop w.optind).length := by omega
      have hle : w.optind + scan.ind ≤ argv'.length := by omega
      have hlt : w.optind + scan.ind < argv'.length := by omega
      obtain ⟨srcPath, hsrc⟩ : ∃ srcPath, argv'[w.optind + scan.ind]? = some srcPath :=
        ⟨_, List.getElem?_eq_getElem hlt⟩
      have hsrc' : scan.args[scan.ind]? = some srcPath := by
        rw [← hargs, List.getElem?_drop, hsrc]
      have harg : (argvAt argv' (w.optind + scan.ind)).run w1 = (.ok (some srcPath), w1) := by
        rw [argvAt, if_pos hle, hsrc, Prog.run_pure]
      have hworld : ((w.files (w.resolve srcPath)).isSome ∧ Obtained srcPath w) ↔
          ((w1.files (w1.resolve srcPath)).isSome ∧ Obtained srcPath w1) := by
        rw [hw1]
        exact Iff.rfl
      simp only [if_neg hops, Prog.run_bind_ok harg, heq, ne_eq, not_true_eq_false,
        not_false_eq_true, true_and, hsrc', Option.mem_some_iff, exists_eq_left', hworld]
      cases dstName <;> exact hpushFile_gated_iff _ _ hgated1

/-- The other commands go through `hypercall`. -/
theorem handler_gated (fuel : Nat) {c : Cmd} (hc : c ≠ .hpush) (argv : List Bytes) :
    Keeps Gated (handler fuel c argv) := by
  have hops : Keeps Gated (operands argv) := Keeps.bind (Keeps.gets _) fun _ => Keeps.pure _
  cases c with
  | vmcall => exact Keeps.pure _
  | hpush => exact absurd rfl hc
  | hcat =>
    have hfiles (n : Int) : Keeps Gated
        (do let files ← operands argv; hcatFiles fuel files (sizeAdd 0 n) : Guest Int) :=
      Keeps.bind hops fun files => (guarded_hcatFiles fuel files _).gated
    refine Keeps.bind (Keeps.gets _) fun env => Keeps.ite ?_ ?_
    · exact Keeps.bind (Keeps.pure 0) hfiles
    · exact Keeps.bind (guarded_hprintfFromFile fuel _).gated hfiles
  | habort =>
    refine Keeps.bind (Keeps.gets _) fun optind =>
      Keeps.bind (guarded_argvAt argv optind).gated fun msg => ?_
    cases msg with
    | none => exact Keeps.bind (guarded_habortMsg fuel _).gated fun _ => Keeps.pure 0
    | some msg => exact Keeps.bind (guarded_habortMsg fuel _).gated fun _ => Keeps.pure 0
  | hpanic =>
    refine Keeps.bind (Keeps.gets _) fun optind =>
      Keeps.bind (guarded_argvAt argv optind).gated fun msg => ?_
    cases msg with
    | none => exact Keeps.bind (guarded_hypercall fuel _).gated fun _ => Keeps.pure 0
    | some msg => exact Keeps.bind (guarded_hypercall fuel _).gated fun _ => Keeps.pure 0
  | hget =>
    have hscan : Keeps Gated (getoptAll (ascii "xo:") argv) := fun _ h => h
    refine Keeps.bind hscan fun scanned => ?_
    obtain ⟨items, argv'⟩ := scanned
    dsimp only
    cases hgetOptions items (0o664, none) with
    | none => exact Keeps.pure _
    | some opts =>
      obtain ⟨fmode, dstRoot⟩ := opts
      have hops' : Keeps Gated (operands argv') :=
        Keeps.bind (Keeps.gets _) fun _ => Keeps.pure _
      have hfiles (ret : Int) : Keeps Gated
          (if ret ≠ 0 then do
              let errno ← gets (·.errno)
              pure (errno : Int)
            else do let files ← operands argv'; hgetFiles fuel fmode files : Guest Int) :=
        Keeps.ite (Keeps.bind (Keeps.gets _) fun _ => Keeps.pure _)
          (Keeps.bind hops' fun files => (guarded_hgetFiles fuel fmode files).gated)
      refine Keeps.bind (Keeps.gets _) fun optind => Keeps.ite (Keeps.pure _) ?_
      cases dstRoot with
      | none => exact Keeps.bind (Keeps.pure 0) hfiles
      | some dir => exact Keeps.bind (guarded_chdir dir).gated hfiles
  | hrange =>
    exact Keeps.bind (Keeps.gets _) fun env => Keeps.bind hops fun args =>
      (guarded_hrangeArgs fuel args _).gated
  | hlock => exact Keeps.bind (guarded_hypercall fuel _).gated fun _ => Keeps.pure 0
  | check => exact (guarded_cmdCheck fuel argv).gated

theorem started_gated {w : World} (hcpu : w.nyxCpuType = .nyxCpuInvalid)
    (hclass : classifyCpuid w.env.cpuid ≠ .nyxCpuV1)
    (htrace : ∀ e ∈ w.trace, e.isVmcall = false) (optind : Nat) : Gated (w.started optind) := by
  have hvalid := cpuType_valid w
  have hclass' : w.cpuType ≠ .nyxCpuV1 := by rwa [World.cpuType, if_pos hcpu]
  refine ⟨?_, htrace⟩
  show w.cpuType = .nyxCpuV2 ∨ w.cpuType = .nyxCpuNone
  revert hvalid hclass'
  cases w.cpuType <;> simp

end CpuGateLemmas

open CpuGateLemmas InvocationLemmas

/-! ## 3. The gate -/

/-- A process whose CPUID string is not that of `nyx_cpu_v1` executes no
`vmcall` in any run, unless it dispatches to `hpush` and the upload starts. -/
theorem gate_holds_iff {w : World} (argv : List Bytes) (hcpu : w.nyxCpuType = .nyxCpuInvalid)
    (hclass : classifyCpuid w.env.cpuid ≠ .nyxCpuV1)
    (htrace : ∀ e ∈ w.trace, e.isVmcall = false) :
    (∀ fuel, ∀ e ∈ ((vmcallMain fuel argv).run w).2.trace, e.isVmcall = false) ↔
      ¬∃ args, subcommand argv = some (.hpush, args) ∧ PushStarts args w := by
  have hgated (optind : Nat) := started_gated hcpu hclass htrace optind
  have hdispatch (fuel : Nat) := @cmdDispatch_run fuel argv argv (argv.length + 1) (w.started 0)
    rfl (Nat.zero_le _) (Nat.lt_succ_self _)
  simp only [vmcallMain_run]
  cases hsub : subcommand argv with
  | none =>
    simp only [reduceCtorEq, false_and, exists_false, not_false_eq_true, iff_true]
    intro fuel
    rcases hdispatch fuel with ⟨-, htr⟩ | ⟨c, args, ind, hsome, -⟩
    · rw [htr]
      exact htrace
    · rw [hsub] at hsome
      cases hsome
  | some target =>
    obtain ⟨c, args⟩ := target
    have hrun (fuel : Nat) : argv.length - args.length ≤ argv.length ∧
        argv.drop (argv.length - args.length) = args ∧
        ((cmdDispatch fuel (argv.length + 1) argv).run (w.started 0)).2 =
          ((handler fuel c argv).run (w.started (argv.length - args.length))).2 := by
      rcases hdispatch fuel with ⟨hnone, -⟩ | ⟨c', args', ind, hsome, -, hind, hargs, hrun⟩
      · rw [hsub] at hnone
        cases hnone
      · rw [hsub] at hsome
        cases hsome
        have hlen := congrArg List.length hargs
        rw [List.length_drop] at hlen
        obtain rfl : ind = argv.length - args.length := by omega
        exact ⟨hind, hargs, hrun⟩
    obtain ⟨hind, hargs, -⟩ := hrun 0
    simp only [(hrun _).2.2]
    by_cases hc : c = .hpush
    · subst hc
      have hiff := cmdHpush_gated_iff (hgated (argv.length - args.length)) hind
      have hdrop : argv.drop (w.started (argv.length - args.length)).optind = args := hargs
      rw [hdrop] at hiff
      simp only [handler, hiff, Option.some.injEq, Prod.mk.injEq, true_and, exists_eq_left']
      exact Iff.rfl
    · simp only [Option.some.injEq, Prod.mk.injEq, hc, false_and, exists_false,
        not_false_eq_true, iff_true]
      exact fun fuel => (Keeps.run (handler_gated fuel hc argv) (hgated _)).2

/-- A process whose CPUID string is all zeros, with one file. -/
def plainCpuWorld : World :=
  { env := { Env.plain with cpuid := List.replicate 16 0 }
    files := fun name => if name = ascii "/a" then some ⟨[1, 2], 0o644⟩ else none }

/-- `vmcall habort` executes no `vmcall` there. -/
theorem gate_holds_habort :
    (∀ fuel, ∀ e ∈ ((vmcallMain fuel [ascii "vmcall", ascii "habort"]).run plainCpuWorld).2.trace,
        e.isVmcall = false) ↔
      ¬∃ args, subcommand [ascii "vmcall", ascii "habort"] = some (.hpush, args) ∧
        PushStarts args plainCpuWorld :=
  gate_holds_iff [ascii "vmcall", ascii "habort"] rfl (by decide) (by decide)

/-- `vmcall hpush /a` executes raw hypercalls on a CPU without Nyx support. -/
theorem gate_broken_hpush :
    classifyCpuid plainCpuWorld.env.cpuid = .nyxCpuNone ∧
      ∃ e ∈ ((vmcallMain 2 [ascii "vmcall", ascii "hpush", ascii "/a"]).run
        plainCpuWorld).2.trace, e.isVmcall = true := by
  decide +kernel

end KaflTargets
