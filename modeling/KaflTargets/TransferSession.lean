import KaflTargets.DispatchBounds
import KaflTargets.Transfer

/-!
# Sessions of `vmcall`

A script runs `vmcall` again and again. Between two of these processes only the store stays. Every
process is given a `Job` by its arguments: it does the job, or a part of it that its status gives
away, or it ends with the whole machine at a `USER_ABORT`.

Results:
1. `session_jobs`: a session of `vmcall` processes on the store.
2. `session_roundTrip`: what is fetched and pushed again, each time with status 0.
-/

namespace KaflTargets

open CString Prog

/-! ## Processes -/

/-- A process of the tool: its arguments, and what the outside decides while it runs. -/
structure Invocation where
  argv : List Bytes
  env : Env

/-- The command that is reached behind the `vmcall` tokens, and its arguments. -/
def command : List Bytes → Option (Cmd × List Bytes)
  | [] => none
  | a :: as =>
    match lookup (some a) with
    | none => none
    | some .vmcall => command as
    | some c => some (c, as)

/-- What a command that is started in `cwd` is to do with its arguments. Invalid options and a wrong
number of operands leave nothing to do. -/
def Cmd.job (env : Env) (cwd : Bytes) (args : List Bytes) : Cmd → Job
  | .hget =>
    let scan := env.getopt.scan (ascii "xo:") args
    match hgetOptions scan.items (0o664, none), scan.args.drop scan.ind with
    | some (_, dir), name :: names =>
      .get ((name :: names).map (fetchedTo ((dir.map (resolveIn cwd)).getD cwd)))
    | _, _ => .other
  | .hpush =>
    let scan := env.getopt.scan (ascii "ao:") args
    match hpushOptions scan.items (false, none), scan.args.drop scan.ind with
    | some (append, dst), [src] => .push (resolveIn cwd src) (dst.getD (basename src)) append
    | _, _ => .other
  | _ => .other

/-- The job of an invocation that is started in `cwd`. -/
def Invocation.job (i : Invocation) (cwd : Bytes) : Job :=
  match command i.argv with
  | some (c, args) => c.job i.env cwd args
  | none => .other

/-- A new process on the machine. -/
def World.spawn (w : World) (env : Env) : World :=
  { env := env, host := w.host, files := w.files, cwd := w.cwd, trace := w.trace }

/-- A process of the tool, from its start to its end. The shell keeps its working directory. -/
def World.exec (w : World) (fuel : Nat) (i : Invocation) : Except Stop Int × World :=
  let (r, v) := (vmcallMain fuel i.argv).run (w.spawn i.env)
  (r, { w with host := v.host, files := v.files, trace := v.trace })

/-- How the processes of a script end, one after the other. A process that does not return is the
last one. -/
def World.session (fuel : Nat) : List Invocation → World → List (Except Stop Int) × World
  | [], w => ([], w)
  | i :: is, w =>
    match w.exec fuel i with
    | (.ok ret, v) =>
      let (rs, u) := World.session fuel is v
      (.ok ret :: rs, u)
    | (.error e, v) => ([.error e], v)

namespace TransferLemmas

variable {env : Env} {cwd : Bytes} {s : Store} {w : World}

/-! ### Commands -/

/-- A process over `s` returned. -/
def Finished (job : Job) (s : Store) (ret : Int) (w : World) : Prop :=
  job.Effect (.ok ret) s w.store ∧ w.host.abortReturns = false ∧ (ret = -EINVAL → job = .other)

/-- A process over `s` did not return. -/
def Stopped (job : Job) (s : Store) (e : Stop) (w : World) : Prop :=
  e = .aborted ∧ job.Effect (.error e) s w.store

theorem finished_other {ret : Int} (h : At env cwd s w) : Finished .other s ret w := by
  refine ⟨?_, h.abort, fun _ => rfl⟩
  rw [h.store_eq]
  exact .other

theorem finished_at {job : Job} {t : Store} {ret : Int} (heffect : job.Effect (.ok ret) s t)
    (h : At env cwd t w) (hret : ret ≠ -EINVAL) : Finished job s ret w := by
  refine ⟨?_, h.abort, fun hinvalid => absurd hinvalid hret⟩
  rw [h.store_eq]
  exact heffect

theorem stopped_other {e : Stop} (h : AbortedAt s e w) : Stopped .other s e w := by
  refine ⟨h.1, ?_⟩
  rw [h.2]
  exact .other

/-- A command that leaves the store alone. -/
theorem calm_finishes {x : Guest Int} (h : Calm x) :
    Meets (At env cwd s) x (Finished .other s) (Stopped .other s) :=
  (h env cwd s).weaken (fun _ h => h) (fun _ _ h => finished_other h) fun _ _ h => stopped_other h

/-- The rounds `hprintf_from_file` still makes, but for the last one. -/
def roundsLeft (f : FILE) : Nat := if f.eof then 0 else f.data.length + 1

theorem fread_rounds {f : FILE} (heof : ¬f.eof = true)
    (herror : ¬(f.fread HPRINTF_MAX_SIZE).2.error = true) :
    roundsLeft (f.fread HPRINTF_MAX_SIZE).2 < roundsLeft f := by
  have hpos : 0 < HPRINTF_MAX_SIZE := by decide
  unfold FILE.fread roundsLeft at *
  rw [if_neg heof]
  split
  · next hle =>
    show (f.data.drop HPRINTF_MAX_SIZE).length + 1 < f.data.length + 1
    rw [List.length_drop]
    omega
  · next hlt =>
    rw [if_neg hlt] at herror
    have hfailing : f.failing = false := by
      cases hf : f.failing with
      | false => rfl
      | true => exact absurd (by simp [hf]) herror
    rw [hfailing]
    simp

theorem calm_hprintfFromFile {fuel : Nat} {f : FILE} (hfuel : f.data.length + 1 < fuel) :
    Calm (hprintfFromFile fuel f) := by
  intro env cwd s
  have hrounds : roundsLeft f < fuel := by
    refine Nat.lt_of_le_of_lt ?_ hfuel
    unfold roundsLeft
    split
    · exact Nat.zero_le _
    · exact Nat.le_refl _
  refine (Meets.iter (I := fun n b v => n = roundsLeft b.1 ∧ At env cwd s v) (fun n b => ?_) fuel
    (f, 0) hrounds).weaken (fun _ h => ⟨rfl, h⟩) (fun _ _ h => h) fun _ _ h => h
  obtain ⟨g, written⟩ := b
  refine Meets.ite (fun _ => Meets.pure fun _ h => h.2) fun heof => ?_
  refine Meets.bind (Q := fun _ v => n = roundsLeft g ∧ At env cwd s v)
    (Meets.modify fun v h => ⟨h.1, h.2.env_eq, h.2.cwd_eq, h.2.store_eq, h.2.cpu, h.2.abort⟩)
    fun _ => Meets.ite (fun _ => Meets.pure fun _ h => h.2) fun herror => ?_
  rintro v ⟨rfl, h⟩
  exact (Meets.bind (Calm.gets _ env cwd s) fun _ =>
    Meets.bind (calm_hypercall fuel (by simp) (by simp) env cwd s) fun _ =>
    Meets.pure fun u hu => ⟨_, fread_rounds heof herror, rfl, hu⟩) v h

/-- The files of `cmd_hcat`. -/
theorem hcatFiles_meets {bound fuel : Nat} (hbound : s.Bounded bound) (hfuel : bound + 1 < fuel) :
    ∀ (names : List Bytes) (written : Nat),
      Meets (At env cwd s) (hcatFiles fuel names written) (fun _ => At env cwd s) (AbortedAt s)
  | [], _ => Meets.pure fun _ h => h
  | a :: as, written => by
    have hopen : Meets (At env cwd s) (fopen a)
        (fun f w => At env cwd s w ∧ ∀ g, f = some g → g.data.length ≤ bound) (AbortedAt s) := by
      refine Meets.of_run fun w h => ?_
      have hcalled : At env cwd s w.called := ⟨h.env_eq, h.cwd_eq, h.store_eq, h.cpu, h.abort⟩
      have herror (errno : Nat) : At env cwd s { w.called with errno := errno } :=
        ⟨h.env_eq, h.cwd_eq, h.store_eq, h.cpu, h.abort⟩
      cases herr : w.env.openErr w.lookups a with
      | some e => exact ⟨none, _, by simp [fopen, herr], herror e.val, by simp⟩
      | none =>
        cases hfile : w.files (w.resolve a) with
        | none => exact ⟨none, _, by simp [fopen, herr, hfile], herror 2, by simp⟩
        | some file =>
          have hlen : file.content.length ≤ bound := by
            refine hbound.file (w.resolve a) file.content ?_
            rw [← h.store_eq]
            exact congrArg (Option.map File.content) hfile
          cases hstream : w.env.streamErr w.lookups a with
          | none =>
            refine ⟨some { data := file.content }, w.called,
              by simp [fopen, herr, hfile, hstream], hcalled, ?_⟩
            rintro g hg
            cases hg
            exact hlen
          | some n =>
            refine ⟨some { data := file.content.take n, failing := true }, w.called,
              by simp [fopen, herr, hfile, hstream], hcalled, ?_⟩
            rintro g hg
            cases hg
            exact Nat.le_trans (List.length_take_le' n file.content) hlen
    refine Meets.bind hopen fun f => ?_
    cases f with
    | none => exact Meets.pure fun _ h => h.1
    | some g =>
      rintro w ⟨h, hlen⟩
      have hg : g.data.length + 1 < fuel := Nat.lt_of_le_of_lt (Nat.succ_le_succ (hlen g rfl)) hfuel
      exact (Meets.bind (calm_hprintfFromFile hg env cwd s) fun n =>
        hcatFiles_meets hbound hfuel as _) w h

theorem calm_hrangeArgs (fuel : Nat) : ∀ (args : List Bytes) (vars : RangeVars),
    Calm (hrangeArgs fuel vars args)
  | [], _ => Calm.pure 0
  | a :: as, vars => by
    unfold hrangeArgs
    refine Calm.ite (Calm.pure _) (Calm.ite (Calm.pure _) (Calm.ite (Calm.pure _) ?_))
    refine Calm.bind ?_ fun _ => calm_hrangeArgs fuel as _
    exact Calm.bind (calm_hypercall fuel (by simp) (by simp)) fun _ => Calm.pure ()

theorem calm_cmdCheck (fuel : Nat) (argv : List Bytes) : Calm (cmdCheck fuel argv) := by
  have hmagic : Calm (checkHostMagic fuel) := by
    refine Calm.bind (Calm.modify fun h => ⟨h.env_eq, h.cwd_eq, h.store_eq, h.cpu, h.abort⟩)
      fun _ => Calm.bind (calm_hypercall fuel (by simp) (by simp)) fun _ =>
      Calm.bind (Calm.gets _) fun config => ?_
    exact Calm.ite (Calm.pure _) (Calm.ite (Calm.pure _) (Calm.pure _))
  refine Calm.bind (Calm.gets _) fun t => Calm.ite (Calm.pure _) (Calm.ite (Calm.pure _) ?_)
  refine Calm.bind hmagic fun ret => Calm.ite ?_ (Calm.pure _)
  exact Calm.bind (calm_habortMsg fuel _) fun _ => Calm.pure _

variable {argv : List Bytes} {bound fuel : Nat}

theorem cmdHcat_finishes (hbound : s.Bounded bound) (hfuel : bound + 1 < fuel)
    (hstdin : env.stdin.data.length ≤ bound) :
    Meets (At env cwd s) (cmdHcat fuel argv) (Finished .other s) (Stopped .other s) := by
  have hfiles (n : Int) : Meets (At env cwd s)
      (do let files ← operands argv; hcatFiles fuel files (sizeAdd 0 n) : Guest Int)
      (fun _ => At env cwd s) (AbortedAt s) :=
    Meets.bind (Meets.bind (Calm.gets _ env cwd s) fun _ => Meets.pure fun _ h => h) fun files =>
      hcatFiles_meets hbound hfuel files _
  have hstdin' : Calm (hprintfFromFile fuel env.stdin) :=
    calm_hprintfFromFile (Nat.lt_of_le_of_lt (Nat.succ_le_succ hstdin) hfuel)
  have hrun : Meets (At env cwd s) (cmdHcat fuel argv) (fun _ => At env cwd s) (AbortedAt s) := by
    intro w h
    have hget : (Prog.gets (·.env) : Guest Env).run w = (.ok env, w) := by
      rw [Prog.run_gets, h.env_eq]
    rw [cmdHcat, Prog.run_bind_ok hget]
    refine Meets.ite (P := At env cwd s) (fun _ => ?_) (fun _ => ?_) w h
    · exact Meets.bind (Calm.pure 0 env cwd s) hfiles
    · exact Meets.bind (hstdin' env cwd s) hfiles
  exact hrun.weaken (fun _ h => h) (fun _ _ h => finished_other h) fun _ _ h => stopped_other h

variable {i : Nat}

/-- A command that takes the next argument, or goes without it. -/
theorem argument_meets {k : Option Bytes → Guest Int} (hind : i ≤ argv.length)
    (hk : ∀ a, Calm (k a)) :
    Meets (fun w => At env cwd s w ∧ w.optind = i)
      (Prog.gets (·.optind) >>= fun n => argvAt argv n >>= k)
      (Finished .other s) (Stopped .other s) := by
  rintro w ⟨h, rfl⟩
  have hget : (Prog.gets (·.optind) : Guest Nat).run w = (.ok w.optind, w) := rfl
  have harg : (argvAt argv w.optind).run w = (.ok argv[w.optind]?, w) := by
    simp [argvAt, hind]
  rw [Prog.run_bind_ok hget, Prog.run_bind_ok harg]
  exact calm_finishes (hk _) w h

/-- `cmd_hget` from its operands on. -/
theorem hgetNames_meets {names : List Bytes} (fmode : Nat) (hbound : s.Bounded bound)
    (hfuel : bound < fuel) (hnames : argv.drop i = names) :
    Meets (fun w => At env cwd s w ∧ w.optind = i)
      (do let files ← operands argv; hgetFiles fuel fmode files : Guest Int)
      (Finished (.get (names.map (fetchedTo cwd))) s)
      (Stopped (.get (names.map (fetchedTo cwd))) s) := by
  rintro w ⟨h, rfl⟩
  have hrun : (operands argv).run w = (.ok names, w) := by
    rw [← hnames]
    rfl
  rw [Prog.run_bind_ok hrun]
  refine ((hgetFiles_meets (R := fun _ _ => False) fuel fmode hfuel names hbound).returns
    (InvocationLemmas.hgetFiles_valid fuel fmode names)).weaken (fun _ h => h) ?_
    (fun _ _ h => h.elim) w h
  rintro ret v ⟨hret, t, heffect, hat⟩
  exact finished_at heffect hat hret

theorem chdir_ends (dir : Bytes) (h : At env cwd s w) :
    (∃ v, (chdir dir).run w = (.ok 0, v) ∧ At env (resolveIn cwd dir) s v ∧ v.optind = w.optind) ∨
      ∃ v, (chdir dir).run w = (.ok (-1), v) ∧ At env cwd s v ∧ v.errno ≠ 0 := by
  obtain rfl := h.cwd_eq
  cases hchdir : w.env.chdirErr w.lookups dir with
  | none =>
    refine .inl ⟨{ w.called with cwd := resolveIn w.cwd dir }, ?_, ?_, rfl⟩
    · simp only [chdir, hchdir]
      rfl
    · exact ⟨h.env_eq, rfl, h.store_eq, h.cpu, h.abort⟩
  | some e =>
    refine .inr ⟨{ w.called with errno := e.val }, ?_, ?_, Nat.ne_of_gt e.property⟩
    · simp only [chdir, hchdir]
    · exact ⟨h.env_eq, rfl, h.store_eq, h.cpu, h.abort⟩

theorem cmdHget_finishes (hbound : s.Bounded bound) (hfuel : bound < fuel)
    (hind : i ≤ argv.length) :
    Meets (fun w => At env cwd s w ∧ w.optind = i) (cmdHget fuel argv)
      (Finished (Cmd.job env cwd (argv.drop i) .hget) s)
      (Stopped (Cmd.job env cwd (argv.drop i) .hget) s) := by
  rintro w ⟨h, rfl⟩
  obtain ⟨argv', hlen, hdrop, hrun⟩ := InvocationLemmas.getoptAll_run (ascii "xo:") hind
  obtain rfl := h.env_eq
  rw [cmdHget, Prog.run_bind_ok hrun]
  unfold Cmd.job
  generalize w.env.getopt.scan (ascii "xo:") (argv.drop w.optind) = scan at hdrop hrun ⊢
  have hat : At w.env cwd s { w with optind := w.optind + scan.ind } :=
    ⟨h.env_eq, h.cwd_eq, h.store_eq, h.cpu, h.abort⟩
  have hoperands : argv'.drop (w.optind + scan.ind) = scan.args.drop scan.ind := by
    rw [← hdrop, List.drop_drop]
  dsimp only
  cases hopts : hgetOptions scan.items (0o664, none) with
  | none => exact finished_other hat
  | some opts =>
    obtain ⟨fmode, dir⟩ := opts
    have hget : (Prog.gets (·.optind) : Guest Nat).run { w with optind := w.optind + scan.ind } =
        (.ok (w.optind + scan.ind), { w with optind := w.optind + scan.ind }) := rfl
    dsimp only
    rw [Prog.run_bind_ok hget]
    cases hnames : scan.args.drop scan.ind with
    | nil =>
      rw [hnames, List.drop_eq_nil_iff] at hoperands
      rw [if_pos hoperands]
      exact finished_other hat
    | cons name names =>
      have hleft : ¬w.optind + scan.ind ≥ argv'.length := by
        rw [ge_iff_le, ← List.drop_eq_nil_iff, hoperands, hnames]
        exact List.cons_ne_nil _ _
      rw [hnames] at hoperands
      rw [if_neg hleft]
      cases dir with
      | none => exact hgetNames_meets fmode hbound hfuel hoperands _ ⟨hat, rfl⟩
      | some dir =>
        dsimp only
        rcases chdir_ends dir hat with ⟨v, hcd, hv, hoptind⟩ | ⟨v, hcd, hv, herrno⟩
        · rw [Prog.run_bind_ok hcd]
          exact hgetNames_meets fmode hbound hfuel hoperands _ ⟨hv, hoptind⟩
        · rw [Prog.run_bind_ok hcd]
          exact finished_at (.refused [] (by simp) (Nat.cast_ne_zero.mpr herrno)) hv
            (InvocationLemmas.natCast_ne_invalid v.errno)

theorem hpushFile_finishes (src dst : Bytes) (append : Bool) (hbound : s.Bounded bound)
    (hfuel : bound < fuel) :
    Meets (At env cwd s) (hpushFile fuel src dst append.toNat)
      (Finished (.push (resolveIn cwd src) dst append) s)
      (Stopped (.push (resolveIn cwd src) dst append) s) := by
  refine ((hpushFile_meets src dst append hbound hfuel).returns
    (InvocationLemmas.hpushFile_valid fuel src dst append.toNat)).weaken (fun _ h => h) ?_ ?_
  · rintro ret v ⟨hret, t, heffect, hat⟩
    exact finished_at heffect hat hret
  · intro e v heffect
    refine ⟨?_, heffect⟩
    generalize v.store = t at heffect
    cases heffect
    rfl

theorem cmdHpush_finishes (hbound : s.Bounded bound) (hfuel : bound < fuel)
    (hind : i ≤ argv.length) :
    Meets (fun w => At env cwd s w ∧ w.optind = i) (cmdHpush fuel argv)
      (Finished (Cmd.job env cwd (argv.drop i) .hpush) s)
      (Stopped (Cmd.job env cwd (argv.drop i) .hpush) s) := by
  rintro w ⟨h, rfl⟩
  obtain ⟨argv', hlen, hdrop, hrun⟩ := InvocationLemmas.getoptAll_run (ascii "ao:") hind
  obtain rfl := h.env_eq
  rw [cmdHpush, Prog.run_bind_ok hrun]
  unfold Cmd.job
  generalize w.env.getopt.scan (ascii "ao:") (argv.drop w.optind) = scan at hdrop hrun ⊢
  have hat : At w.env cwd s { w with optind := w.optind + scan.ind } :=
    ⟨h.env_eq, h.cwd_eq, h.store_eq, h.cpu, h.abort⟩
  have hoperands : argv'.drop (w.optind + scan.ind) = scan.args.drop scan.ind := by
    rw [← hdrop, List.drop_drop]
  dsimp only
  cases hopts : hpushOptions scan.items (false, none) with
  | none => exact finished_other hat
  | some opts =>
    obtain ⟨append, dst⟩ := opts
    have hget : (Prog.gets (·.optind) : Guest Nat).run { w with optind := w.optind + scan.ind } =
        (.ok (w.optind + scan.ind), { w with optind := w.optind + scan.ind }) := rfl
    dsimp only
    rw [Prog.run_bind_ok hget]
    have hcount : argv'.length - (w.optind + scan.ind) = (scan.args.drop scan.ind).length := by
      rw [← hoperands, List.length_drop]
    cases hnames : scan.args.drop scan.ind with
    | nil =>
      rw [hnames] at hcount
      rw [if_pos (by rw [List.length_nil] at hcount; omega)]
      exact finished_other hat
    | cons src rest =>
      rw [hnames, List.length_cons] at hcount
      cases rest with
      | cons name names =>
        rw [if_pos (by rw [List.length_cons] at hcount; omega)]
        exact finished_other hat
      | nil =>
        have harg : argv'[w.optind + scan.ind]? = some src := by
          rw [← List.head?_drop, hoperands, hnames]
          rfl
        have hread : (argvAt argv' (w.optind + scan.ind)).run
            { w with optind := w.optind + scan.ind } =
            (.ok (some src), { w with optind := w.optind + scan.ind }) := by
          rw [argvAt, if_pos (by rw [List.length_nil] at hcount; omega), harg]
          rfl
        rw [if_neg (by rw [List.length_nil] at hcount; omega), Prog.run_bind_ok hread]
        cases dst with
        | none => exact hpushFile_finishes src (basename src) append hbound hfuel _ hat
        | some name => exact hpushFile_finishes src name append hbound hfuel _ hat

/-- Every command does its job. -/
theorem handler_finishes {c : Cmd} (hc : c ≠ .vmcall) (hbound : s.Bounded bound)
    (hstdin : env.stdin.data.length ≤ bound) (hfuel : bound + 1 < fuel) (hind : i ≤ argv.length) :
    Meets (fun w => At env cwd s w ∧ w.optind = i) (handler fuel c argv)
      (Finished (c.job env cwd (argv.drop i)) s) (Stopped (c.job env cwd (argv.drop i)) s) := by
  have hother {x : Guest Int} (h : Meets (At env cwd s) x (Finished .other s) (Stopped .other s)) :
      Meets (fun w => At env cwd s w ∧ w.optind = i) x (Finished .other s) (Stopped .other s) :=
    h.weaken (fun _ h => h.1) (fun _ _ h => h) fun _ _ h => h
  have hless : bound < fuel := Nat.lt_of_succ_lt hfuel
  cases c with
  | vmcall => exact absurd rfl hc
  | hcat => exact hother (cmdHcat_finishes hbound hfuel hstdin)
  | habort =>
    refine argument_meets hind fun msg => ?_
    cases msg with
    | none => exact Calm.bind (calm_habortMsg fuel _) fun _ => Calm.pure 0
    | some msg => exact Calm.bind (calm_habortMsg fuel _) fun _ => Calm.pure 0
  | hget => exact cmdHget_finishes hbound hless hind
  | hpush => exact cmdHpush_finishes hbound hless hind
  | hpanic =>
    refine argument_meets hind fun msg => ?_
    cases msg with
    | none => exact Calm.bind (calm_hypercall fuel (by simp) (by simp)) fun _ => Calm.pure 0
    | some msg => exact Calm.bind (calm_hypercall fuel (by simp) (by simp)) fun _ => Calm.pure 0
  | hrange =>
    refine hother (calm_finishes (Calm.bind (Calm.gets _) fun env => ?_))
    exact Calm.bind (Calm.bind (Calm.gets _) fun _ => Calm.pure _) fun args =>
      calm_hrangeArgs fuel args _
  | hlock =>
    exact hother (calm_finishes (Calm.bind (calm_hypercall fuel (by simp) (by simp)) fun _ =>
      Calm.pure 0))
  | check => exact hother (calm_finishes (calm_cmdCheck fuel argv))

/-! ### Processes -/

/-- The chain of calls ends at the command. -/
theorem dispatched_command {n last : Nat} {r : Option Cmd} (h : Dispatched argv i n last r) :
    command (argv.drop i) = r.map fun c => (c, argv.drop last) := by
  have hlookup_nil : lookup none = none := by decide
  induction h with
  | @unknown i hlookup =>
    cases hdrop : argv.drop i with
    | nil => rfl
    | cons a as =>
      rw [← List.head?_drop, hdrop, List.head?_cons] at hlookup
      simp only [command, hlookup, Option.map_none]
  | @found i c hlookup hc =>
    cases hdrop : argv.drop i with
    | nil =>
      rw [← List.head?_drop, hdrop, List.head?_nil, hlookup_nil] at hlookup
      cases hlookup
    | cons a as =>
      rw [← List.head?_drop, hdrop, List.head?_cons] at hlookup
      rw [← List.tail_drop, hdrop]
      cases c with
      | vmcall => exact absurd rfl hc
      | _ => simp only [command, hlookup, Option.map_some, List.tail_cons]
  | @nested i n last r hlookup hrest ih =>
    cases hdrop : argv.drop i with
    | nil =>
      rw [← List.head?_drop, hdrop, List.head?_nil, hlookup_nil] at hlookup
      cases hlookup
    | cons a as =>
      rw [← List.head?_drop, hdrop, List.head?_cons] at hlookup
      rw [← List.tail_drop, hdrop, List.tail_cons] at ih
      simp only [command, hlookup]
      exact ih

theorem dispatched_ne_vmcall {n last : Nat} {c : Cmd} (h : Dispatched argv i n last (some c)) :
    c ≠ .vmcall := by
  generalize hr : some c = r at h
  induction h with
  | unknown _ => cases hr
  | found _ hc =>
    cases hr
    exact hc
  | nested _ _ ih => exact ih hr

/-- `cmd_vmcall` hides that there was nothing to do. -/
theorem throughVmcall_finishes {P : World → Prop} {x : Guest Int} {job : Job}
    (h : Meets P x (Finished job s) (Stopped job s)) :
    ∀ n, Meets P (throughVmcall n x) (Finished job s) (Stopped job s)
  | 0 => h
  | n + 1 => by
    refine Meets.bind (throughVmcall_finishes h n) fun ret => Meets.ite (fun hinvalid => ?_)
      fun _ => Meets.pure fun _ h => h
    refine Meets.pure fun v hv => ?_
    obtain ⟨heffect, habort, hother⟩ := hv
    obtain rfl := hother hinvalid
    refine ⟨?_, habort, fun _ => rfl⟩
    generalize v.store = t at heffect ⊢
    cases heffect
    exact .other

/-- A process does its job. -/
theorem exec_job (inv : Invocation) (w : World) (hnyx : classifyCpuid inv.env.cpuid = .nyxCpuV1)
    (habort : w.host.abortReturns = false) (hbound : w.store.Bounded bound)
    (hstdin : inv.env.stdin.data.length ≤ bound) (hfuel : bound + 1 < fuel) :
    ∃ r v, w.exec fuel inv = (r, v) ∧ v.cwd = w.cwd ∧ (inv.job w.cwd).Effect r w.store v.store ∧
      ((∃ ret, r = .ok ret ∧ v.host.abortReturns = false) ∨ r = .error .aborted) := by
  obtain ⟨n, last, c, hcalls, hn, hlast⟩ :=
    Dispatched.exists_of_le inv.argv inv.argv.length 0 (Nat.zero_add _)
  have hmain : (vmcallMain fuel inv.argv).run (w.spawn inv.env) =
      (throughVmcall (n - 1) (lastCall fuel inv.argv c)).run
        { (w.spawn inv.env).started 0 with optind := last } := by
    rw [InvocationLemmas.vmcallMain_run]
    exact hcalls.run fuel hn rfl (Nat.zero_le _)
  have hjob : inv.job w.cwd =
      (c.map fun c => c.job inv.env w.cwd (inv.argv.drop last)).getD .other := by
    have hcommand := dispatched_command hcalls
    rw [List.drop_zero] at hcommand
    unfold Invocation.job
    rw [hcommand]
    cases c <;> rfl
  have hat : At inv.env w.cwd w.store { (w.spawn inv.env).started 0 with optind := last } :=
    ⟨rfl, rfl, rfl, hnyx, habort⟩
  have hlastCall : Meets (fun v => At inv.env w.cwd w.store v ∧ v.optind = last)
      (lastCall fuel inv.argv c) (Finished (inv.job w.cwd) w.store)
      (Stopped (inv.job w.cwd) w.store) := by
    rw [hjob]
    cases c with
    | none => exact Meets.pure fun _ h => finished_other h.1
    | some c => exact handler_finishes (dispatched_ne_vmcall hcalls) hbound hstdin hfuel hlast
  unfold World.exec
  rw [hmain]
  rcases (throughVmcall_finishes hlastCall (n - 1)).ends ⟨hat, rfl⟩ with
    ⟨ret, v, hrun, heffect, hreturns, -⟩ | ⟨e, v, hrun, rfl, heffect⟩
  · rw [hrun]
    exact ⟨.ok ret, _, rfl, rfl, heffect, .inl ⟨ret, rfl, hreturns⟩⟩
  · rw [hrun]
    exact ⟨.error .aborted, _, rfl, rfl, heffect, .inr rfl⟩

theorem streamed_bounded (name dst : Bytes) (kept sent : Nat) (h : s.Bounded bound) :
    (s.streamed name dst kept sent).Bounded bound := by
  refine ⟨fun path content hcontent => ?_, fun name' data hdata => ?_⟩
  · change Function.update s.files dst _ path = some content at hcontent
    rcases eq_or_ne path dst with rfl | hne
    · rw [Function.update_self] at hcontent
      cases hcontent
      refine Nat.le_trans (List.length_take_le' _ _) ?_
      cases hstream : s.streams name with
      | none => exact Nat.zero_le bound
      | some data => exact h.stream name data hstream
    · rw [Function.update_of_ne hne] at hcontent
      exact h.file path content hcontent
  · change Function.update s.streams name _ name' = some data at hdata
    rcases eq_or_ne name' name with rfl | hne
    · rw [Function.update_self] at hdata
      obtain ⟨data', hstream, rfl⟩ := Option.map_eq_some_iff.mp hdata
      rw [List.length_drop]
      exact Nat.le_trans (Nat.sub_le _ _) (h.stream name' data' hstream)
    · rw [Function.update_of_ne hne] at hdata
      exact h.stream name' data hdata

theorem foldl_get_bounded : ∀ (files : List (Bytes × Bytes)) {s : Store}, s.Bounded bound →
    (files.foldl Store.get s).Bounded bound
  | [], _, h => h
  | f :: files, _, h => foldl_get_bounded files (get_bounded f h)

/-- No job makes a file or a stream longer than all there are. -/
theorem effect_bounded {job : Job} {r : Except Stop Int} {t : Store} (heffect : job.Effect r s t)
    (h : s.Bounded bound) : t.Bounded bound := by
  cases heffect with
  | got _ _ => exact foldl_get_bounded _ h
  | partly _ _ _ _ => exact streamed_bounded _ _ _ _ (foldl_get_bounded _ h)
  | refused _ _ _ => exact foldl_get_bounded _ h
  | sent _ => exact ⟨h.file, h.stream⟩
  | unsent _ => exact h
  | cut _ => exact ⟨h.file, h.stream⟩
  | other => exact h

end TransferLemmas

open TransferLemmas

/-! ## 1. Sessions -/

/-- Every process of a script on a Nyx CPU does its job, whatever succeeds and however the calls
split the data; or the machine ends in the middle of it. -/
theorem session_jobs (bound fuel : Nat) (hfuel : bound + 1 < fuel) :
    ∀ (script : List Invocation) (w : World),
      (∀ i ∈ script, classifyCpuid i.env.cpuid = .nyxCpuV1) →
      (∀ i ∈ script, i.env.stdin.data.length ≤ bound) →
      w.host.abortReturns = false → w.store.Bounded bound →
      ∃ (rets : List Int) (ends : List (Except Stop Int)) (v : World),
        World.session fuel script w = (rets.map Except.ok ++ ends, v) ∧
        Job.Effects ((script.map fun i => i.job w.cwd).zip (rets.map Except.ok ++ ends))
          w.store v.store ∧
        (rets.length = script.length ∧ ends = [] ∨
          rets.length < script.length ∧ ends = [.error .aborted])
  | [], w, _, _, _, _ => ⟨[], [], w, rfl, .nil, .inl ⟨rfl, rfl⟩⟩
  | i :: script, w, hnyx, hstdin, habort, hbound => by
    obtain ⟨r, v, hexec, hcwd, heffect, ⟨ret, rfl, habort'⟩ | rfl⟩ :=
      exec_job i w (hnyx i List.mem_cons_self) habort hbound (hstdin i List.mem_cons_self) hfuel
    · obtain ⟨rets, ends, u, hsession, heffects, hends⟩ := session_jobs bound fuel hfuel script v
        (fun j hj => hnyx j (List.mem_cons_of_mem i hj))
        (fun j hj => hstdin j (List.mem_cons_of_mem i hj)) habort' (effect_bounded heffect hbound)
      rw [hcwd] at heffects
      refine ⟨ret :: rets, ends, u, ?_, .cons heffect heffects, ?_⟩
      · simp only [World.session, hexec, hsession]
        rfl
      · rcases hends with ⟨hlen, hnil⟩ | ⟨hlen, hlast⟩
        · exact .inl ⟨congrArg Nat.succ hlen, hnil⟩
        · exact .inr ⟨Nat.succ_lt_succ hlen, hlast⟩
    · refine ⟨[], [.error .aborted], v, ?_, .cons heffect ?_, .inr ⟨Nat.succ_pos _, rfl⟩⟩
      · simp only [World.session, hexec]
        rfl
      · show Job.Effects ((script.map fun i => i.job w.cwd).zip []) v.store v.store
        rw [List.zip_nil_right]
        exact .nil

/-- A script that fetches one file and pushes it again. -/
def copyScript (env : Env) : List Invocation :=
  [⟨[ascii "vmcall", ascii "hget", ascii "foo"], env⟩,
    ⟨[ascii "vmcall", ascii "hpush", ascii "foo"], env⟩]

theorem sharedFoo_bounded : sharedFooWorld.store.Bounded 3 := by
  refine ⟨fun path content h => ?_, fun name data h => ?_⟩
  · cases h
  change ((if name = ascii "foo" then some [1, 2, 3] else none).map
    fun content : Bytes => content.drop 0) = some data at h
  split at h
  · cases h
    exact Nat.le_refl 3
  · cases h

theorem session_jobs_foo :
    ∃ (rets : List Int) (ends : List (Except Stop Int)) (v : World),
      World.session 5 (copyScript Env.plain) sharedFooWorld = (rets.map Except.ok ++ ends, v) ∧
        Job.Effects (((copyScript Env.plain).map fun i => i.job []).zip
          (rets.map Except.ok ++ ends)) sharedFooWorld.store v.store ∧
        (rets.length = 2 ∧ ends = [] ∨ rets.length < 2 ∧ ends = [.error .aborted]) :=
  session_jobs 3 5 (by decide) (copyScript Env.plain) sharedFooWorld
    (by simp [copyScript]; decide) (by simp [copyScript, Env.plain]) rfl sharedFoo_bounded

/-! ## 2. There and back -/

/-- A shared file that is fetched to a local path and pushed to a dump file. -/
structure Copy where
  name : Bytes
  path : Bytes
  dump : Bytes

namespace TransferLemmas

variable {s t : Store}

/-- Files that were fetched to different places. -/
theorem foldl_get_files : ∀ (copies : List Copy) {s : Store},
    (copies.map Copy.name).Nodup → (copies.map Copy.path).Nodup →
    let t := (copies.map fun c => (c.name, c.path)).foldl Store.get s
    (∀ c ∈ copies, t.files c.path = s.streams c.name) ∧
      ∀ p, p ∉ copies.map Copy.path → t.files p = s.files p
  | [], _, _, _ => ⟨by simp, fun _ _ => rfl⟩
  | c :: copies, s, hnames, hpaths => by
    obtain ⟨hname, hnames⟩ := List.nodup_cons.mp hnames
    obtain ⟨hpath, hpaths⟩ := List.nodup_cons.mp hpaths
    obtain ⟨hfetched, hother⟩ := foldl_get_files copies (s := s.get (c.name, c.path)) hnames hpaths
    refine ⟨fun d hd => ?_, fun p hp => ?_⟩
    · rcases List.mem_cons.mp hd with rfl | hd
      · exact (hother d.path hpath).trans (Function.update_self ..)
      · refine (hfetched d hd).trans (Function.update_of_ne ?_ ..)
        intro (heq : d.name = c.name)
        rw [← heq] at hname
        exact hname (List.mem_map_of_mem hd)
    · refine (hother p (List.not_mem_of_not_mem_cons hp)).trans (Function.update_of_ne ?_ ..)
      exact List.ne_of_not_mem_cons hp

/-- Files that were pushed to different dump files. -/
theorem pushes_dumps : ∀ (copies : List Copy) {s t : Store},
    Job.Effects (copies.map fun c => (.push c.path c.dump false, .ok 0)) s t →
    (copies.map Copy.dump).Nodup →
    (∀ d, d ∉ copies.map Copy.dump → t.dumps d = s.dumps d) ∧
      ∀ c ∈ copies, ∀ content, s.files c.path = some content → content ≠ [] →
        t.dumps c.dump = some content
  | [], s, t, h, _ => by
    cases h
    exact ⟨fun _ _ => rfl, by simp⟩
  | c :: copies, s, t, h, hdumps => by
    obtain ⟨hdump, hdumps⟩ := List.nodup_cons.mp hdumps
    cases h with
    | cons heffect hrest =>
      cases heffect with
      | unsent hret => exact absurd rfl hret
      | @sent _ _ sent _ _ hsrc =>
        obtain ⟨hother, hpushed⟩ := pushes_dumps copies hrest hdumps
        refine ⟨fun d hd => ?_, fun e he content hcontent hne => ?_⟩
        · refine (hother d (List.not_mem_of_not_mem_cons hd)).trans (Function.update_of_ne ?_ ..)
          exact List.ne_of_not_mem_cons hd
        · rcases List.mem_cons.mp he with rfl | he
          · obtain rfl := Option.some.inj (hsrc.symm.trans hcontent)
            refine (hother e.dump hdump).trans ((Function.update_self ..).trans ?_)
            exact if_neg hne
          · exact hpushed e he content hcontent hne

theorem effect_get {files : List (Bytes × Bytes)} (h : Job.Effect (.get files) (.ok 0) s t) :
    (∀ f ∈ files, (s.streams f.1).isSome) ∧ t = files.foldl Store.get s := by
  generalize hr : (.ok 0 : Except Stop Int) = r at h
  cases h with
  | got _ hstreams => exact ⟨hstreams, rfl⟩
  | partly _ _ _ hret =>
    cases hr
    exact absurd rfl hret
  | refused _ _ hret =>
    cases hr
    exact absurd rfl hret

theorem zip_constant {α β : Type} {b : β} : ∀ {xs : List α} {ys : List β},
    ys.length = xs.length → (∀ y ∈ ys, y = b) → xs.zip ys = xs.map fun x => (x, b)
  | [], _, _, _ => List.zip_nil_left
  | x :: xs, y :: ys, hlen, hall => by
    obtain rfl := hall y List.mem_cons_self
    rw [List.zip_cons_cons, List.map_cons]
    refine congrArg _ (zip_constant (Nat.succ.inj hlen) fun z hz => ?_)
    exact hall z (List.mem_cons_of_mem _ hz)

end TransferLemmas

/-- Files that one process fetches and others push again are the same on both sides of the host,
if every process returns 0: nothing that went wrong is hidden by the status. -/
theorem session_roundTrip (bound fuel : Nat) (hfuel : bound + 1 < fuel) (fetch : Invocation)
    (pushes : List Invocation) (w : World) (copies : List Copy)
    (hnyx : ∀ i ∈ fetch :: pushes, classifyCpuid i.env.cpuid = .nyxCpuV1)
    (hstdin : ∀ i ∈ fetch :: pushes, i.env.stdin.data.length ≤ bound)
    (habort : w.host.abortReturns = false) (hbound : w.store.Bounded bound)
    (hfetch : fetch.job w.cwd = .get (copies.map fun c => (c.name, c.path)))
    (hpushes : pushes.map (fun i => i.job w.cwd) =
      copies.map fun c => .push c.path c.dump false)
    (hnames : (copies.map Copy.name).Nodup) (hpaths : (copies.map Copy.path).Nodup)
    (hdumps : (copies.map Copy.dump).Nodup) :
    let r := World.session fuel (fetch :: pushes) w
    (∀ ret ∈ r.1, ret = .ok 0) → ∀ c ∈ copies, ∃ content, w.store.streams c.name = some content ∧
      (content ≠ [] → r.2.store.dumps c.dump = some content) := by
  intro r hok c hc
  obtain ⟨rets, ends, v, hsession, heffects, hends⟩ :=
    session_jobs bound fuel hfuel (fetch :: pushes) w hnyx hstdin habort hbound
  have hr : r = (rets.map Except.ok ++ ends, v) := hsession
  rw [hr] at hok ⊢
  rcases hends with ⟨hlen, rfl⟩ | ⟨-, rfl⟩
  · rw [List.append_nil] at hok heffects
    cases rets with
    | nil => cases hlen
    | cons ret rets =>
      cases heffects with
      | @cons _ _ _ _ s _ hget hpush =>
        change (fetch.job w.cwd).Effect _ _ _ at hget
        rw [hok (.ok ret) List.mem_cons_self, hfetch] at hget
        obtain ⟨hstreams, rfl⟩ := effect_get hget
        change Job.Effects ((pushes.map fun i => i.job w.cwd).zip (rets.map Except.ok)) _ _ at hpush
        have hcount : (rets.map (.ok : Int → Except Stop Int)).length =
            (pushes.map fun i => i.job w.cwd).length := by
          rw [List.length_map, List.length_map]
          exact Nat.succ.inj hlen
        rw [zip_constant hcount fun ret hret => hok ret (List.mem_cons_of_mem _ hret), hpushes,
          List.map_map] at hpush
        obtain ⟨hfetched, -⟩ := foldl_get_files copies (s := w.store) hnames hpaths
        obtain ⟨content, hcontent⟩ := Option.isSome_iff_exists.mp
          (hstreams (c.name, c.path) (List.mem_map_of_mem hc))
        refine ⟨content, hcontent, fun hne => ?_⟩
        exact (pushes_dumps copies hpush hdumps).2 c hc content ((hfetched c hc).trans hcontent) hne
  · have hlast := hok (.error .aborted) (List.mem_append_right _ (List.mem_singleton_self _))
    cases hlast

/-- `foo` is fetched and pushed again. -/
theorem session_roundTrip_foo :
    (World.session 5 (copyScript Env.plain) sharedFooWorld).1 = [.ok 0, .ok 0] ∧
      (World.session 5 (copyScript Env.plain) sharedFooWorld).2.store.dumps (ascii "foo") =
        some [1, 2, 3] := by
  have hstatus : (World.session 5 (copyScript Env.plain) sharedFooWorld).1 = [.ok 0, .ok 0] := by
    decide +kernel
  refine ⟨hstatus, ?_⟩
  have hall : ∀ ret ∈ (World.session 5 (copyScript Env.plain) sharedFooWorld).1, ret = .ok 0 := by
    rw [hstatus]
    simp
  obtain ⟨content, hcontent, hdump⟩ := session_roundTrip 3 5 (by decide)
    ⟨[ascii "vmcall", ascii "hget", ascii "foo"], Env.plain⟩
    [⟨[ascii "vmcall", ascii "hpush", ascii "foo"], Env.plain⟩] sharedFooWorld
    [⟨ascii "foo", ascii "/foo", ascii "foo"⟩] (by simp; decide) (by simp [Env.plain]) rfl
    sharedFoo_bounded rfl rfl (by simp) (by simp) (by simp)
    hall ⟨ascii "foo", ascii "/foo", ascii "foo"⟩ List.mem_cons_self
  obtain rfl : [1, 2, 3] = content := Option.some.inj hcontent
  exact hdump (by decide)

end KaflTargets
