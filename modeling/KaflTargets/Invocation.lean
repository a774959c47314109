import KaflTargets.Guarded

/-!
# The two ways to invoke a command

The tool can be started under the name of a command, or as `vmcall` with the
command as its first argument. In the second form the argument vector and
`optind` are shifted by one, and nothing but the argument vector looks at
`optind`: the handlers of the two runs simulate each other. What differs is the
return value: `cmd_vmcall` takes `-EINVAL` for an unknown command and answers
it with the usage text and 0, whoever returned it.

Results:
1. `handler_sim`: a handler does the same in both forms.
2. `handler_invalid_iff`: when a handler returns `-EINVAL`.
3. `forms_agree_iff`: when the two forms agree.
-/

namespace KaflTargets

open CString Prog

/-! ## Definitions -/

/-- The commands a run was started with agree in what they did and in the
status they report to the parent process. -/
def FormsAgree (fuel : Nat) (c : Cmd) (args : List Bytes) (w : World) : Prop :=
  let direct := (vmcallMain fuel (c.name :: args)).run w
  let nested := (vmcallMain fuel (Cmd.vmcall.name :: c.name :: args)).run w
  nested.2.trace = direct.2.trace ∧ nested.1.map exitStatus = direct.1.map exitStatus

/-! ## 1. Handlers under a shift -/

namespace InvocationLemmas

theorem commutes_hprintf (text : Bytes) : Commutes World.shift (hprintf text) :=
  Commutes.bind (commutes_call _) fun _ => Commutes.pure ()

theorem commutes_habort (msg : String) : Commutes World.shift (habort msg) :=
  Commutes.bind (commutes_call _) fun _ => Commutes.pure ()

theorem commutes_read (fd addr count : Nat) : Commutes World.shift (read fd addr count) := by
  refine Commutes.of_run fun w => ?_
  have hfds : w.shift.fds = w.fds := rfl
  have henv : w.shift.env = w.env := rfl
  have htick : w.shift.tick = w.tick := rfl
  simp only [hfds, henv, htick]
  cases w.fds fd with
  | none => rfl
  | some f => cases w.env.read w.tick <;> rfl

theorem commutes_hpushRound (fd scratchBuf scratchSize : Nat) (srcPath dstName : Bytes)
    (b : UInt8 × Nat) :
    Commutes World.shift (hpushRound fd scratchBuf scratchSize srcPath dstName b) := by
  refine Commutes.bind (commutes_read _ _ _) fun bytes =>
    Commutes.bind (commutes_hprintf _) fun _ => Commutes.ite ?_ ?_
  · exact Commutes.bind (commutes_habort _) fun _ => Commutes.pure _
  · exact Commutes.ite (Commutes.pure _)
      (Commutes.bind (commutes_call _) fun _ => Commutes.pure _)

theorem commutes_hpushFile (fuel : Nat) (srcPath dstName : Bytes) (append : Nat) :
    Commutes World.shift (hpushFile fuel srcPath dstName append) := by
  have hend (buf : Nat) (ret : Int) (fd : Nat) : Commutes World.shift (do
      freeResidentPages buf (1024 * 1024 / PAGE_SIZE)
      close fd
      pure ret : Guest Int) :=
    Commutes.bind (guarded_freeResidentPages _ _).commutes fun _ =>
      Commutes.bind (Commutes.modify fun _ => rfl) fun _ => Commutes.pure ret
  refine Commutes.bind (guarded_openRead _).commutes fun fd => ?_
  cases fd with
  | none => exact Commutes.bind (Commutes.gets fun _ => rfl) fun _ => Commutes.pure _
  | some fd =>
    refine Commutes.bind (guarded_mallocResidentPages _).commutes fun scratchBuf =>
      Commutes.ite ?_ ?_
    · exact Commutes.bind (Commutes.gets fun _ => rfl) fun errno => hend _ _ _
    · exact Commutes.bind (Commutes.iter (commutes_hpushRound _ _ _ _ _) _ _) fun _ =>
        Commutes.bind (commutes_hprintf _) fun _ => hend _ _ _

/-! ### Handlers -/

variable {a : Bytes} {argv : List Bytes}

theorem sim_operands : Sim World.shift id (operands argv) (operands (a :: argv)) := fun _ => rfl

theorem sim_optind : Sim World.shift (· + 1) (gets (·.optind) : Guest Nat) (gets (·.optind)) :=
  Sim.gets fun _ => rfl

theorem argvAt_cons (i : Nat) : argvAt (a :: argv) (i + 1) = argvAt argv i := by
  simp only [argvAt, List.length_cons, Nat.add_le_add_iff_right, List.getElem?_cons_succ]

theorem sim_getoptAll (optstring : Bytes) :
    Sim World.shift (fun p => (p.1, a :: p.2)) (getoptAll optstring argv)
      (getoptAll optstring (a :: argv)) := by
  intro w
  simp only [getoptAll, World.shift, List.drop_succ_cons, List.take_succ_cons, List.cons_append,
    Except.map, Nat.add_right_comm]

theorem sim_cmdHcat (fuel : Nat) :
    Sim World.shift id (cmdHcat fuel argv) (cmdHcat fuel (a :: argv)) := by
  refine Sim.bind (Commutes.gets fun _ => rfl) fun env => ?_
  have hfiles (n : Int) : Sim World.shift id
      (do let files ← operands argv; hcatFiles fuel files (sizeAdd 0 n) : Guest Int)
      (do let files ← operands (a :: argv); hcatFiles fuel files (sizeAdd 0 n)) :=
    Sim.bind sim_operands fun files => (guarded_hcatFiles fuel files _).commutes
  refine Sim.ite Iff.rfl ?_ ?_
  · exact Sim.bind (Commutes.pure 0) hfiles
  · exact Sim.bind (guarded_hprintfFromFile fuel _).commutes hfiles

theorem sim_cmdHabort (fuel : Nat) :
    Sim World.shift id (cmdHabort fuel argv) (cmdHabort fuel (a :: argv)) := by
  refine Sim.bind sim_optind fun optind => ?_
  rw [argvAt_cons]
  refine Sim.bind (guarded_argvAt _ optind).commutes fun msg => ?_
  cases msg with
  | none => exact Sim.bind (guarded_habortMsg fuel _).commutes fun _ => Commutes.pure 0
  | some msg => exact Sim.bind (guarded_habortMsg fuel _).commutes fun _ => Commutes.pure 0

theorem sim_cmdHpanic (fuel : Nat) :
    Sim World.shift id (cmdHpanic fuel argv) (cmdHpanic fuel (a :: argv)) := by
  refine Sim.bind sim_optind fun optind => ?_
  rw [argvAt_cons]
  refine Sim.bind (guarded_argvAt _ optind).commutes fun msg => ?_
  cases msg with
  | none => exact Sim.bind (guarded_hypercall fuel _).commutes fun _ => Commutes.pure 0
  | some msg => exact Sim.bind (guarded_hypercall fuel _).commutes fun _ => Commutes.pure 0

theorem sim_cmdHget (fuel : Nat) :
    Sim World.shift id (cmdHget fuel argv) (cmdHget fuel (a :: argv)) := by
  refine Sim.bind (sim_getoptAll _) fun scanned => ?_
  obtain ⟨items, argv'⟩ := scanned
  dsimp only
  cases hgetOptions items (0o664, none) with
  | none => exact Commutes.pure _
  | some opts =>
    obtain ⟨fmode, dstRoot⟩ := opts
    have hfiles (ret : Int) : Sim World.shift id
        (if ret ≠ 0 then do
            let errno ← gets (·.errno)
            pure (errno : Int)
          else do let files ← operands argv'; hgetFiles fuel fmode files : Guest Int)
        (if ret ≠ 0 then do
            let errno ← gets (·.errno)
            pure (errno : Int)
          else do let files ← operands (a :: argv'); hgetFiles fuel fmode files) :=
      Sim.ite Iff.rfl
        (Commutes.bind (Commutes.gets fun _ => rfl) fun _ => Commutes.pure _)
        (Sim.bind sim_operands fun files => (guarded_hgetFiles fuel fmode files).commutes)
    dsimp only
    refine Sim.bind sim_optind fun optind => Sim.ite ?_ (Commutes.pure _) ?_
    · simp only [List.length_cons, ge_iff_le, Nat.add_le_add_iff_right]
    · cases dstRoot with
      | none => exact Sim.bind (Commutes.pure 0) hfiles
      | some dir => exact Sim.bind (guarded_chdir dir).commutes hfiles

theorem sim_cmdHpush (fuel : Nat) :
    Sim World.shift id (cmdHpush fuel argv) (cmdHpush fuel (a :: argv)) := by
  refine Sim.bind (sim_getoptAll _) fun scanned => ?_
  obtain ⟨items, argv'⟩ := scanned
  dsimp only
  cases hpushOptions items (false, none) with
  | none => exact Commutes.pure _
  | some opts =>
    obtain ⟨append, dstName⟩ := opts
    dsimp only
    refine Sim.bind sim_optind fun optind => Sim.ite ?_ (Commutes.pure _) ?_
    · simp only [List.length_cons, ne_eq, Nat.add_right_cancel_iff]
    · rw [argvAt_cons]
      refine Sim.bind (guarded_argvAt _ optind).commutes fun srcPath => ?_
      cases srcPath with
      | none => exact Commutes.stop _
      | some srcPath => cases dstName <;> exact commutes_hpushFile _ _ _ _

theorem sim_cmdHrange (fuel : Nat) :
    Sim World.shift id (cmdHrange fuel argv) (cmdHrange fuel (a :: argv)) :=
  Sim.bind (Commutes.gets fun _ => rfl) fun _ =>
    Sim.bind sim_operands fun args => (guarded_hrangeArgs fuel args _).commutes

end InvocationLemmas

open InvocationLemmas

/-- With one more argument in front and `optind` one further on, a handler does
the same. -/
theorem handler_sim (fuel : Nat) (c : Cmd) (a : Bytes) (argv : List Bytes) :
    Sim World.shift id (handler fuel c argv) (handler fuel c (a :: argv)) := by
  cases c with
  | vmcall => exact Commutes.pure _
  | hcat => exact sim_cmdHcat fuel
  | habort => exact sim_cmdHabort fuel
  | hget => exact sim_cmdHget fuel
  | hpush => exact sim_cmdHpush fuel
  | hpanic => exact sim_cmdHpanic fuel
  | hrange => exact sim_cmdHrange fuel
  | hlock => exact Commutes.bind (guarded_hypercall fuel _).commutes fun _ => Commutes.pure 0
  | check => exact (guarded_cmdCheck fuel argv).commutes

/-! ## 2. Handlers that return `-EINVAL` -/

/-- What `hprintf_from_file` returns for a stream. -/
def FILE.count (f : FILE) : Int :=
  if f.eof then 0 else if f.error || f.failing then -1 else f.data.length

/-- The stream `fopen` returns when `k` other calls with a path come before it. -/
def World.stream (w : World) (k : Nat) (path : Bytes) : Option FILE :=
  match w.env.openErr (w.lookups + k) path, w.files (w.resolve path) with
  | none, some file =>
    match w.env.streamErr (w.lookups + k) path with
    | none => some { data := file.content }
    | some n => some { data := file.content.take n, failing := true }
  | _, _ => none

/-- The streams of `hcat`: standard input, unless it is a terminal, and its
arguments. A stream that cannot be opened is `none`. -/
def World.streams (w : World) (args : List Bytes) : List (Option FILE) :=
  (if w.env.isatty then [] else [some w.env.stdin]) ++ args.mapIdx w.stream

/-- The option characters of an option list. -/
def GetoptItem.known (chars : List UInt8) : GetoptItem → Bool
  | .opt c _ => c ∈ chars
  | .bad => false

/-- An argument of `hrange` that is submitted. -/
def RangeArgument (a : Bytes) : Prop :=
  ∃ id start stop, Scanf.sscanf hrangeFormat a = (3, [.num id, .num start, .num stop]) ∧
    id ≤ 3 ∧ start < stop

/-- The arguments a command rejects with `-EINVAL`: for `hget` and `hpush` an
unknown option or the wrong number of operands, for `hrange` an argument that is
not a range. `hcat` returns a byte count as an `int` when it cannot open a file,
and that count can be `-EINVAL`, too. -/
def Misused (c : Cmd) (args : List Bytes) (w : World) : Prop :=
  match c with
  | .hget =>
    let scan := w.env.getopt.scan (ascii "xo:") args
    (∃ item ∈ scan.items, item.known [120, 111] = false) ∨ args.length ≤ scan.ind
  | .hpush =>
    let scan := w.env.getopt.scan (ascii "ao:") args
    (∃ item ∈ scan.items, item.known [97, 111] = false) ∨ scan.ind + 1 ≠ args.length
  | .hrange => ∃ a ∈ args, ¬RangeArgument a
  | .hcat =>
    ∃ (opened : List FILE) (rest : List (Option FILE)),
      w.streams args = opened.map some ++ none :: rest ∧
      (opened.map FILE.count).sum % 2 ^ 32 = 2 ^ 32 - EINVAL
  | _ => False

/-- The parts of the world that the handlers of `vmcall` look at before they
return `-EINVAL` are as in `w`. -/
structure SameInputs (w w' : World) : Prop where
  env : w'.env = w.env
  files : w'.files = w.files
  cwd : w'.cwd = w.cwd
  cpu : w'.nyxCpuType = w.nyxCpuType
  ind : w'.optind = w.optind
  lookups : w'.lookups = w.lookups

theorem SameInputs.refl (w : World) : SameInputs w w := ⟨rfl, rfl, rfl, rfl, rfl, rfl⟩

theorem SameInputs.trans {w w' w'' : World} (h : SameInputs w w') (h' : SameInputs w' w'') :
    SameInputs w w'' :=
  ⟨h'.env.trans h.env, h'.files.trans h.files, h'.cwd.trans h.cwd, h'.cpu.trans h.cpu,
    h'.ind.trans h.ind, h'.lookups.trans h.lookups⟩

theorem SameInputs.called {w w' : World} (h : SameInputs w w') : SameInputs w.called w'.called :=
  ⟨h.env, h.files, h.cwd, h.cpu, h.ind, congrArg (· + 1) h.lookups⟩

theorem SameInputs.stream {w w' : World} (h : SameInputs w w') (k : Nat) (path : Bytes) :
    w'.stream k path = w.stream k path := by
  simp only [World.stream, World.resolve, h.env, h.files, h.cwd, h.lookups]

theorem called_stream (w : World) : w.called.stream = fun k => w.stream (k + 1) := by
  funext k path
  simp only [World.stream, World.called, World.resolve, Nat.add_assoc, Nat.add_comm 1 k]

namespace InvocationLemmas

theorem sameInputs_vmcall (w : World) (call : Hypercall) : SameInputs w (w.vmcall call).2 := by
  cases call
  case reqStreamDataBulk req =>
    simp only [World.vmcall, World.react]
    split <;> exact ⟨rfl, rfl, rfl, rfl, rfl, rfl⟩
  all_goals exact ⟨rfl, rfl, rfl, rfl, rfl, rfl⟩

/-- With a known CPU type, `hypercall` returns for every call but
`USER_ABORT`. -/
theorem hypercall_returns {w : World} (hcpu : w.nyxCpuType ≠ .nyxCpuInvalid) (fuel : Nat)
    {call : Hypercall} (hcall : ∀ msg, call ≠ .userAbort msg) :
    ∃ r w', (hypercall fuel call).run w = (.ok r, w') ∧ SameInputs w w' := by
  have hskip : SameInputs w { w with trace := w.trace ++ [.skipped call] } :=
    ⟨rfl, rfl, rfl, rfl, rfl, rfl⟩
  cases ht : w.nyxCpuType with
  | nyxCpuInvalid => exact absurd ht hcpu
  | nyxCpuV1 =>
    refine ⟨(w.vmcall call).1, (w.vmcall call).2, ?_, sameInputs_vmcall w call⟩
    rw [hypercall_run_v1 ht, kAFLHypercall_run hcall]
  | nyxCpuV2 => exact ⟨0, _, hypercall_run_skipped (.inl ht) fuel call, hskip⟩
  | nyxCpuNone => exact ⟨0, _, hypercall_run_skipped (.inr ht) fuel call, hskip⟩

/-! ### `hcat` -/

theorem fopen_run (w : World) (path : Bytes) :
    ∃ w', (fopen path).run w = (.ok (w.stream 0 path), w') ∧ SameInputs w.called w' := by
  cases hopen : w.env.openErr w.lookups path with
  | some e =>
    refine ⟨{ w.called with errno := e.val }, ?_, rfl, rfl, rfl, rfl, rfl, rfl⟩
    simp [fopen, World.stream, hopen]
  | none =>
    cases hfile : w.files (w.resolve path) with
    | none =>
      refine ⟨{ w.called with errno := 2 }, ?_, rfl, rfl, rfl, rfl, rfl, rfl⟩
      simp [fopen, World.stream, hopen, hfile]
    | some file =>
      refine ⟨w.called, ?_, SameInputs.refl w.called⟩
      cases herr : w.env.streamErr w.lookups path <;>
        simp [fopen, World.stream, hopen, hfile, herr]

/-- One round on a stream that is not at its end, nor failing already. -/
theorem hprintfRound_returns {w : World} (hcpu : w.nyxCpuType ≠ .nyxCpuInvalid) (fuel : Nat)
    {f : FILE} (heof : f.eof = false) (written : Nat) :
    ∃ w', SameInputs w w' ∧ (hprintfRound fuel (f, written)).run w =
      (.ok (if (f.fread HPRINTF_MAX_SIZE).2.error then .inr (-1)
        else .inl ((f.fread HPRINTF_MAX_SIZE).2,
          written + (f.fread HPRINTF_MAX_SIZE).1.length)), w') := by
  generalize hread : f.fread HPRINTF_MAX_SIZE = p
  obtain ⟨bytes, f'⟩ := p
  obtain ⟨w1, hw1⟩ : ∃ w1, w1 =
      { w with hprintfBuffer := overwrite w.hprintfBuffer 0 bytes } := ⟨_, rfl⟩
  have hsame1 : SameInputs w w1 := by
    subst hw1
    exact ⟨rfl, rfl, rfl, rfl, rfl, rfl⟩
  cases herr : f'.error with
  | true =>
    refine ⟨w1, hsame1, ?_⟩
    simp [hprintfRound, heof, hread, Prog.run_bind, herr, hw1]
  | false =>
    have hcpu1 : w1.nyxCpuType ≠ .nyxCpuInvalid := by rwa [hsame1.cpu]
    obtain ⟨r, w2, hcall, hsame2⟩ :=
      @hypercall_returns w1 hcpu1 fuel (.printf w1.hprintfBuffer) (by simp)
    refine ⟨w2, hsame1.trans hsame2, ?_⟩
    have hmod : (Prog.modify fun w : World =>
        { w with hprintfBuffer := overwrite w.hprintfBuffer 0 bytes } : Guest Unit).run w =
        (.ok (), w1) := by
      rw [hw1, Prog.run_modify]
    have hget : (Prog.gets (·.hprintfBuffer) : Guest Bytes).run w1 = (.ok w1.hprintfBuffer, w1) :=
      rfl
    simp only [hprintfRound, heof, hread, Prog.run_bind_ok hmod, herr, Bool.false_eq_true, if_false,
      Prog.run_bind_ok hget, Prog.run_bind_ok hcall, Prog.run_pure]

/-- A bound on the rounds for a stream. -/
def streamRounds (f : FILE) : Nat := if f.eof then 1 else f.data.length / HPRINTF_MAX_SIZE + 2

theorem streamRounds_pos (f : FILE) : 0 < streamRounds f := by
  unfold streamRounds
  split
  · exact Nat.one_pos
  · exact Nat.succ_pos _

theorem streamRounds_full {f : FILE} (heof : f.eof = false)
    (hlen : HPRINTF_MAX_SIZE ≤ f.data.length) :
    streamRounds { f with data := f.data.drop HPRINTF_MAX_SIZE } + 1 = streamRounds f := by
  have hdiv : (f.data.drop HPRINTF_MAX_SIZE).length / HPRINTF_MAX_SIZE + 1 =
      f.data.length / HPRINTF_MAX_SIZE := by
    rw [List.length_drop, ← Nat.div_eq_sub_div (by decide) hlen]
  simp only [streamRounds, heof, Bool.false_eq_true, if_false]
  rw [← hdiv]

theorem streamRounds_end {f : FILE} (heof : f.eof = false) : 2 ≤ streamRounds f := by
  simp only [streamRounds, heof, Bool.false_eq_true, if_false]
  exact Nat.le_add_left 2 _

/-- The value of `hprintf_from_file` after `written` bytes. -/
def countFrom (f : FILE) (written : Nat) : Int :=
  if f.eof then written
  else if f.error || f.failing then -1
  else ((written + f.data.length : Nat) : Int)

/-- The loop of `hprintf_from_file`, by induction on the bound: every full
round shortens the data by `HPRINTF_MAX_SIZE` bytes. -/
theorem streamLoop_returns (inner : Nat) : ∀ (fuel : Nat) (f : FILE) (written : Nat) {w : World},
    w.nyxCpuType ≠ .nyxCpuInvalid → streamRounds f ≤ fuel →
    ∃ w', SameInputs w w' ∧ (Prog.iter .timeout (hprintfRound inner) fuel (f, written)).run w =
      (.ok (countFrom f written), w')
  | 0, f, written, w, _, hfuel => absurd (streamRounds_pos f) (Nat.not_lt.mpr hfuel)
  | fuel + 1, f, written, w, hcpu, hfuel => by
    cases heof : f.eof with
    | true =>
      refine ⟨w, SameInputs.refl w, Prog.run_iter_done ?_⟩
      simp [hprintfRound, heof, countFrom]
    | false =>
      obtain ⟨w1, hsame, hrun⟩ := hprintfRound_returns hcpu inner heof written
      have hcpu1 : w1.nyxCpuType ≠ .nyxCpuInvalid := by rwa [hsame.cpu]
      by_cases hlen : HPRINTF_MAX_SIZE ≤ f.data.length
      · simp only [FILE.fread, if_pos hlen] at hrun
        cases herr : f.error with
        | true =>
          rw [if_pos herr] at hrun
          refine ⟨w1, hsame, ?_⟩
          rw [Prog.run_iter_done hrun]
          simp [countFrom, heof, herr]
        | false =>
          rw [if_neg (by simp [herr])] at hrun
          have hrounds := streamRounds_full heof hlen
          obtain ⟨w2, hsame2, hrun2⟩ := streamLoop_returns inner fuel
            { f with data := f.data.drop HPRINTF_MAX_SIZE }
            (written + (f.data.take HPRINTF_MAX_SIZE).length) hcpu1 (by omega)
          have hsum : written + (f.data.take HPRINTF_MAX_SIZE).length +
              (f.data.drop HPRINTF_MAX_SIZE).length = written + f.data.length := by
            rw [Nat.add_assoc, ← List.length_append, List.take_append_drop]
          refine ⟨w2, hsame.trans hsame2, ?_⟩
          rw [Prog.run_iter_again hrun, hrun2]
          simp only [countFrom, heof, herr, hsum, Bool.false_eq_true, if_false]
      · simp only [FILE.fread, if_neg hlen] at hrun
        cases hbad : f.error || f.failing with
        | true =>
          rw [if_pos hbad] at hrun
          refine ⟨w1, hsame, ?_⟩
          rw [Prog.run_iter_done hrun]
          simp [countFrom, heof, hbad]
        | false =>
          rw [if_neg (by simp [hbad])] at hrun
          obtain ⟨herr, hfail⟩ := Bool.or_eq_false_iff.mp hbad
          have htwo := streamRounds_end heof
          have hone : streamRounds { f with
              data := [], eof := f.eof || !f.failing, error := f.error || f.failing } = 1 := by
            simp [streamRounds, heof, hfail]
          obtain ⟨w2, hsame2, hrun2⟩ := streamLoop_returns inner fuel
            { f with data := [], eof := f.eof || !f.failing, error := f.error || f.failing }
            (written + f.data.length) hcpu1 (by omega)
          refine ⟨w2, hsame.trans hsame2, ?_⟩
          rw [Prog.run_iter_again hrun, hrun2]
          simp [countFrom, heof, herr, hfail]

theorem hprintfFromFile_returns {w : World} (hcpu : w.nyxCpuType ≠ .nyxCpuInvalid) {f : FILE}
    {fuel : Nat} (hfuel : streamRounds f ≤ fuel) :
    ∃ w', SameInputs w w' ∧ (hprintfFromFile fuel f).run w = (.ok f.count, w') := by
  have hcount : countFrom f 0 = f.count := by simp [countFrom, FILE.count]
  obtain ⟨w', hsame, hrun⟩ := streamLoop_returns fuel fuel f 0 hcpu hfuel
  exact ⟨w', hsame, by rw [hprintfFromFile, hrun, hcount]⟩

theorem toInt_eq (n : Nat) :
    toInt n = if (n : Int) % 4294967296 < 2147483648 then (n : Int) % 4294967296
      else (n : Int) % 4294967296 - 4294967296 :=
  Int.bmod_def (n : Int) 4294967296

/-- The byte count of `hcat` is `-EINVAL` as an `int`. -/
theorem toInt_eq_invalid_iff {written : Nat} {total : Int}
    (h : (written : Int) % 2 ^ 32 = total % 2 ^ 32) :
    toInt written = -EINVAL ↔ total % 2 ^ 32 = 2 ^ 32 - EINVAL := by
  have hpow : (2 : Int) ^ 32 = 4294967296 := by decide
  rw [← h, toInt_eq, hpow, EINVAL]
  split <;> omega

theorem sizeAdd_mod {written : Nat} {total n : Int}
    (h : (written : Int) % 2 ^ 32 = total % 2 ^ 32) :
    ((sizeAdd written n : Nat) : Int) % 2 ^ 32 = (total + n) % 2 ^ 32 := by
  simp only [sizeAdd]
  omega

end InvocationLemmas

/-- What `cmd_hcat` returns for its streams after `written` bytes. -/
def hcatValue : List (Option FILE) → Nat → Int
  | [], written => if written > 0 then 0 else 1
  | none :: _, written => toInt written
  | some f :: streams, written => hcatValue streams (sizeAdd written f.count)

namespace InvocationLemmas

/-- The file loop of `hcat`, by induction on the files. -/
theorem hcatFiles_run : ∀ (files : List Bytes) {w : World}, w.nyxCpuType ≠ .nyxCpuInvalid →
    ∃ bound, ∀ fuel ≥ bound, ∀ (w' : World) (written : Nat), SameInputs w w' →
      ∃ w'', (hcatFiles fuel files written).run w' =
        (.ok (hcatValue (files.mapIdx w.stream) written), w'')
  | [], _, _ => ⟨0, fun fuel _ w' written _ => ⟨w', rfl⟩⟩
  | a :: as, w, hcpu => by
    obtain ⟨bound, ih⟩ := hcatFiles_run as (w := w.called) hcpu
    rw [called_stream] at ih
    cases hstream : w.stream 0 a with
    | none =>
      refine ⟨0, fun fuel _ w' written hsame => ?_⟩
      obtain ⟨w1, hrun, -⟩ := fopen_run w' a
      rw [hsame.stream, hstream] at hrun
      refine ⟨w1, ?_⟩
      simp only [hcatFiles, Prog.run_bind_ok hrun, Prog.run_pure, List.mapIdx_cons, hstream,
        hcatValue]
    | some f =>
      refine ⟨max bound (streamRounds f), fun fuel hfuel w' written hsame => ?_⟩
      obtain ⟨w1, hrun, hsame1⟩ := fopen_run w' a
      rw [hsame.stream, hstream] at hrun
      have hcpu1 : w1.nyxCpuType ≠ .nyxCpuInvalid := by
        rw [hsame1.cpu, hsame.called.cpu]
        exact hcpu
      obtain ⟨w2, hsame2, hrun2⟩ := hprintfFromFile_returns hcpu1
        (Nat.le_trans (Nat.le_max_right _ _) hfuel)
      obtain ⟨w3, hrun3⟩ := ih fuel (Nat.le_trans (Nat.le_max_left _ _) hfuel) w2
        (sizeAdd written f.count) ((hsame.called.trans hsame1).trans hsame2)
      refine ⟨w3, ?_⟩
      simp only [hcatFiles, Prog.run_bind_ok hrun, Prog.run_bind_ok hrun2, hrun3,
        List.mapIdx_cons, hstream, hcatValue]

end InvocationLemmas

/-- `cmd_hcat` ends and returns a function of its streams. -/
theorem cmdHcat_run {w : World} (hcpu : w.nyxCpuType ≠ .nyxCpuInvalid) (argv : List Bytes) :
    ∃ bound, ∀ fuel ≥ bound, ∃ w',
      (cmdHcat fuel argv).run w = (.ok (hcatValue (w.streams (argv.drop w.optind)) 0), w') := by
  obtain ⟨bound, hfiles⟩ := hcatFiles_run (argv.drop w.optind) hcpu
  refine ⟨max bound (streamRounds w.env.stdin), fun fuel hfuel => ?_⟩
  have hbound := Nat.le_trans (Nat.le_max_left _ _) hfuel
  have hrest (w' : World) (n : Int) (hind : w'.optind = w.optind) :
      (do let files ← operands argv; hcatFiles fuel files (sizeAdd 0 n) : Guest Int).run w' =
        (hcatFiles fuel (argv.drop w.optind) (sizeAdd 0 n)).run w' := by
    rw [← hind]
    rfl
  have henv : (gets (·.env) : Guest Env).run w = (.ok w.env, w) := rfl
  cases htty : w.env.isatty with
  | true =>
    obtain ⟨w', hrun⟩ := hfiles fuel hbound w (sizeAdd 0 0) (SameInputs.refl w)
    refine ⟨w', ?_⟩
    rw [cmdHcat, Prog.run_bind_ok henv, htty, World.streams, htty]
    exact (hrest w 0 rfl).trans hrun
  | false =>
    obtain ⟨w1, hsame, hrun1⟩ := hprintfFromFile_returns hcpu
      (Nat.le_trans (Nat.le_max_right _ _) hfuel)
    obtain ⟨w', hrun⟩ := hfiles fuel hbound w1 (sizeAdd 0 w.env.stdin.count) hsame
    refine ⟨w', ?_⟩
    rw [cmdHcat, Prog.run_bind_ok henv, htty, if_neg (by decide), Prog.run_bind_ok hrun1,
      hrest w1 _ hsame.ind, hrun, World.streams, htty]
    rfl

namespace InvocationLemmas

theorem hcatValue_invalid_iff : ∀ (streams : List (Option FILE)) (written : Nat) (total : Int),
    (written : Int) % 2 ^ 32 = total % 2 ^ 32 →
    (hcatValue streams written = -EINVAL ↔
      ∃ (opened : List FILE) (rest : List (Option FILE)),
        streams = opened.map some ++ none :: rest ∧
        (total + (opened.map FILE.count).sum) % 2 ^ 32 = 2 ^ 32 - EINVAL)
  | [], written, total, hmod => by
    constructor
    · intro h
      simp only [hcatValue, EINVAL] at h
      split at h <;> omega
    · rintro ⟨opened, rest, heq, -⟩
      exact absurd heq.symm (by simp)
  | none :: streams, written, total, hmod => by
    rw [hcatValue, toInt_eq_invalid_iff hmod]
    constructor
    · intro h
      exact ⟨[], streams, rfl, by simpa using h⟩
    · rintro ⟨opened, rest, heq, hsum⟩
      cases opened with
      | nil => simpa using hsum
      | cons f opened => exact absurd heq (by simp)
  | some f :: streams, written, total, hmod => by
    rw [hcatValue, hcatValue_invalid_iff streams _ (total + f.count) (sizeAdd_mod hmod)]
    constructor
    · rintro ⟨opened, rest, rfl, hsum⟩
      refine ⟨f :: opened, rest, rfl, ?_⟩
      rw [List.map_cons, List.sum_cons, ← Int.add_assoc]
      exact hsum
    · rintro ⟨opened, rest, heq, hsum⟩
      cases opened with
      | nil => exact absurd heq (by simp)
      | cons g opened =>
        obtain ⟨hfg, rfl⟩ := List.cons.inj heq
        obtain rfl := Option.some.inj hfg
        refine ⟨opened, rest, rfl, ?_⟩
        rw [List.map_cons, List.sum_cons, ← Int.add_assoc] at hsum
        exact hsum

theorem cmdHcat_invalid_iff {w : World} (hcpu : w.nyxCpuType ≠ .nyxCpuInvalid) (argv : List Bytes) :
    ∃ bound, ∀ fuel ≥ bound, (((cmdHcat fuel argv).run w).1 = .ok (-EINVAL) ↔
      Misused .hcat (argv.drop w.optind) w) := by
  obtain ⟨bound, hrun⟩ := cmdHcat_run hcpu argv
  refine ⟨bound, fun fuel hfuel => ?_⟩
  obtain ⟨w', hrun⟩ := hrun fuel hfuel
  have hiff := hcatValue_invalid_iff (w.streams (argv.drop w.optind)) 0 0 rfl
  simp only [Int.zero_add] at hiff
  rw [hrun, Except.ok.injEq, hiff, Misused]

/-! ### `hget` and `hpush` -/

theorem hgetOptions_eq_none_iff (items : List GetoptItem) : ∀ st : Nat × Option Bytes,
    hgetOptions items st = none ↔ ∃ item ∈ items, item.known [120, 111] = false := by
  induction items with
  | nil => simp [hgetOptions]
  | cons item items ih =>
    rintro ⟨fmode, dstRoot⟩
    cases item with
    | bad => simp [hgetOptions, GetoptItem.known]
    | opt c arg =>
      simp only [hgetOptions]
      by_cases hx : c = 120
      · simp [hx, ih, GetoptItem.known]
      · by_cases ho : c = 111
        · simp [ho, ih, GetoptItem.known]
        · simp [hx, ho, GetoptItem.known]

theorem hpushOptions_eq_none_iff (items : List GetoptItem) : ∀ st : Bool × Option Bytes,
    hpushOptions items st = none ↔ ∃ item ∈ items, item.known [97, 111] = false := by
  induction items with
  | nil => simp [hpushOptions]
  | cons item items ih =>
    rintro ⟨append, dstName⟩
    cases item with
    | bad => simp [hpushOptions, GetoptItem.known]
    | opt c arg =>
      simp only [hpushOptions]
      by_cases ha : c = 97
      · simp [ha, ih, GetoptItem.known]
      · by_cases ho : c = 111
        · simp [ho, ih, GetoptItem.known]
        · simp [ha, ho, GetoptItem.known]

/-- A count or an `errno` is no negative error. -/
theorem natCast_ne_invalid (n : Nat) : (n : Int) ≠ -EINVAL := by
  simp only [EINVAL]
  omega

theorem hgetFile_valid (fuel : Nat) (srcPath : Bytes) (flags : Nat) :
    Returns (· ≠ -EINVAL) (hgetFile fuel srcPath flags) := by
  refine Returns.seq fun scratchBuf => Returns.seq fun _ =>
    Returns.ite (Returns.seq fun _ => Returns.seq fun fd => ?_) (Returns.pure (by decide))
  cases fd with
  | none => exact Returns.seq fun errno => Returns.pure (natCast_ne_invalid errno)
  | some fd =>
    refine Returns.bind (V := (· ≠ -EINVAL)) (Returns.iter (fun b => ?_) _ _) fun ret hret =>
      Returns.seq fun _ => Returns.seq fun _ => Returns.pure hret
    have herr : (- EIO : Int) ≠ -EINVAL := by decide
    have hzero : (0 : Int) ≠ -EINVAL := by decide
    refine Returns.seq fun reqFile => Returns.seq fun read => Returns.ite (Returns.pure herr) ?_
    refine Returns.seq fun ret => Returns.ite (Returns.pure herr) ?_
    exact Returns.ite (Returns.pure trivial) (Returns.pure hzero)

theorem hgetFiles_valid (fuel fmode : Nat) : ∀ files : List Bytes,
    Returns (· ≠ -EINVAL) (hgetFiles fuel fmode files)
  | [] => Returns.pure (by decide)
  | a :: as =>
    Returns.bind (hgetFile_valid fuel a fmode) fun _ hret =>
      Returns.ite (Returns.pure hret) (hgetFiles_valid fuel fmode as)

theorem hpushFile_valid (fuel : Nat) (srcPath dstName : Bytes) (append : Nat) :
    Returns (· ≠ -EINVAL) (hpushFile fuel srcPath dstName append) := by
  have hend (buf fd : Nat) {ret : Int} (hret : ret ≠ -EINVAL) : Returns (· ≠ -EINVAL) (do
      freeResidentPages buf (1024 * 1024 / PAGE_SIZE)
      close fd
      pure ret : Guest Int) :=
    Returns.seq fun _ => Returns.seq fun _ => Returns.pure hret
  refine Returns.seq fun fd => ?_
  cases fd with
  | none => exact Returns.seq fun errno => Returns.pure (natCast_ne_invalid errno)
  | some fd =>
    refine Returns.seq fun scratchBuf => Returns.ite ?_ ?_
    · exact Returns.seq fun errno => hend _ _ (natCast_ne_invalid errno)
    · exact Returns.seq fun _ => Returns.seq fun _ => hend _ _ (by decide)

/-- After the options of a scan, the operands are the arguments `getopt` left
behind `optind`. -/
theorem getoptAll_run {w : World} {argv : List Bytes} (optstring : Bytes)
    (hind : w.optind ≤ argv.length) :
    ∃ argv', argv'.length = argv.length ∧
      argv'.drop w.optind = (w.env.getopt.scan optstring (argv.drop w.optind)).args ∧
      (getoptAll optstring argv).run w =
        (.ok ((w.env.getopt.scan optstring (argv.drop w.optind)).items, argv'),
          { w with optind :=
            w.optind + (w.env.getopt.scan optstring (argv.drop w.optind)).ind }) := by
  refine ⟨argv.take w.optind ++ (w.env.getopt.scan optstring (argv.drop w.optind)).args,
    ?_, ?_, rfl⟩
  · rw [List.length_append, w.env.getopt.length_args, ← List.length_append, List.take_append_drop]
  · exact List.drop_left' (List.length_take_of_le hind)

/-- A program whose value is never `-EINVAL` does not end with it. -/
theorem Returns.not_invalid {x : Guest Int} (h : Returns (· ≠ -EINVAL) x) (w : World) :
    (x.run w).1 ≠ .ok (-EINVAL) := by
  intro hrun
  exact Returns.of_run h (Prod.ext hrun rfl) rfl

theorem cmdHget_invalid_iff {w : World} (fuel : Nat) {argv : List Bytes}
    (hind : w.optind ≤ argv.length) :
    ((cmdHget fuel argv).run w).1 = .ok (-EINVAL) ↔ Misused .hget (argv.drop w.optind) w := by
  obtain ⟨argv', hlen, -, hrun⟩ := getoptAll_run (ascii "xo:") hind
  have hlength : (argv.drop w.optind).length = argv.length - w.optind := List.length_drop
  simp only [Misused, cmdHget, Prog.run_bind_ok hrun]
  generalize w.env.getopt.scan (ascii "xo:") (argv.drop w.optind) = scan
  rw [← hgetOptions_eq_none_iff scan.items (0o664, none)]
  cases hgetOptions scan.items (0o664, none) with
  | none => simp
  | some opts =>
    obtain ⟨fmode, dstRoot⟩ := opts
    simp only [reduceCtorEq, false_or, Prog.run_bind, Prog.run_gets, Prog.run_ite]
    by_cases hops : w.optind + scan.ind ≥ argv'.length
    · rw [if_pos hops]
      exact ⟨fun _ => by omega, fun _ => rfl⟩
    · rw [if_neg hops]
      have hfiles (ret : Int) : Returns (· ≠ -EINVAL)
          (if ret ≠ 0 then do
              let errno ← gets (·.errno)
              pure (errno : Int)
            else do let files ← operands argv'; hgetFiles fuel fmode files : Guest Int) :=
        Returns.ite (Returns.seq fun errno => Returns.pure (natCast_ne_invalid errno))
          (Returns.seq fun files => hgetFiles_valid fuel fmode files)
      refine ⟨fun h => absurd h ?_, fun h => by omega⟩
      cases dstRoot with
      | none => exact Returns.not_invalid (Returns.seq hfiles) _
      | some dir => exact Returns.not_invalid (Returns.seq hfiles) _

theorem cmdHpush_invalid_iff {w : World} (fuel : Nat) {argv : List Bytes}
    (hind : w.optind ≤ argv.length) :
    ((cmdHpush fuel argv).run w).1 = .ok (-EINVAL) ↔ Misused .hpush (argv.drop w.optind) w := by
  obtain ⟨argv', hlen, -, hrun⟩ := getoptAll_run (ascii "ao:") hind
  have hlength : (argv.drop w.optind).length = argv.length - w.optind := List.length_drop
  simp only [Misused, cmdHpush, Prog.run_bind_ok hrun]
  generalize w.env.getopt.scan (ascii "ao:") (argv.drop w.optind) = scan
  rw [← hpushOptions_eq_none_iff scan.items (false, none)]
  cases hpushOptions scan.items (false, none) with
  | none => simp
  | some opts =>
    obtain ⟨append, dstName⟩ := opts
    simp only [reduceCtorEq, false_or, Prog.run_bind, Prog.run_gets, Prog.run_ite]
    by_cases hops : w.optind + scan.ind + 1 ≠ argv'.length
    · rw [if_pos hops]
      exact ⟨fun _ => by omega, fun _ => rfl⟩
    · rw [if_neg hops]
      refine ⟨fun h => absurd h (Returns.not_invalid (Returns.seq fun srcPath => ?_) _),
        fun h => by omega⟩
      cases srcPath with
      | none => exact Returns.stop _
      | some srcPath => cases dstName <;> exact hpushFile_valid _ _ _ _

/-! ### `hrange` and the other commands -/

/-- Three converted fields of a range are three numbers. -/
theorem hrange_vals {a : Bytes} {vals : List Scanf.Val}
    (h : Scanf.sscanf hrangeFormat a = (3, vals)) :
    ∃ id start stop, vals = [.num id, .num start, .num stop] := by
  have hall : List.Forall₂ Scanf.Val.Fits [.lu, .lx, .lx] vals := Scanf.sscanf_all h
  obtain _ | ⟨hid, _ | ⟨hstart, _ | ⟨hstop, _ | _⟩⟩⟩ := hall
  obtain ⟨id, rfl⟩ := hid.num (.inl rfl)
  obtain ⟨start, rfl⟩ := hstart.num (.inr rfl)
  obtain ⟨stop, rfl⟩ := hstop.num (.inr rfl)
  exact ⟨id, start, stop, rfl⟩

theorem hrangeArgs_invalid_iff (fuel : Nat) : ∀ (args : List Bytes) (vars : RangeVars) {w : World},
    w.nyxCpuType ≠ .nyxCpuInvalid →
    (((hrangeArgs fuel vars args).run w).1 = .ok (-EINVAL) ↔ ∃ a ∈ args, ¬RangeArgument a)
  | [], vars, w, _ => by
    simp [hrangeArgs, EINVAL]
  | a :: as, vars, w, hcpu => by
    by_cases hrange : RangeArgument a
    · obtain ⟨id, start, stop, hscan, hid, hlt⟩ := id hrange
      obtain ⟨r, w1, hrun, hsame⟩ := @hypercall_returns w hcpu fuel
        (.rangeSubmit (roundStart start) (roundEnd stop) id) (by simp)
      have hcpu1 : w1.nyxCpuType ≠ .nyxCpuInvalid := by rwa [hsame.cpu]
      have hrec := hrangeArgs_invalid_iff fuel as ⟨id, roundStart start, roundEnd stop⟩ hcpu1
      have hsubmit : (hrangeSubmit fuel id (roundStart start) (roundEnd stop)).run w =
          (.ok (), w1) := by
        rw [hrangeSubmit, Prog.run_bind_ok hrun, Prog.run_pure]
      have hrun' : (hrangeArgs fuel vars (a :: as)).run w =
          (hrangeArgs fuel ⟨id, roundStart start, roundEnd stop⟩ as).run w1 := by
        have hid' : ¬id > 3 := Nat.not_lt.mpr hid
        have hlt' : ¬start ≥ stop := Nat.not_le.mpr hlt
        simp only [hrangeArgs, hscan, RangeVars.assign, ne_eq, not_true_eq_false, if_false,
          if_neg hid', if_neg hlt']
        rw [Prog.run_bind_ok hsubmit]
      rw [hrun', hrec]
      simp [hrange]
    · refine ⟨fun _ => ⟨a, List.mem_cons_self, hrange⟩, fun _ => ?_⟩
      generalize hscan : Scanf.sscanf hrangeFormat a = r
      obtain ⟨n, vals⟩ := r
      simp only [hrangeArgs, hscan, Prog.run_ite, Prog.run_pure]
      by_cases hn : n ≠ 3
      · rw [if_pos hn]
      · rw [if_neg hn]
        obtain rfl : n = 3 := not_ne_iff.mp hn
        obtain ⟨id, start, stop, rfl⟩ := hrange_vals hscan
        by_cases hid : id > 3
        · rw [if_pos (show (vars.assign [.num id, .num start, .num stop]).rangeId > 3 from hid)]
        · rw [if_neg (show ¬(vars.assign [.num id, .num start, .num stop]).rangeId > 3 from hid)]
          have hge : start ≥ stop := by
            refine Nat.le_of_not_lt fun hlt => hrange ?_
            exact ⟨id, start, stop, hscan, Nat.le_of_not_lt hid, hlt⟩
          rw [if_pos (show (vars.assign [.num id, .num start, .num stop]).rangeStart ≥
            (vars.assign [.num id, .num start, .num stop]).rangeEnd from hge)]

theorem cmdCheck_valid (fuel : Nat) (argv : List Bytes) :
    Returns (· ≠ -EINVAL) (cmdCheck fuel argv) := by
  refine Returns.seq fun t => ?_
  have hval : (t.val : Int) ≠ -EINVAL := by cases t <;> decide
  have hneg : (-t.val : Int) ≠ -EINVAL := by cases t <;> decide
  refine Returns.ite (Returns.pure (by decide)) (Returns.ite (Returns.pure hval) ?_)
  exact Returns.seq fun ret =>
    Returns.ite (Returns.seq fun _ => Returns.pure hneg) (Returns.pure hval)

end InvocationLemmas

/-- With a known CPU type, a handler returns `-EINVAL` exactly on the arguments
its command rejects. -/
theorem handler_invalid_iff {c : Cmd} (hc : c ≠ .vmcall) {argv : List Bytes} {w : World}
    (hcpu : w.nyxCpuType ≠ .nyxCpuInvalid) (hind : w.optind ≤ argv.length) :
    ∃ bound, ∀ fuel ≥ bound, (((handler fuel c argv).run w).1 = .ok (-EINVAL) ↔
      Misused c (argv.drop w.optind) w) := by
  cases c with
  | vmcall => exact absurd rfl hc
  | hcat => exact cmdHcat_invalid_iff hcpu argv
  | hget => exact ⟨0, fun fuel _ => cmdHget_invalid_iff fuel hind⟩
  | hpush => exact ⟨0, fun fuel _ => cmdHpush_invalid_iff fuel hind⟩
  | hrange => exact ⟨0, fun fuel _ => hrangeArgs_invalid_iff fuel _ _ hcpu⟩
  | habort =>
    refine ⟨0, fun fuel _ => iff_of_false (Returns.not_invalid ?_ w) id⟩
    refine Returns.seq fun _ => Returns.seq fun msg => ?_
    cases msg <;> exact Returns.seq fun _ => Returns.pure (by decide)
  | hpanic =>
    refine ⟨0, fun fuel _ => iff_of_false (Returns.not_invalid ?_ w) id⟩
    refine Returns.seq fun _ => Returns.seq fun msg => ?_
    cases msg <;> exact Returns.seq fun _ => Returns.pure (by decide)
  | hlock =>
    refine ⟨0, fun fuel _ => iff_of_false (Returns.not_invalid ?_ w) id⟩
    exact Returns.seq fun _ => Returns.pure (by decide)
  | check => exact ⟨0, fun fuel _ =>
      iff_of_false (Returns.not_invalid (cmdCheck_valid fuel argv) w) id⟩

/-! ## 3. The two forms -/

/-- The CPU type a run works with. -/
def World.cpuType (w : World) : NyxCpuType :=
  if w.nyxCpuType = .nyxCpuInvalid then classifyCpuid w.env.cpuid else w.nyxCpuType

/-- The world after `main` has looked up the CPU type. -/
def World.started (w : World) (optind : Nat) : World :=
  { w with nyxCpuType := w.cpuType, optind := optind }

namespace InvocationLemmas

theorem cpuType_valid (w : World) : w.cpuType ≠ .nyxCpuInvalid := by
  unfold World.cpuType
  split
  · unfold classifyCpuid
    dsimp only
    split
    · decide
    · split <;> decide
  · assumption

theorem vmcallMain_run (fuel : Nat) (argv : List Bytes) (w : World) :
    (vmcallMain fuel argv).run w =
      (cmdDispatch fuel (argv.length + 1) argv).run (w.started 0) := by
  by_cases ht : w.nyxCpuType = .nyxCpuInvalid
  · simp [vmcallMain, getNyxCpuType, Prog.run_bind, World.started, World.cpuType, ht]
  · simp [vmcallMain, getNyxCpuType, Prog.run_bind, World.started, World.cpuType, ht]

theorem lookup_name (c : Cmd) : lookup (some c.name) = some c := by
  cases c <;> decide

/-- One dispatch step. -/
theorem cmdDispatch_step (fuel steps : Nat) {argv : List Bytes} {w : World}
    (hind : w.optind ≤ argv.length) :
    (cmdDispatch fuel (steps + 1) argv).run w =
      match lookup argv[w.optind]? with
      | none => (.ok (-EINVAL), w)
      | some c =>
        (if c = .vmcall then cmdVmcall (cmdDispatch fuel steps argv)
          else handler fuel c argv).run { w with optind := w.optind + 1 } := by
  have hoptind : (gets (·.optind) : Guest Nat).run w = (.ok w.optind, w) := rfl
  have harg : (argvAt argv w.optind).run w = (.ok argv[w.optind]?, w) := by
    simp [argvAt, hind]
  rw [cmdDispatch, Prog.run_bind_ok hoptind, Prog.run_bind_ok harg]
  cases lookup argv[w.optind]? <;> rfl

/-- One dispatch step on the token of a command. -/
theorem cmdDispatch_name (fuel steps : Nat) {argv : List Bytes} {w : World} {c : Cmd}
    (htoken : argv[w.optind]? = some c.name) :
    (cmdDispatch fuel (steps + 1) argv).run w =
      (if c = .vmcall then cmdVmcall (cmdDispatch fuel steps argv)
        else handler fuel c argv).run { w with optind := w.optind + 1 } := by
  have hind : w.optind ≤ argv.length :=
    Nat.le_of_lt (List.getElem?_eq_some_iff.mp htoken).1
  rw [cmdDispatch_step fuel steps hind, htoken, lookup_name]

theorem direct_run (fuel : Nat) {c : Cmd} (hc : c ≠ .vmcall) (args : List Bytes) (w : World) :
    (vmcallMain fuel (c.name :: args)).run w =
      (handler fuel c (c.name :: args)).run (w.started 1) := by
  have htoken : (c.name :: args)[(w.started 0).optind]? = some c.name := rfl
  rw [vmcallMain_run, cmdDispatch_name fuel _ htoken, if_neg hc]
  rfl

theorem cmdVmcall_congr {x y : Guest Int} {w w' : World} (h : x.run w = y.run w') :
    (cmdVmcall x).run w = (cmdVmcall y).run w' := by
  simp only [cmdVmcall, Prog.run_bind, h]

/-- `cmd_vmcall` changes the value `-EINVAL` and nothing else. -/
theorem cmdVmcall_run {x : Guest Int} {w w' : World} {r : Except Stop Int}
    (h : x.run w = (r, w')) :
    (cmdVmcall x).run w = (if r = .ok (-EINVAL) then .ok 0 else r, w') := by
  cases r with
  | error e => simp [cmdVmcall, Prog.run_bind, h]
  | ok ret =>
    simp only [cmdVmcall, Prog.run_bind, h, Except.ok.injEq]
    split <;> rfl

theorem nested_run (fuel : Nat) {c : Cmd} (hc : c ≠ .vmcall) (args : List Bytes) (w : World) :
    (vmcallMain fuel (Cmd.vmcall.name :: c.name :: args)).run w =
      (cmdVmcall (handler fuel c (Cmd.vmcall.name :: c.name :: args))).run (w.started 1).shift := by
  have htoken0 : (Cmd.vmcall.name :: c.name :: args)[(w.started 0).optind]? =
      some Cmd.vmcall.name := rfl
  have htoken1 : (Cmd.vmcall.name :: c.name :: args)[(w.started 1).optind]? = some c.name := rfl
  rw [vmcallMain_run, cmdDispatch_name fuel _ htoken0, if_pos rfl]
  have hstep := cmdDispatch_name fuel (c.name :: args).length htoken1
  rw [if_neg hc] at hstep
  exact cmdVmcall_congr hstep

end InvocationLemmas

/-- Both forms issue the same hypercalls in the same order, and the form with
`vmcall` changes the value `-EINVAL` to 0. -/
theorem nested_of_direct (fuel : Nat) {c : Cmd} (hc : c ≠ .vmcall) (args : List Bytes)
    (w : World) :
    ∃ r w', (handler fuel c (c.name :: args)).run (w.started 1) = (r, w') ∧
      (vmcallMain fuel (c.name :: args)).run w = (r, w') ∧
      (vmcallMain fuel (Cmd.vmcall.name :: c.name :: args)).run w =
        (if r = .ok (-EINVAL) then .ok 0 else r, w'.shift) := by
  have hsim := handler_sim fuel c Cmd.vmcall.name (c.name :: args) (w.started 1)
  cases hrun : (handler fuel c (c.name :: args)).run (w.started 1) with
  | mk r w' =>
    have hmap : r.map id = r := by cases r <;> rfl
    rw [hrun] at hsim
    refine ⟨r, w', rfl, ?_, ?_⟩
    · rw [direct_run fuel hc, hrun]
    · rw [nested_run fuel hc, cmdVmcall_run hsim, hmap]

/-- For every command, every argument list and every initial world, the two
forms agree exactly when the command does not reject its arguments with
`-EINVAL`. -/
theorem forms_agree_iff {c : Cmd} (hc : c ≠ .vmcall) (args : List Bytes) (w : World) :
    ∃ bound, ∀ fuel ≥ bound, (FormsAgree fuel c args w ↔ ¬Misused c args w) := by
  have hind : (w.started 1).optind ≤ (c.name :: args).length := Nat.le_add_left 1 _
  obtain ⟨bound, hinvalid⟩ := handler_invalid_iff hc (cpuType_valid w) hind
  refine ⟨bound, fun fuel hfuel => ?_⟩
  obtain ⟨r, w', hrun, hdirect, hnested⟩ := nested_of_direct fuel hc args w
  have hiff : r = .ok (-EINVAL) ↔ Misused c args w := by
    have h := hinvalid fuel hfuel
    rwa [hrun] at h
  rw [← hiff, FormsAgree]
  simp only [hdirect, hnested]
  constructor
  · rintro ⟨-, hstatus⟩ heq
    rw [if_pos heq, heq] at hstatus
    exact absurd hstatus (by decide)
  · intro hne
    exact ⟨rfl, by rw [if_neg hne]⟩

/-- A range that is submitted. -/
theorem forms_agree_range :
    ∃ bound, ∀ fuel ≥ bound, (FormsAgree fuel .hrange [ascii "0,1000-2000"] freshNyxWorld ↔
      ¬Misused .hrange [ascii "0,1000-2000"] freshNyxWorld) :=
  forms_agree_iff (by decide) [ascii "0,1000-2000"] freshNyxWorld

/-- `hrange x` exits with status 234, `vmcall hrange x` with status 0. -/
theorem forms_disagree_range :
    ((vmcallMain 1 [ascii "hrange", ascii "x"]).run freshNyxWorld).1.map exitStatus = .ok 234 ∧
      ((vmcallMain 1 [ascii "vmcall", ascii "hrange", ascii "x"]).run freshNyxWorld).1.map
        exitStatus = .ok 0 ∧
      ¬FormsAgree 1 .hrange [ascii "x"] freshNyxWorld := by
  have hdirect : ((vmcallMain 1 [ascii "hrange", ascii "x"]).run freshNyxWorld).1.map exitStatus =
      .ok 234 := by
    rfl
  have hnested : ((vmcallMain 1 [ascii "vmcall", ascii "hrange", ascii "x"]).run
      freshNyxWorld).1.map exitStatus = .ok 0 := by
    rfl
  refine ⟨hdirect, hnested, ?_⟩
  rintro ⟨-, hstatus⟩
  have heq := hnested.symm.trans (hstatus.trans hdirect)
  exact absurd heq (by decide)

end KaflTargets
