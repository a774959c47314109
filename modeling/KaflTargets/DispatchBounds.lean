import KaflTargets.Invocation

/-!
# Bounds of the dispatch

`cmd_dispatch` and `cmd_vmcall` call each other along the `vmcall` tokens of the
argument vector and read `argv` at the global `optind`. `Dispatched` describes
the calls for one vector: how many there are, where `optind` ends, and which
entry of the table is chosen. The chain ends at the latest at the terminating
`NULL`, which no entry matches.

Results:
1. `matches_unique`, `find?_perm`: at most one entry matches a token, so the
   order of the table does not matter.
2. `Dispatched.exists`, `Dispatched.run`: the calls of a run.
3. `handler_stops`: no handler reads `argv` out of bounds.
4. `vmcallMain_in_bounds`: all of this for a run of the tool.
-/

namespace KaflTargets

open CString Prog

/-! ## Definitions -/

/-- An entry of the table matches a token; `basename(NULL)` is `"."`. -/
def Cmd.matches (token : Option Bytes) (c : Cmd) : Bool :=
  strncmpEq ((token.map basename).getD (ascii ".")) c.name c.name.length

/-- `cmd_dispatch` with `optind = i` is called `n` times until an entry other
than `vmcall` or none matches, and leaves `optind = last`. -/
inductive Dispatched (argv : List Bytes) : Nat → Nat → Nat → Option Cmd → Prop
  | unknown {i : Nat} : lookup argv[i]? = none → Dispatched argv i 1 i none
  | found {i : Nat} {c : Cmd} :
      lookup argv[i]? = some c → c ≠ .vmcall → Dispatched argv i 1 (i + 1) (some c)
  | nested {i n last : Nat} {r : Option Cmd} :
      lookup argv[i]? = some .vmcall → Dispatched argv (i + 1) n last r →
      Dispatched argv i (n + 1) last r

/-- What the last call of `cmd_dispatch` does. -/
def lastCall (fuel : Nat) (argv : List Bytes) : Option Cmd → Guest Int
  | none => pure (-EINVAL)
  | some c => handler fuel c argv

/-- The returns through `n` calls of `cmd_vmcall`. -/
def throughVmcall : Nat → Guest Int → Guest Int
  | 0, x => x
  | n + 1, x => cmdVmcall (throughVmcall n x)

/-- A reason other than an access out of bounds or through a bad pointer. -/
def Contained (e : Stop) : Prop := e = .assertFailed ∨ e = .aborted ∨ e = .timeout

/-! ## 1. The table -/

namespace DispatchLemmas

/-- No name in the table begins with another one. -/
theorem name_prefix_iff (c c' : Cmd) : c.name <+: c'.name ↔ c = c' := by
  cases c <;> cases c' <;> decide

theorem name_noNul (c : Cmd) : 0 ∉ c.name := by cases c <;> decide

/-- A list without two matching elements is searched with the same result in
any order. -/
theorem find?_perm {α : Type} {p : α → Bool} {xs ys : List α}
    (hunique : ∀ a b, p a = true → p b = true → a = b) (h : xs.Perm ys) :
    xs.find? p = ys.find? p := by
  cases hys : ys.find? p with
  | none =>
    refine List.find?_eq_none.mpr fun a ha => ?_
    exact List.find?_eq_none.mp hys a (h.mem_iff.mp ha)
  | some b =>
    have hb := List.find?_some hys
    have hmem : b ∈ xs := h.mem_iff.mpr (List.mem_of_find?_eq_some hys)
    cases hxs : xs.find? p with
    | none => exact absurd hb (List.find?_eq_none.mp hxs b hmem)
    | some a => rw [hunique a b (List.find?_some hxs) hb]

end DispatchLemmas

open DispatchLemmas

/-- At most one entry of the table matches a token. -/
theorem matches_unique {token : Option Bytes} {c c' : Cmd} (h : c.matches token = true)
    (h' : c'.matches token = true) : c = c' := by
  have hc := (strncmpEq_iff_startsWith (name_noNul c)).mp h
  have hc' := (strncmpEq_iff_startsWith (name_noNul c')).mp h'
  rcases List.prefix_or_prefix_of_prefix hc hc' with hpre | hpre
  · exact (name_prefix_iff c c').mp hpre
  · exact ((name_prefix_iff c' c).mp hpre).symm

/-! ## 2. The calls of a run -/

namespace DispatchLemmas

variable {argv : List Bytes}

/-- Only a token is matched by an entry, not the terminating `NULL`. -/
theorem lookup_bound {i : Nat} {c : Cmd} (h : lookup argv[i]? = some c) : i + 1 ≤ argv.length := by
  refine Nat.lt_of_not_le fun hle => ?_
  have hnone : lookup none = none := by decide
  rw [List.getElem?_eq_none hle, hnone] at h
  cases h

end DispatchLemmas

namespace Dispatched

variable {argv : List Bytes} {i n last : Nat} {r : Option Cmd}

/-- The calls end, by induction on the tokens that are left. -/
theorem exists_of_le (argv : List Bytes) : ∀ (left i : Nat), i + left = argv.length →
    ∃ n last r, Dispatched argv i n last r ∧ n ≤ left + 1 ∧ last ≤ argv.length
  | 0, i, hi => by
    have hnone : lookup none = none := by decide
    have hlookup : lookup argv[i]? = none := by
      rw [List.getElem?_eq_none (by omega), hnone]
    exact ⟨1, i, none, .unknown hlookup, Nat.le_refl 1, Nat.le_of_eq hi⟩
  | left + 1, i, hi => by
    cases hlookup : lookup argv[i]? with
    | none => exact ⟨1, i, none, .unknown hlookup, Nat.le_add_left 1 _, by omega⟩
    | some c =>
      by_cases hc : c = .vmcall
      · subst hc
        obtain ⟨n, last, r, hrest, hn, hlast⟩ := exists_of_le argv left (i + 1) (by omega)
        exact ⟨n + 1, last, r, .nested hlookup hrest, Nat.succ_le_succ hn, hlast⟩
      · exact ⟨1, i + 1, some c, .found hlookup hc, Nat.le_add_left 1 _, by omega⟩

theorem pos (h : Dispatched argv i n last r) : 0 < n := by
  cases h <;> exact Nat.succ_pos _

/-- A run with at least `n` steps ends with the last call. -/
theorem run (fuel : Nat) (h : Dispatched argv i n last r) : ∀ {steps : Nat} {w : World},
    n ≤ steps → w.optind = i → i ≤ argv.length →
    (cmdDispatch fuel steps argv).run w =
      (throughVmcall (n - 1) (lastCall fuel argv r)).run { w with optind := last } := by
  induction h with
  | @unknown i hlookup =>
    rintro (_ | steps) w hsteps rfl hi
    · cases hsteps
    · rw [InvocationLemmas.cmdDispatch_step fuel steps hi, hlookup]
      rfl
  | @found i c hlookup hc =>
    rintro (_ | steps) w hsteps rfl hi
    · cases hsteps
    · rw [InvocationLemmas.cmdDispatch_step fuel steps hi, hlookup]
      simp only [if_neg hc]
      rfl
  | @nested i n last r hlookup hrest ih =>
    rintro (_ | steps) w hsteps rfl hi
    · cases hsteps
    · have hinner := ih (w := { w with optind := w.optind + 1 }) (Nat.le_of_succ_le_succ hsteps)
        rfl (lookup_bound hlookup)
      obtain ⟨m, rfl⟩ : ∃ m, n = m + 1 := Nat.exists_eq_succ_of_ne_zero (Nat.ne_of_gt hrest.pos)
      rw [InvocationLemmas.cmdDispatch_step fuel steps hi, hlookup]
      simp only [if_true]
      exact InvocationLemmas.cmdVmcall_congr hinner

/-- A run with fewer steps is cut off. -/
theorem run_short (fuel : Nat) (h : Dispatched argv i n last r) : ∀ {steps : Nat} {w : World},
    steps < n → w.optind = i → i ≤ argv.length →
    ∃ w', (cmdDispatch fuel steps argv).run w = (.error .timeout, w') := by
  induction h with
  | unknown _ | found _ _ =>
    rintro (_ | steps) w hsteps - -
    · exact ⟨w, rfl⟩
    · omega
  | @nested i n last r hlookup hrest ih =>
    rintro (_ | steps) w hsteps rfl hi
    · exact ⟨w, rfl⟩
    · obtain ⟨w', hinner⟩ := ih (w := { w with optind := w.optind + 1 })
        (Nat.lt_of_succ_lt_succ hsteps) rfl (lookup_bound hlookup)
      refine ⟨w', ?_⟩
      rw [InvocationLemmas.cmdDispatch_step fuel steps hi, hlookup]
      simp only [if_true]
      rw [InvocationLemmas.cmdVmcall_run hinner, if_neg (by simp)]

end Dispatched

/-! ## 3. Accesses of the handlers -/

namespace DispatchLemmas

theorem stops_call (call : Hypercall) : StopsIn Contained (kAFLHypercall call) := by
  intro w e w' hrun
  cases call
  case userAbort msg =>
    rw [kAFLHypercall_abort_run] at hrun
    obtain ⟨hret, -⟩ := Prod.mk.inj hrun
    split at hret
    · cases hret
    · cases hret
      exact .inr (.inl rfl)
  all_goals
    rw [kAFLHypercall_run (by simp)] at hrun
    cases hrun

theorem stops_switchCpu (call : Hypercall) {invalid : Guest Nat} (h : StopsIn Contained invalid) :
    StopsIn Contained (switchCpu call invalid) := by
  refine StopsIn.bind (StopsIn.gets _) fun t => ?_
  cases t with
  | nyxCpuV1 => exact stops_call call
  | nyxCpuInvalid => exact h
  | nyxCpuV2 => exact StopsIn.bind (StopsIn.modify _) fun _ => StopsIn.pure 0
  | nyxCpuNone => exact StopsIn.bind (StopsIn.modify _) fun _ => StopsIn.pure 0

theorem stops_hypercall (fuel : Nat) (call : Hypercall) :
    StopsIn Contained (hypercall fuel call) := by
  induction fuel generalizing call with
  | zero => exact stops_switchCpu call (StopsIn.stop (.inr (.inr rfl)))
  | succ fuel ih =>
    exact stops_switchCpu call (StopsIn.bind (ih _) fun _ => StopsIn.stop (.inl rfl))

theorem stops_hprintf (text : Bytes) : StopsIn Contained (hprintf text) :=
  StopsIn.bind (stops_call _) fun _ => StopsIn.pure ()

theorem stops_habort (msg : String) : StopsIn Contained (habort msg) :=
  StopsIn.bind (stops_call _) fun _ => StopsIn.pure ()

theorem stops_habortMsg (fuel : Nat) (msg : Bytes) : StopsIn Contained (habortMsg fuel msg) :=
  StopsIn.bind (stops_hypercall fuel _) fun _ => StopsIn.pure ()

/-! ### System calls end -/

theorem stops_fopen (path : Bytes) : StopsIn Contained (fopen path) := by
  refine StopsIn.of_ends fun w => ?_
  obtain ⟨w', hrun, -⟩ := InvocationLemmas.fopen_run w path
  exact ⟨_, congrArg Prod.fst hrun⟩

theorem stops_openRead (path : Bytes) : StopsIn Contained (openRead path) := by
  refine StopsIn.of_ends fun w => ?_
  simp only [openRead]
  split <;> exact ⟨_, rfl⟩

theorem stops_creat (path : Bytes) (mode : Nat) : StopsIn Contained (creat path mode) := by
  refine StopsIn.of_ends fun w => ?_
  simp only [creat]
  split <;> exact ⟨_, rfl⟩

theorem stops_chdir (path : Bytes) : StopsIn Contained (chdir path) := by
  refine StopsIn.of_ends fun w => ?_
  simp only [chdir]
  split <;> exact ⟨_, rfl⟩

theorem stops_read (fd addr count : Nat) : StopsIn Contained (read fd addr count) := by
  refine StopsIn.of_ends fun w => ?_
  simp only [read]
  split
  · exact ⟨_, rfl⟩
  · split <;> exact ⟨_, rfl⟩

theorem stops_write (fd addr count : Nat) : StopsIn Contained (write fd addr count) :=
  StopsIn.of_ends fun w => ⟨_, congrArg Prod.fst (write_run w fd addr count)⟩

theorem stops_mallocResidentPages (numPages : Nat) :
    StopsIn Contained (mallocResidentPages numPages) := by
  refine StopsIn.of_ends fun w => ?_
  obtain ⟨_, _, _, _, _, hrun⟩ := mallocResidentPages_total w numPages
  exact ⟨_, congrArg Prod.fst hrun⟩

/-! ### The agent library -/

theorem stops_hprintfFromFile (fuel : Nat) (f : FILE) :
    StopsIn Contained (hprintfFromFile fuel f) := by
  refine StopsIn.iter (.inr (.inr rfl)) (fun b => ?_) fuel (f, 0)
  obtain ⟨f, written⟩ := b
  refine StopsIn.ite (StopsIn.pure _) (StopsIn.bind (StopsIn.modify _) fun _ =>
    StopsIn.ite (StopsIn.pure _) ?_)
  exact StopsIn.bind (StopsIn.gets _) fun _ =>
    StopsIn.bind (stops_hypercall fuel _) fun _ => StopsIn.pure _

theorem stops_hgetCopy (fuel : Nat) (dstPath : Bytes) (flags scratchBuf scratchSize : Nat) :
    StopsIn Contained (hgetCopy fuel dstPath flags scratchBuf scratchSize) := by
  refine StopsIn.bind (stops_creat _ _) fun fd => ?_
  cases fd with
  | none => exact StopsIn.bind (StopsIn.gets _) fun _ => StopsIn.pure _
  | some fd =>
    refine StopsIn.bind (StopsIn.iter (.inr (.inr rfl)) (fun b => ?_) fuel ()) fun ret =>
      StopsIn.bind (StopsIn.modify _) fun _ => StopsIn.bind (StopsIn.modify _) fun _ =>
      StopsIn.pure ret
    refine StopsIn.bind (StopsIn.gets _) fun _ => StopsIn.bind (stops_hypercall fuel _) fun _ =>
      StopsIn.ite (StopsIn.pure _) ?_
    exact StopsIn.bind (stops_write _ _ _) fun _ =>
      StopsIn.ite (StopsIn.pure _) (StopsIn.ite (StopsIn.pure _) (StopsIn.pure _))

theorem stops_hgetFile (fuel : Nat) (srcPath : Bytes) (flags : Nat) :
    StopsIn Contained (hgetFile fuel srcPath flags) := by
  refine StopsIn.bind (stops_mallocResidentPages _) fun scratchBuf =>
    StopsIn.bind (StopsIn.modify _) fun _ => StopsIn.ite ?_ (StopsIn.pure _)
  exact StopsIn.bind (StopsIn.modify _) fun _ => stops_hgetCopy _ _ _ _ _

theorem stops_hpushFile (fuel : Nat) (srcPath dstName : Bytes) (append : Nat) :
    StopsIn Contained (hpushFile fuel srcPath dstName append) := by
  refine StopsIn.bind (stops_openRead _) fun fd => ?_
  cases fd with
  | none => exact StopsIn.bind (StopsIn.gets _) fun _ => StopsIn.pure _
  | some fd =>
    refine StopsIn.bind (stops_mallocResidentPages _) fun buf => ?_
    have hend (ret : Int) : StopsIn Contained
        (freeResidentPages buf (1024 * 1024 / PAGE_SIZE) >>= fun _ =>
          close fd >>= fun _ => (pure ret : Guest Int)) :=
      StopsIn.bind (StopsIn.ite (StopsIn.pure ()) (StopsIn.bind (StopsIn.modify _) fun _ =>
        StopsIn.modify _)) fun _ => StopsIn.bind (StopsIn.modify _) fun _ => StopsIn.pure ret
    refine StopsIn.ite (StopsIn.bind (StopsIn.gets _) fun _ => hend _) ?_
    refine StopsIn.bind (StopsIn.iter (.inr (.inr rfl)) (fun b => ?_) fuel _) fun _ =>
      StopsIn.bind (stops_hprintf _) fun _ => hend _
    obtain ⟨append, totalSent⟩ := b
    refine StopsIn.bind (stops_read _ _ _) fun bytes => StopsIn.bind (stops_hprintf _) fun _ => ?_
    refine StopsIn.ite (StopsIn.bind (stops_habort _) fun _ => StopsIn.pure _) ?_
    exact StopsIn.ite (StopsIn.pure _) (StopsIn.bind (stops_call _) fun _ => StopsIn.pure _)

/-! ### Parts of the handlers -/

theorem stops_hcatFiles (fuel : Nat) : ∀ (files : List Bytes) (written : Nat),
    StopsIn Contained (hcatFiles fuel files written)
  | [], _ => StopsIn.pure _
  | a :: as, written => by
    refine StopsIn.bind (stops_fopen a) fun f => ?_
    cases f with
    | none => exact StopsIn.pure _
    | some f =>
      exact StopsIn.bind (stops_hprintfFromFile fuel f) fun n => stops_hcatFiles fuel as _

theorem stops_hgetFiles (fuel fmode : Nat) : ∀ files : List Bytes,
    StopsIn Contained (hgetFiles fuel fmode files)
  | [] => StopsIn.pure 0
  | a :: as =>
    StopsIn.bind (stops_hgetFile fuel a fmode) fun ret =>
      StopsIn.ite (StopsIn.pure ret) (stops_hgetFiles fuel fmode as)

theorem stops_hrangeArgs (fuel : Nat) : ∀ (args : List Bytes) (vars : RangeVars),
    StopsIn Contained (hrangeArgs fuel vars args)
  | [], _ => StopsIn.pure 0
  | a :: as, vars => by
    unfold hrangeArgs
    refine StopsIn.ite (StopsIn.pure _) (StopsIn.ite (StopsIn.pure _)
      (StopsIn.ite (StopsIn.pure _) ?_))
    refine StopsIn.bind ?_ fun _ => stops_hrangeArgs fuel as _
    exact StopsIn.bind (stops_hypercall fuel _) fun _ => StopsIn.pure ()

theorem stops_operands (argv : List Bytes) : StopsIn Contained (operands argv) :=
  StopsIn.bind (StopsIn.gets _) fun _ => StopsIn.pure _

/-- An access in bounds, and what is done with its result. -/
theorem stops_argvAt {α : Type} {argv : List Bytes} {w w' : World} {e : Stop}
    {k : Option Bytes → Guest α} (hind : w.optind ≤ argv.length)
    (hk : ∀ arg, StopsIn Contained (k arg))
    (hrun : ((gets (·.optind) : Guest Nat) >>= fun optind => argvAt argv optind >>= k).run w =
      (.error e, w')) : Contained e := by
  have harg : (argvAt argv w.optind).run w = (.ok argv[w.optind]?, w) := by
    simp [argvAt, hind]
  rw [run_bind_ok (run_gets _ w), run_bind_ok harg] at hrun
  exact hk _ w e w' hrun

theorem stops_cmdHcat (fuel : Nat) (argv : List Bytes) : StopsIn Contained (cmdHcat fuel argv) := by
  refine StopsIn.bind (StopsIn.gets _) fun env => ?_
  have hfiles (n : Int) : StopsIn Contained
      (do let files ← operands argv; hcatFiles fuel files (sizeAdd 0 n) : Guest Int) :=
    StopsIn.bind (stops_operands argv) fun files => stops_hcatFiles fuel files _
  refine StopsIn.ite ?_ ?_
  · exact StopsIn.bind (StopsIn.pure 0) hfiles
  · exact StopsIn.bind (stops_hprintfFromFile fuel _) hfiles

theorem stops_cmdHget (fuel : Nat) (argv : List Bytes) : StopsIn Contained (cmdHget fuel argv) := by
  refine StopsIn.bind (StopsIn.of_ends fun _ => ⟨_, rfl⟩) fun scanned => ?_
  obtain ⟨items, argv'⟩ := scanned
  dsimp only
  cases hgetOptions items (0o664, none) with
  | none => exact StopsIn.pure _
  | some opts =>
    obtain ⟨fmode, dstRoot⟩ := opts
    have hfiles (ret : Int) : StopsIn Contained
        (if ret ≠ 0 then do
            let errno ← gets (·.errno)
            pure (errno : Int)
          else do let files ← operands argv'; hgetFiles fuel fmode files : Guest Int) :=
      StopsIn.ite (StopsIn.bind (StopsIn.gets _) fun _ => StopsIn.pure _)
        (StopsIn.bind (stops_operands argv') fun files => stops_hgetFiles fuel fmode files)
    refine StopsIn.bind (StopsIn.gets _) fun optind => StopsIn.ite (StopsIn.pure _) ?_
    cases dstRoot with
    | none => exact StopsIn.bind (StopsIn.pure 0) hfiles
    | some dir => exact StopsIn.bind (stops_chdir dir) hfiles

/-- The operand of `hpush` is there: `optind` is one less than `argc`. -/
theorem cmdHpush_stops (fuel : Nat) {argv : List Bytes} {w w' : World} {e : Stop}
    (hind : w.optind ≤ argv.length) (hrun : (cmdHpush fuel argv).run w = (.error e, w')) :
    Contained e := by
  obtain ⟨argv', hlen, -, hscan⟩ := InvocationLemmas.getoptAll_run (ascii "ao:") hind
  rw [cmdHpush, run_bind_ok hscan] at hrun
  generalize w.env.getopt.scan (ascii "ao:") (argv.drop w.optind) = scan at hrun
  dsimp only at hrun
  cases hopts : hpushOptions scan.items (false, none) with
  | none =>
    rw [hopts] at hrun
    cases hrun
  | some opts =>
    obtain ⟨append, dstName⟩ := opts
    rw [hopts] at hrun
    dsimp only at hrun
    rw [run_bind_ok (run_gets _ _)] at hrun
    by_cases hops : w.optind + scan.ind + 1 ≠ argv'.length
    · rw [if_pos hops] at hrun
      cases hrun
    · have hlt : w.optind + scan.ind < argv'.length := by omega
      have harg (u : World) : (argvAt argv' (w.optind + scan.ind)).run u =
          (.ok (some argv'[w.optind + scan.ind]), u) := by
        simp [argvAt, Nat.le_of_lt hlt, hlt]
      rw [if_neg hops, run_bind_ok (harg _)] at hrun
      cases dstName <;> exact stops_hpushFile _ _ _ _ _ _ _ hrun

theorem stops_cmdCheck (fuel : Nat) (argv : List Bytes) :
    StopsIn Contained (cmdCheck fuel argv) := by
  refine StopsIn.bind (StopsIn.gets _) fun t =>
    StopsIn.ite (StopsIn.pure _) (StopsIn.ite (StopsIn.pure _) ?_)
  refine StopsIn.bind ?_ fun ret => StopsIn.ite ?_ (StopsIn.pure _)
  · exact StopsIn.bind (StopsIn.modify _) fun _ => StopsIn.bind (stops_hypercall fuel _) fun _ =>
      StopsIn.bind (StopsIn.gets _) fun config => StopsIn.ite (StopsIn.pure _)
        (StopsIn.ite (StopsIn.pure _) (StopsIn.pure _))
  · exact StopsIn.bind (stops_habortMsg fuel _) fun _ => StopsIn.pure _

end DispatchLemmas

/-- No handler that starts with `optind` in bounds reads `argv` out of bounds. -/
theorem handler_stops (fuel : Nat) (c : Cmd) {argv : List Bytes} {w w' : World} {e : Stop}
    (hind : w.optind ≤ argv.length) (hrun : (handler fuel c argv).run w = (.error e, w')) :
    Contained e := by
  cases c with
  | vmcall => cases hrun
  | hcat => exact stops_cmdHcat fuel argv w e w' hrun
  | habort =>
    refine stops_argvAt hind (fun arg => ?_) hrun
    cases arg <;> exact StopsIn.bind (stops_habortMsg fuel _) fun _ => StopsIn.pure 0
  | hget => exact stops_cmdHget fuel argv w e w' hrun
  | hpush => exact cmdHpush_stops fuel hind hrun
  | hpanic =>
    refine stops_argvAt hind (fun arg => ?_) hrun
    cases arg <;> exact StopsIn.bind (stops_hypercall fuel _) fun _ => StopsIn.pure 0
  | hrange =>
    refine StopsIn.bind (S := Contained) (StopsIn.gets _) (fun env => ?_) w e w' hrun
    exact StopsIn.bind (stops_operands argv) fun args => stops_hrangeArgs fuel args _
  | hlock =>
    exact StopsIn.bind (S := Contained) (stops_hypercall fuel _) (fun _ => StopsIn.pure 0) w e w'
      hrun
  | check => exact stops_cmdCheck fuel argv w e w' hrun

/-! ## 4. A run of the tool -/

namespace DispatchLemmas

theorem throughVmcall_stops {x : Guest Int} {w : World}
    (hx : ∀ e w', x.run w = (.error e, w') → Contained e) : ∀ (n : Nat) {e : Stop} {w' : World},
    (throughVmcall n x).run w = (.error e, w') → Contained e
  | 0, e, w', h => hx e w' h
  | n + 1, e, w', h => by
    rw [throughVmcall, InvocationLemmas.cmdVmcall_run (Prod.eta _).symm] at h
    obtain ⟨hret, -⟩ := Prod.mk.inj h
    split at hret
    · cases hret
    · exact throughVmcall_stops hx n (Prod.ext hret rfl)

end DispatchLemmas

/-- A run of the tool, with any argument vector and any outcome of the calls it
makes: `cmd_dispatch` is called at most `argc + 1` times, exactly as often as
`Dispatched` says, however large the bound on its calls is; `optind` is in
bounds when the handler starts, and no access to `argv` is out of bounds; and
the table has at most one entry for a token, so that every order of it gives the
same handler. -/
theorem vmcallMain_in_bounds (fuel : Nat) (argv : List Bytes) (w : World) :
    (∃ n last r, Dispatched argv 0 n last r ∧ n ≤ argv.length + 1 ∧ last ≤ argv.length ∧
      (vmcallMain fuel argv).run w =
        (throughVmcall (n - 1) (lastCall fuel argv r)).run (w.started last) ∧
      (∀ steps, n ≤ steps →
        (cmdDispatch fuel steps argv).run (w.started 0) = (vmcallMain fuel argv).run w) ∧
      (∀ steps, steps < n →
        ∃ w', (cmdDispatch fuel steps argv).run (w.started 0) = (.error .timeout, w'))) ∧
    (∀ e w', (vmcallMain fuel argv).run w = (.error e, w') → e ≠ .outOfBounds) ∧
    (∀ token c c', Cmd.matches token c = true → Cmd.matches token c' = true → c = c') ∧
    (∀ table : List Cmd, table.Perm cmdList →
      ∀ token, table.find? (Cmd.matches token) = lookup token) := by
  obtain ⟨n, last, r, hcalls, hn, hlast⟩ :=
    Dispatched.exists_of_le argv argv.length 0 (Nat.zero_add _)
  have hrun {steps : Nat} (hsteps : n ≤ steps) : (cmdDispatch fuel steps argv).run (w.started 0) =
      (throughVmcall (n - 1) (lastCall fuel argv r)).run (w.started last) :=
    hcalls.run fuel hsteps rfl (Nat.zero_le _)
  have hmain : (vmcallMain fuel argv).run w =
      (throughVmcall (n - 1) (lastCall fuel argv r)).run (w.started last) := by
    rw [InvocationLemmas.vmcallMain_run, hrun hn]
  refine ⟨⟨n, last, r, hcalls, hn, hlast, hmain, fun steps hsteps => ?_, fun steps hsteps => ?_⟩,
    fun e w' h => ?_, fun _ _ _ => matches_unique, fun table hperm token => ?_⟩
  · rw [hrun hsteps, hmain]
  · exact hcalls.run_short fuel hsteps rfl (Nat.zero_le _)
  · rw [hmain] at h
    have hlastCall : ∀ e w', (lastCall fuel argv r).run (w.started last) = (.error e, w') →
        Contained e := by
      intro e w' h
      cases r with
      | none => cases h
      | some c => exact handler_stops fuel c hlast h
    rintro rfl
    rcases throughVmcall_stops hlastCall _ h with h | h | h <;> cases h
  · exact find?_perm (fun _ _ => matches_unique) hperm

end KaflTargets
