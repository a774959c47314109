import KaflTargets.Invocation

/-!
# Sequences of library calls

`hypercall` reports a CPU type that was not looked up yet through `habort_msg`,
which calls `hypercall` again: before `get_nyx_cpu_type` the two call each other
without an end, and the assertion behind the report is never reached.

Results:
1. `hypercall_diverges`: with an unset CPU type no bound on the calls is
   enough.
2. `calls_return`: once the CPU type is set, every call returns.
3. `allEnd_iff`: the calls of a sequence end exactly if `get_nyx_cpu_type` comes
   before the first that gets to `hypercall`.
-/

namespace KaflTargets

open CString Prog

/-! ## Definitions -/

/-- A call of the agent library. -/
inductive LibCall
  | hypercall (call : Hypercall)
  | habortMsg (msg : Bytes)
  | hrangeSubmit (id start stop : Nat)
  | hprintfFromFile (f : FILE)
  | checkHostMagic
  | getNyxCpuType

def LibCall.run (fuel : Nat) : LibCall → Guest Unit
  | .hypercall call => do
    let _ ← KaflTargets.hypercall fuel call
  | .habortMsg msg => KaflTargets.habortMsg fuel msg
  | .hrangeSubmit id start stop => KaflTargets.hrangeSubmit fuel id start stop
  | .hprintfFromFile f => do
    let _ ← KaflTargets.hprintfFromFile fuel f
  | .checkHostMagic => do
    let _ ← KaflTargets.checkHostMagic fuel
  | .getNyxCpuType => do
    let _ ← KaflTargets.getNyxCpuType

/-- The call gets to `hypercall`. A stream at its end sends nothing, nor does one
whose first read fails. -/
def LibCall.asksHost : LibCall → Bool
  | .hprintfFromFile f => !f.eof && !(f.fread HPRINTF_MAX_SIZE).2.error
  | .getNyxCpuType => false
  | _ => true

/-- The calls one after the other. -/
def libCalls (fuel : Nat) (calls : List LibCall) : Guest Unit := Prog.each (LibCall.run fuel) calls

/-- Every call of the sequence returns, or one of them fails its assertion: none
is cut off by a bound, if the bound is large enough. -/
def AllEnd (calls : List LibCall) (w : World) : Prop :=
  ∃ bound, ∀ fuel ≥ bound, ((libCalls fuel calls).run w).1 = .ok () ∨
    ((libCalls fuel calls).run w).1 = .error .assertFailed

/-- No call gets to `hypercall` before `get_nyx_cpu_type` was called. -/
def LookedUpFirst (calls : List LibCall) : Prop :=
  ∀ before c after, calls = before ++ c :: after → c.asksHost = true → .getNyxCpuType ∈ before

/-- Nothing was looked up yet, and hypercalls return. -/
structure Fresh (w : World) : Prop where
  cpu : w.nyxCpuType = .nyxCpuInvalid
  returns : w.host.abortReturns = true

/-- The CPU type was looked up, and hypercalls return. -/
structure Ready (w : World) : Prop where
  cpu : w.nyxCpuType ≠ .nyxCpuInvalid
  returns : w.host.abortReturns = true

/-! ## 1. Before the CPU type is looked up -/

/-- With an unset CPU type `hypercall` and `habort_msg` call each other until
the bound is used up. -/
theorem hypercall_diverges {w : World} (hcpu : w.nyxCpuType = .nyxCpuInvalid) : ∀ (fuel : Nat)
    (call : Hypercall), (hypercall fuel call).run w = (.error .timeout, w)
  | 0, call => by
    simp [hypercall, switchCpu, Prog.run_bind, hcpu]
  | fuel + 1, call => by
    have hinner := hypercall_diverges hcpu fuel
      (.userAbort (ascii "get_nyx_cpu_type() must be called first\n"))
    simp [hypercall, switchCpu, Prog.run_bind, hcpu, hinner]

namespace LibraryLemmas

variable {w : World}

/-- The first round of a stream with something to send. -/
theorem stream_diverges (hcpu : w.nyxCpuType = .nyxCpuInvalid) {f : FILE}
    (hasks : (LibCall.hprintfFromFile f).asksHost = true) : ∀ fuel,
    ∃ w', (hprintfFromFile fuel f).run w = (.error .timeout, w')
  | 0 => ⟨w, rfl⟩
  | fuel + 1 => by
    simp only [LibCall.asksHost, Bool.and_eq_true, Bool.not_eq_true'] at hasks
    obtain ⟨w1, hw1⟩ : ∃ w1, w1 = { w with
      hprintfBuffer := overwrite w.hprintfBuffer 0 (f.fread HPRINTF_MAX_SIZE).1 } := ⟨_, rfl⟩
    have hround : (hprintfRound (fuel + 1) (f, 0)).run w = (.error .timeout, w1) := by
      have hcpu1 : w1.nyxCpuType = .nyxCpuInvalid := by rw [hw1]; exact hcpu
      have hcall := hypercall_diverges hcpu1 (fuel + 1) (.printf w1.hprintfBuffer)
      simp only [hprintfRound, hasks.1, hasks.2, Bool.false_eq_true, if_false, Prog.run_bind,
        Prog.run_modify, Prog.run_gets, ← hw1, hcall]
    exact ⟨w1, run_iter_stop hround⟩

/-- A call that gets to `hypercall` is cut off by every bound. -/
theorem run_diverges (hcpu : w.nyxCpuType = .nyxCpuInvalid) {c : LibCall}
    (hasks : c.asksHost = true) (fuel : Nat) :
    ∃ w', (c.run fuel).run w = (.error .timeout, w') := by
  cases c with
  | hypercall call => exact ⟨w, run_bind_error (hypercall_diverges hcpu fuel call)⟩
  | habortMsg msg => exact ⟨w, run_bind_error (hypercall_diverges hcpu fuel _)⟩
  | hrangeSubmit id start stop => exact ⟨w, run_bind_error (hypercall_diverges hcpu fuel _)⟩
  | hprintfFromFile f =>
    obtain ⟨w', hrun⟩ := stream_diverges hcpu hasks fuel
    exact ⟨w', run_bind_error hrun⟩
  | checkHostMagic =>
    obtain ⟨w1, hw1⟩ : ∃ w1, w1 = { w with hostConfig := HostConfig.zero } := ⟨_, rfl⟩
    have hcpu1 : w1.nyxCpuType = .nyxCpuInvalid := by rw [hw1]; exact hcpu
    have hcheck : (checkHostMagic fuel).run w = (.error .timeout, w1) := by
      rw [checkHostMagic, run_bind_ok (run_modify _ _), ← hw1]
      exact run_bind_error (hypercall_diverges hcpu1 fuel _)
    exact ⟨w1, run_bind_error hcheck⟩
  | getNyxCpuType => cases hasks

/-- A stream with nothing to send returns without a hypercall. -/
theorem stream_quiet (h : Fresh w) {f : FILE}
    (hquiet : (LibCall.hprintfFromFile f).asksHost = false) :
    ∃ w', Fresh w' ∧ ∀ fuel, 0 < fuel →
      ((LibCall.hprintfFromFile f).run fuel).run w = (.ok (), w') := by
  cases heof : f.eof with
  | true =>
    refine ⟨w, h, fun fuel hfuel => ?_⟩
    obtain ⟨n, rfl⟩ : ∃ n, fuel = n + 1 := Nat.exists_eq_succ_of_ne_zero (by omega)
    have hround : (hprintfRound (n + 1) (f, 0)).run w = (.ok (.inr 0), w) := by
      simp [hprintfRound, heof]
    exact run_bind_ok (run_iter_done hround)
  | false =>
    have herr : (f.fread HPRINTF_MAX_SIZE).2.error = true := by
      simpa [LibCall.asksHost, heof] using hquiet
    obtain ⟨w1, hw1⟩ : ∃ w1, w1 = { w with
      hprintfBuffer := overwrite w.hprintfBuffer 0 (f.fread HPRINTF_MAX_SIZE).1 } := ⟨_, rfl⟩
    refine ⟨w1, by rw [hw1]; exact ⟨h.cpu, h.returns⟩, fun fuel hfuel => ?_⟩
    obtain ⟨n, rfl⟩ : ∃ n, fuel = n + 1 := Nat.exists_eq_succ_of_ne_zero (by omega)
    have hround : (hprintfRound (n + 1) (f, 0)).run w = (.ok (.inr (-1)), w1) := by
      simp [hprintfRound, heof, herr, Prog.run_bind, hw1]
    exact run_bind_ok (run_iter_done hround)

/-- Looking up the CPU type. -/
theorem getNyxCpuType_ready (h : Fresh w) (fuel : Nat) :
    ∃ w', (LibCall.getNyxCpuType.run fuel).run w = (.ok (), w') ∧ Ready w' := by
  refine ⟨{ w with nyxCpuType := classifyCpuid w.env.cpuid }, ?_, ?_, h.returns⟩
  · simp [LibCall.run, getNyxCpuType, Prog.run_bind, h.cpu]
  · simp only [classifyCpuid]
    split
    · simp
    · split <;> simp

end LibraryLemmas

open LibraryLemmas

/-! ## 2. After the CPU type is looked up -/

namespace LibraryLemmas

variable {w : World}

theorem ready_vmcall (h : Ready w) (call : Hypercall) : Ready (w.vmcall call).2 := by
  obtain ⟨hcpu, hreturns⟩ := h
  cases call
  case reqStreamDataBulk req =>
    simp only [World.vmcall, World.react]
    split <;> exact ⟨hcpu, hreturns⟩
  all_goals exact ⟨hcpu, hreturns⟩

theorem hypercall_ready (h : Ready w) (fuel : Nat) (call : Hypercall) :
    ∃ r w', (hypercall fuel call).run w = (.ok r, w') ∧ Ready w' := by
  have hskipped (ht : w.nyxCpuType = .nyxCpuV2 ∨ w.nyxCpuType = .nyxCpuNone) :
      ∃ r w', (hypercall fuel call).run w = (.ok r, w') ∧ Ready w' :=
    ⟨0, _, hypercall_run_skipped ht fuel call, h.cpu, h.returns⟩
  cases ht : w.nyxCpuType with
  | nyxCpuInvalid => exact absurd ht h.cpu
  | nyxCpuV2 => exact hskipped (.inl ht)
  | nyxCpuNone => exact hskipped (.inr ht)
  | nyxCpuV1 =>
    rw [hypercall_run_v1 ht]
    by_cases habort : ∃ msg, call = .userAbort msg
    · obtain ⟨msg, rfl⟩ := habort
      rw [kAFLHypercall_abort_run, if_pos h.returns]
      exact ⟨0, _, rfl, h.cpu, h.returns⟩
    · rw [kAFLHypercall_run fun msg hmsg => habort ⟨msg, hmsg⟩]
      exact ⟨_, _, rfl, ready_vmcall h call⟩

theorem keeps_hypercall (fuel : Nat) (call : Hypercall) : Keeps Ready (hypercall fuel call) := by
  refine Keeps.of_step fun w h => ?_
  obtain ⟨r, w', hrun, hready⟩ := hypercall_ready h fuel call
  rwa [hrun]

theorem keeps_hprintfFromFile (fuel : Nat) (f : FILE) : Keeps Ready (hprintfFromFile fuel f) := by
  refine Keeps.iter (fun b => ?_) fuel (f, 0)
  obtain ⟨f, written⟩ := b
  refine Keeps.ite (Keeps.pure _) (Keeps.bind (Keeps.modify fun _ h => ⟨h.cpu, h.returns⟩) fun _ =>
    Keeps.ite (Keeps.pure _) ?_)
  exact Keeps.bind (Keeps.gets _) fun _ => Keeps.bind (keeps_hypercall fuel _) fun _ => Keeps.pure _

/-- A call returns, with a bound that depends on the length of its stream
only. -/
theorem run_ready (c : LibCall) : ∃ bound, ∀ fuel ≥ bound, ∀ w, Ready w →
    ∃ w', (c.run fuel).run w = (.ok (), w') ∧ Ready w' := by
  have hcall (fuel : Nat) (call : Hypercall) {w : World} (h : Ready w) :
      ∃ w', (hypercall fuel call >>= fun _ => (pure () : Guest Unit)).run w = (.ok (), w') ∧
        Ready w' := by
    obtain ⟨r, w', hrun, hready⟩ := hypercall_ready h fuel call
    exact ⟨w', run_bind_ok hrun, hready⟩
  cases c with
  | hypercall call => exact ⟨0, fun fuel _ w h => hcall fuel call h⟩
  | habortMsg msg => exact ⟨0, fun fuel _ w h => hcall fuel _ h⟩
  | hrangeSubmit id start stop => exact ⟨0, fun fuel _ w h => hcall fuel _ h⟩
  | hprintfFromFile f =>
    refine ⟨InvocationLemmas.streamRounds f, fun fuel hfuel w h => ?_⟩
    obtain ⟨w', -, hrun⟩ := InvocationLemmas.hprintfFromFile_returns h.cpu hfuel
    have hready := (keeps_hprintfFromFile fuel f).run h
    rw [hrun] at hready
    exact ⟨w', run_bind_ok hrun, hready⟩
  | checkHostMagic =>
    refine ⟨0, fun fuel _ w h => ?_⟩
    obtain ⟨r, w', hrun, hready⟩ := hypercall_ready
      (w := { w with hostConfig := HostConfig.zero }) ⟨h.cpu, h.returns⟩ fuel .getHostConfig
    have hcheck : ∃ ret, (checkHostMagic fuel).run w = (.ok ret, w') := by
      rw [checkHostMagic, run_bind_ok (run_modify _ w), run_bind_ok hrun,
        run_bind_ok (run_gets _ w')]
      split
      · exact ⟨_, rfl⟩
      · split <;> exact ⟨_, rfl⟩
    obtain ⟨ret, hcheck⟩ := hcheck
    exact ⟨w', run_bind_ok hcheck, hready⟩
  | getNyxCpuType =>
    refine ⟨0, fun fuel _ w h => ⟨w, ?_, h⟩⟩
    simp [LibCall.run, getNyxCpuType, Prog.run_bind, h.cpu]

end LibraryLemmas

/-- Once the CPU type is set, all calls of a sequence return. -/
theorem calls_return : ∀ calls : List LibCall, ∃ bound, ∀ fuel ≥ bound, ∀ w, Ready w →
    ∃ w', (libCalls fuel calls).run w = (.ok (), w')
  | [] => ⟨0, fun _ _ w _ => ⟨w, rfl⟩⟩
  | c :: cs => by
    obtain ⟨bound, hfirst⟩ := run_ready c
    obtain ⟨bound', hrest⟩ := calls_return cs
    refine ⟨max bound bound', fun fuel hfuel w h => ?_⟩
    obtain ⟨w1, hrun, hready⟩ := hfirst fuel (Nat.le_trans (Nat.le_max_left _ _) hfuel) w h
    obtain ⟨w2, hrun2⟩ := hrest fuel (Nat.le_trans (Nat.le_max_right _ _) hfuel) w1 hready
    exact ⟨w2, (run_bind_ok hrun).trans hrun2⟩

/-! ## 3. Which sequences end -/

namespace LibraryLemmas

theorem lookedUpFirst_nil : LookedUpFirst [] := by
  intro before c after hsplit
  simp at hsplit

theorem lookedUpFirst_get (cs : List LibCall) : LookedUpFirst (.getNyxCpuType :: cs) := by
  intro before c after hsplit hasks
  cases before with
  | nil =>
    obtain ⟨rfl, -⟩ := List.cons.inj hsplit
    cases hasks
  | cons b before =>
    obtain ⟨rfl, -⟩ := List.cons.inj hsplit
    exact List.mem_cons_self

/-- A first call that is not the lookup must not get to `hypercall`. -/
theorem lookedUpFirst_cons {c : LibCall} (hc : c ≠ .getNyxCpuType) (cs : List LibCall) :
    LookedUpFirst (c :: cs) ↔ c.asksHost = false ∧ LookedUpFirst cs := by
  constructor
  · refine fun h => ⟨?_, fun before c' after hsplit hasks => ?_⟩
    · cases hasks : c.asksHost with
      | false => rfl
      | true => exact absurd (h [] c cs rfl hasks) List.not_mem_nil
    · have hmem := h (c :: before) c' after (by rw [hsplit, List.cons_append]) hasks
      exact (List.mem_cons.mp hmem).resolve_left fun h => hc h.symm
  · rintro ⟨hquiet, h⟩ before c' after hsplit hasks
    cases before with
    | nil =>
      obtain ⟨rfl, -⟩ := List.cons.inj hsplit
      rw [hquiet] at hasks
      cases hasks
    | cons b before =>
      obtain ⟨rfl, hrest⟩ := List.cons.inj hsplit
      exact List.mem_cons_of_mem _ (h before c' after hrest hasks)

/-- What one call of a sequence does before the lookup, by the kind of call. -/
theorem first_cases {w : World} (h : Fresh w) (c : LibCall) :
    c = .getNyxCpuType ∨ (c ≠ .getNyxCpuType ∧ c.asksHost = true) ∨
      (c ≠ .getNyxCpuType ∧ c.asksHost = false ∧
        ∃ w', Fresh w' ∧ ∀ fuel, 0 < fuel → (c.run fuel).run w = (.ok (), w')) := by
  cases c with
  | getNyxCpuType => exact .inl rfl
  | hprintfFromFile f =>
    cases hasks : (LibCall.hprintfFromFile f).asksHost with
    | true => exact .inr (.inl ⟨by simp, rfl⟩)
    | false => exact .inr (.inr ⟨by simp, rfl, stream_quiet h hasks⟩)
  | hypercall call => exact .inr (.inl ⟨by simp, rfl⟩)
  | habortMsg msg => exact .inr (.inl ⟨by simp, rfl⟩)
  | hrangeSubmit id start stop => exact .inr (.inl ⟨by simp, rfl⟩)
  | checkHostMagic => exact .inr (.inl ⟨by simp, rfl⟩)

end LibraryLemmas

/-- From the initial state, all calls of a sequence return if the CPU type is
looked up first. -/
theorem calls_return_fresh : ∀ {calls : List LibCall}, LookedUpFirst calls →
    ∀ {w : World}, Fresh w → ∃ bound, ∀ fuel ≥ bound,
      ∃ w', (libCalls fuel calls).run w = (.ok (), w')
  | [], _, w, _ => ⟨0, fun _ _ => ⟨w, rfl⟩⟩
  | c :: cs, hfirst, w, h => by
    rcases first_cases h c with rfl | ⟨hc, hasks⟩ | ⟨hc, hquiet, w1, hfresh, hrun⟩
    · obtain ⟨bound, hrest⟩ := calls_return cs
      refine ⟨bound, fun fuel hfuel => ?_⟩
      obtain ⟨w1, hrun, hready⟩ := getNyxCpuType_ready h fuel
      obtain ⟨w2, hrun2⟩ := hrest fuel hfuel w1 hready
      exact ⟨w2, (run_bind_ok hrun).trans hrun2⟩
    · have hquiet := ((lookedUpFirst_cons hc cs).mp hfirst).1
      rw [hasks] at hquiet
      cases hquiet
    · obtain ⟨bound, hrest⟩ :=
        calls_return_fresh ((lookedUpFirst_cons hc cs).mp hfirst).2 hfresh
      refine ⟨bound + 1, fun fuel hfuel => ?_⟩
      obtain ⟨w2, hrun2⟩ := hrest fuel (by omega)
      exact ⟨w2, (run_bind_ok (hrun fuel (by omega))).trans hrun2⟩

/-- Otherwise a call is cut off by every bound. -/
theorem calls_diverge : ∀ {calls : List LibCall}, ¬LookedUpFirst calls →
    ∀ {w : World}, Fresh w → ∀ fuel, 0 < fuel →
      ((libCalls fuel calls).run w).1 = .error .timeout
  | [], hfirst, _, _, _, _ => absurd lookedUpFirst_nil hfirst
  | c :: cs, hfirst, w, h, fuel, hfuel => by
    rcases first_cases h c with rfl | ⟨hc, hasks⟩ | ⟨hc, hquiet, w1, hfresh, hrun⟩
    · exact absurd (lookedUpFirst_get cs) hfirst
    · obtain ⟨w1, hrun⟩ := run_diverges h.cpu hasks fuel
      exact congrArg Prod.fst (run_bind_error hrun)
    · have hrest : ¬LookedUpFirst cs := fun h =>
        hfirst ((lookedUpFirst_cons hc cs).mpr ⟨hquiet, h⟩)
      have hcut := calls_diverge hrest hfresh fuel hfuel
      exact (congrArg Prod.fst (run_bind_ok (hrun fuel hfuel))).trans hcut

/-- The calls of a sequence, made from the initial state, all end exactly if no
call gets to `hypercall` before `get_nyx_cpu_type`. Then they all return; the
assertion is not reached by any sequence. -/
theorem allEnd_iff {calls : List LibCall} {w : World} (h : Fresh w) :
    (AllEnd calls w ↔ LookedUpFirst calls) ∧
      (LookedUpFirst calls → ∃ bound, ∀ fuel ≥ bound,
        ((libCalls fuel calls).run w).1 = .ok ()) ∧
      (¬LookedUpFirst calls → ∀ fuel > 0, ((libCalls fuel calls).run w).1 = .error .timeout) := by
  have hreturn (hfirst : LookedUpFirst calls) : ∃ bound, ∀ fuel ≥ bound,
      ((libCalls fuel calls).run w).1 = .ok () := by
    obtain ⟨bound, hrun⟩ := calls_return_fresh hfirst h
    refine ⟨bound, fun fuel hfuel => ?_⟩
    obtain ⟨w', hrun⟩ := hrun fuel hfuel
    exact congrArg Prod.fst hrun
  refine ⟨⟨fun hend => ?_, fun hfirst => ?_⟩, hreturn, fun hfirst => calls_diverge hfirst h⟩
  · by_contra hfirst
    obtain ⟨bound, hend⟩ := hend
    have hcut := calls_diverge hfirst h (bound + 1) (Nat.succ_pos _)
    rcases hend (bound + 1) (Nat.le_succ _) with hok | hassert
    · rw [hcut] at hok
      cases hok
    · rw [hcut] at hassert
      cases hassert
  · obtain ⟨bound, hrun⟩ := hreturn hfirst
    exact ⟨bound, fun fuel hfuel => .inl (hrun fuel hfuel)⟩

/-- A process that has not looked up its CPU type. -/
def unsetWorld : World := { env := Env.plain, host := { abortReturns := true } }

/-- The lookup and a message. -/
theorem allEnd_message :
    AllEnd [.getNyxCpuType, .habortMsg (ascii "bye")] unsetWorld ∧
      LookedUpFirst [.getNyxCpuType, .habortMsg (ascii "bye")] :=
  have hfirst := lookedUpFirst_get [.habortMsg (ascii "bye")]
  ⟨(allEnd_iff ⟨rfl, rfl⟩).1.mpr hfirst, hfirst⟩

/-- A message without the lookup. -/
theorem habortMsg_never_ends : ¬AllEnd [.habortMsg (ascii "bye")] unsetWorld := by
  rintro ⟨bound, hend⟩
  have hcut : (libCalls bound [.habortMsg (ascii "bye")]).run unsetWorld =
      (.error .timeout, unsetWorld) :=
    run_bind_error (run_bind_error (hypercall_diverges rfl bound _))
  have hends := hend bound (Nat.le_refl _)
  rw [hcut] at hends
  simp at hends

end KaflTargets
