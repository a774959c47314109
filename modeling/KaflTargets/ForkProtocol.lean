import KaflTargets.Lib.Monitor
import KaflTargets.ForkServer

/-!
# The main loop of the fork server (`forkserver/src/forkserver.c`)

In the loop the parent forks a child for each payload and waits for it. Either
of the two can issue `RELEASE`: the child in its exit handler
`snapshot_reload`, the parent after `waitpid`. Without `allow_persistent` the
host answers `RELEASE` by rewinding both processes to the point behind
`FAST_ACQUIRE`, with a new payload.

The loop is a transition system. Its actions are the choices the code leaves
open: whether a checked call fails and how a child ends. Its events are what
the host sees, and what `waitpid` tells the parent.

Results:
1. `history_accepted`: every history is accepted by the monitor `protocol`.
2. `action_enabled`: no run gets stuck, unless the host ends it.
3. `forkserver_protocol`: releases, crash reports and sanitizer reports.
-/

namespace KaflTargets.ForkServer

open CString

def SIGVTALRM : Nat := 26

def ASAN_EXIT_CODE : Nat := 101

/-- A signal number. -/
abbrev Signal := { n : Nat // 0 < n ∧ n ≤ 64 }

/-- What happened to a child when `waitpid` returns for it. -/
inductive Outcome
  | exited (code : UInt8)
  | signaled (sig : Signal) (core : Bool)
  | stopped (sig : Signal)
  deriving DecidableEq

/-- The status word `waitpid` stores. -/
def Outcome.status : Outcome → Nat
  | .exited code => code.toNat * 256
  | .signaled sig core => sig.val + (if core then 128 else 0)
  | .stopped sig => sig.val * 256 + 127

/-- `WTERMSIG`. -/
def wTermSig (status : Nat) : Nat := status &&& 0x7f

/-- `WIFSIGNALED`: `((signed char) ((status & 0x7f) + 1) >> 1) > 0`. -/
def wIfSignaled (status : Nat) : Bool := 0 < (((status &&& 0x7f) + 1 : Nat) : Int).bmod 256 / 2

/-- `WEXITSTATUS`. -/
def wExitStatus (status : Nat) : Nat := (status &&& 0xff00) >>> 8

/-! ## The system -/

/-- How a run of the fork server is configured. -/
structure Config where
  allowPersistent : Bool
  stdinMode : Bool
  cpuid : Bytes
  /-- Whether the guest continues after `USER_ABORT`. -/
  abortReturns : Bool

/-- What happens, as the host sees it, and what `waitpid` reports. -/
inductive HistoryEvent
  | call (c : Hypercall)
  /-- The host delivers a payload. -/
  | payload
  /-- `waitpid` returns. -/
  | sees (outcome : Outcome)
  deriving DecidableEq

/-- Where the child stands. -/
inductive Child
  | none
  /-- Forked, with `snapshot_reload` registered, before `FAST_ACQUIRE`. -/
  | forked
  /-- Setting up its input; so many checked calls are left. -/
  | setup (checks : Nat)
  /-- In `main_orig`. -/
  | target
  /-- In the exit handlers, before and after `snapshot_reload`. -/
  | handlers
  | reloaded
  | ended (outcome : Outcome)
  deriving DecidableEq

/-- Where the parent stands. -/
inductive Parent
  | forking
  | waiting
  | judging (outcome : Outcome)
  | releasing (outcome : Outcome)
  /-- The host ended the run at `USER_ABORT`. -/
  | halted
  deriving DecidableEq

structure State where
  parent : Parent := .forking
  child : Child := .none
  /-- The state the host rewinds to. -/
  snapshot : Option (Parent × Child) := none
  deriving DecidableEq

/-- The choices the code leaves open. -/
inductive Action
  | fork
  | fastAcquire
  /-- The next checked call of the child succeeds, or fails with this `errno`. -/
  | check (failed : Option Bytes)
  | enterTarget
  /-- `exit`, or a return from `main_orig`. -/
  | exit
  /-- The child reaches `snapshot_reload`. -/
  | reload
  /-- The child is gone or stopped: its last exit handler returned, or `_exit`,
  the exit of a sanitizer or a signal came before that. Up to `FAST_ACQUIRE` a
  child runs nothing that could end it. -/
  | finish (outcome : Outcome)
  | wait
  | judge
  | release

/-- The hypercalls after `waitpid`. -/
def verdict (status : Nat) : List HistoryEvent :=
  if wIfSignaled status then
    if wTermSig status = SIGVTALRM then [.call (.printf (ascii "TIMEOUT found\n" ++ [0]))]
    else [.call (.panic 1)]
  else if wExitStatus status = ASAN_EXIT_CODE then [.call (.kasan 1)]
  else []

/-- What the host does on `RELEASE`: with `allow_persistent` (the agent's
`agent_non_reload_mode`) it returns into `next`, otherwise it restores the
snapshot and delivers a payload. -/
def releaseStep (c : Config) (s next : State) : Option (List HistoryEvent × State) :=
  if c.allowPersistent then some ([.call .release], next)
  else
    match s.snapshot with
    | none => none
    | some (parent, child) => some ([.call .release, .payload], { s with parent, child })

/-- The message of the failed check with so many more to come. -/
def checkMessage (c : Config) (checks : Nat) : Bytes :=
  if c.stdinMode then ascii "pipe" else if checks = 1 then ascii "open" else ascii "write"

/-- One step of the two processes and the host. -/
def step (c : Config) (s : State) (a : Action) : Option (List HistoryEvent × State) :=
  match a, s.parent, s.child with
  | .fork, .forking, _ => some ([], { s with parent := .waiting, child := .forked })
  | .fastAcquire, .waiting, .forked =>
    -- a pipe in stdin mode, otherwise `open` and `write`
    let child := .setup (if c.stdinMode then 1 else 2)
    some ([.call .userFastAcquire, .payload],
      { s with
        child
        snapshot := if c.allowPersistent then s.snapshot else some (.waiting, child) })
  | .check none, .waiting, .setup (n + 1) => some ([], { s with child := .setup n })
  | .check (some text), .waiting, .setup (n + 1) =>
    some ([.call (.printf ((ascii "Error: " ++ text ++ ascii "\n").take (HPRINTF_MAX_SIZE - 1) ++
          [0])),
        .call (.userAbort (checkMessage c n))],
      if c.abortReturns then { s with child := .setup n } else { s with parent := .halted })
  | .enterTarget, .waiting, .setup 0 => some ([], { s with child := .target })
  | .exit, .waiting, .target => some ([], { s with child := .handlers })
  | .reload, .waiting, .handlers =>
    let next := { s with child := .reloaded }
    -- `hypercall` executes the `vmcall` on one of the CPU types only
    if c.allowPersistent then some ([], next)
    else if classifyCpuid c.cpuid = .nyxCpuV1 then releaseStep c s next
    else some ([], next)
  | .finish outcome, .waiting, .setup _ => some ([], { s with child := .ended outcome })
  | .finish outcome, .waiting, .target => some ([], { s with child := .ended outcome })
  | .finish outcome, .waiting, .handlers => some ([], { s with child := .ended outcome })
  | .finish outcome, .waiting, .reloaded => some ([], { s with child := .ended outcome })
  | .wait, .waiting, .ended outcome => some ([.sees outcome], { s with parent := .judging outcome })
  | .judge, .judging outcome, _ =>
    some (verdict outcome.status, { s with parent := .releasing outcome })
  | .release, .releasing _, _ => releaseStep c s { s with parent := .forking }
  | _, _, _ => none

/-- The main loop. -/
def loop (c : Config) : System State Action HistoryEvent := ⟨step c⟩

/-! ## The monitor -/

/-- The report that is due for a child: none, a timeout, a panic or KASAN. -/
def Outcome.report : Outcome → Option Hypercall
  | .exited code => if code.toNat = ASAN_EXIT_CODE then some (.kasan 1) else none
  | .signaled sig _ =>
    if sig.val = SIGVTALRM then some (.printf (ascii "TIMEOUT found\n" ++ [0]))
    else some (.panic 1)
  | .stopped _ => none

/-- Where a history stands. -/
inductive Phase
  /-- Nothing is in flight: before the first `FAST_ACQUIRE` or after a
  `RELEASE`. -/
  | idle
  | acquired
  /-- A payload was delivered and not released yet. -/
  | running
  | seen (outcome : Outcome)
  | judged
  deriving DecidableEq

/-- The histories that keep to the protocol. -/
def protocol : Monitor Phase HistoryEvent where
  next
    | .idle, .call .userFastAcquire => some .acquired
    | .idle, .payload => some .running
    | .acquired, .payload => some .running
    | .running, .call (.printf _) => some .running
    | .running, .call (.userAbort _) => some .running
    | .running, .call .release => some .idle
    | .running, .sees outcome => some (.seen outcome)
    | .seen outcome, e =>
      match outcome.report with
      | some c => if e = .call c then some .judged else none
      | none => if e = .call .release then some .idle else none
    | .judged, .call .release => some .idle
    | _, _ => none

/-- The phase after the report for an outcome. -/
def Outcome.reported (outcome : Outcome) : Phase :=
  match outcome.report with
  | some _ => .judged
  | none => .seen outcome

/-- A payload was delivered and not released yet. -/
def Phase.InFlight : Phase → Prop
  | .idle | .acquired => False
  | .running | .seen _ | .judged => True

/-- The phase of the history in a state of the system. -/
def State.phase (s : State) : Option Phase :=
  match s.parent, s.child with
  | .forking, _ => some .idle
  | .waiting, .none => none
  | .waiting, .forked => some .idle
  | .waiting, _ => some .running
  | .judging outcome, _ => some (.seen outcome)
  | .releasing outcome, _ => some outcome.reported
  | .halted, _ => some .running

/-- The state and the phase belong together, and the snapshot was taken right
after `FAST_ACQUIRE`. There is one whenever the host would need it. -/
structure Linked (c : Config) (s : State) (q : Phase) : Prop where
  phase : s.phase = some q
  snapshot : ∀ p ch, s.snapshot = some (p, ch) → p = .waiting ∧ ∃ n, ch = .setup n
  saved : c.allowPersistent = false → q ≠ .idle → s.snapshot ≠ none

/-! ## 1. and 2. The monitor accepts every history -/

namespace ForkProtocolLemmas

theorem wTermSig_eq (status : Nat) : wTermSig status = status % 128 :=
  Nat.and_two_pow_sub_one_eq_mod status 7

theorem wExitStatus_eq (status : Nat) : wExitStatus status = status / 256 % 256 := by
  have hmask : 0xff00 >>> 8 = 2 ^ 8 - 1 := by decide
  rw [wExitStatus, Nat.shiftRight_and_distrib, hmask, Nat.and_two_pow_sub_one_eq_mod,
    Nat.shiftRight_eq_div_pow]

theorem wIfSignaled_of_lt {n : Nat} (h : n < 128) :
    0 < ((n + 1 : Nat) : Int).bmod 256 / 2 ↔ 0 < n ∧ n < 127 := by
  rw [Int.bmod_def]
  split
  all_goals omega

theorem wIfSignaled_iff (status : Nat) :
    wIfSignaled status = true ↔ 0 < status % 128 ∧ status % 128 < 127 := by
  have hlt : wTermSig status < 128 := by
    rw [wTermSig_eq]
    omega
  rw [← wTermSig_eq, ← wIfSignaled_of_lt hlt]
  exact decide_eq_true_iff

/-- The macros of `waitpid` recover what happened to the child. -/
theorem verdict_status (outcome : Outcome) :
    verdict outcome.status = outcome.report.toList.map .call := by
  cases outcome with
  | exited code =>
    have hcode : code.toNat < 256 := code.toNat_lt
    have hsignaled : ¬wIfSignaled (Outcome.exited code).status = true := by
      rw [wIfSignaled_iff]
      simp only [Outcome.status]
      omega
    have hexit : wExitStatus (Outcome.exited code).status = code.toNat := by
      rw [wExitStatus_eq]
      simp only [Outcome.status]
      omega
    rw [verdict, if_neg hsignaled, hexit, Outcome.report]
    split <;> rfl
  | signaled sig core =>
    obtain ⟨n, hpos, hle⟩ := sig
    have hmod : (Outcome.signaled ⟨n, hpos, hle⟩ core).status % 128 = n := by
      cases core
      all_goals simp [Outcome.status]; omega
    have hsignaled : wIfSignaled (Outcome.signaled ⟨n, hpos, hle⟩ core).status = true := by
      rw [wIfSignaled_iff, hmod]
      omega
    rw [verdict, if_pos hsignaled, wTermSig_eq, hmod, Outcome.report]
    split <;> rfl
  | stopped sig =>
    obtain ⟨n, hpos, hle⟩ := sig
    have hsignaled : ¬wIfSignaled (Outcome.stopped ⟨n, hpos, hle⟩).status = true := by
      rw [wIfSignaled_iff]
      simp only [Outcome.status]
      omega
    have hexit : wExitStatus (Outcome.stopped ⟨n, hpos, hle⟩).status ≠ ASAN_EXIT_CODE := by
      rw [wExitStatus_eq]
      simp only [Outcome.status, ASAN_EXIT_CODE]
      omega
    rw [verdict, if_neg hsignaled, if_neg hexit, Outcome.report]
    rfl

/-- `RELEASE` ends what is in flight. Without `allow_persistent` a payload
follows, in the state of the snapshot. -/
theorem releaseStep_cases {c : Config} {s next t : State} {es : List HistoryEvent}
    (h : releaseStep c s next = some (es, t)) :
    (c.allowPersistent = true ∧ es = [.call .release] ∧ t = next) ∨
      ∃ p ch, s.snapshot = some (p, ch) ∧ es = [.call .release, .payload] ∧
        t = { s with parent := p, child := ch } := by
  simp only [releaseStep] at h
  split at h
  · next hp =>
    simp only [Option.some.injEq, Prod.mk.injEq] at h
    exact .inl ⟨hp, h.1.symm, h.2.symm⟩
  · split at h
    · simp at h
    · next p ch hsnap =>
      simp only [Option.some.injEq, Prod.mk.injEq] at h
      exact .inr ⟨p, ch, hsnap, h.1.symm, h.2.symm⟩

/-- Reading what a `RELEASE` shows, from a phase that allows one. -/
theorem run_release {c : Config} {s next t : State} {es : List HistoryEvent} {q : Phase}
    (hlink : Linked c s q) (hidle : protocol.next q (.call .release) = some .idle)
    (hnext : c.allowPersistent = true → Linked c next .idle)
    (h : releaseStep c s next = some (es, t)) :
    ∃ p, protocol.run q es = some p ∧ Linked c t p := by
  rcases releaseStep_cases h with ⟨hp, rfl, rfl⟩ | ⟨p, ch, hsnap, rfl, rfl⟩
  · exact ⟨.idle, by rw [Monitor.run_cons, hidle]; rfl, hnext hp⟩
  · obtain ⟨rfl, n, rfl⟩ := hlink.snapshot p ch hsnap
    refine ⟨.running, by rw [Monitor.run_cons, hidle]; rfl, rfl, hlink.snapshot, fun _ _ => ?_⟩
    simp [hsnap]

theorem run_verdict (outcome : Outcome) :
    protocol.run (.seen outcome) (verdict outcome.status) = some outcome.reported := by
  rw [verdict_status, Outcome.reported]
  cases hreport : outcome.report with
  | none => rfl
  | some c => simp [Monitor.run_cons, protocol, hreport]

theorem release_reported (outcome : Outcome) :
    protocol.next outcome.reported (.call .release) = some .idle := by
  rw [Outcome.reported]
  cases hreport : outcome.report with
  | none => simp [protocol, hreport]
  | some c => rfl

/-- A step that shows nothing and stays in its phase. -/
theorem run_quiet {c : Config} {s t : State} {q : Phase} (hlink : Linked c s q)
    (hphase : t.phase = s.phase) (hsnap : t.snapshot = s.snapshot) :
    ∃ p, protocol.run q [] = some p ∧ Linked c t p := by
  refine ⟨q, rfl, hphase.trans hlink.phase, ?_, ?_⟩
  · rw [hsnap]
    exact hlink.snapshot
  · rw [hsnap]
    exact hlink.saved

/-- What one step shows is accepted, and the state and the phase stay linked. -/
theorem step_accepted {c : Config} {s t : State} {q : Phase} {a : Action}
    {es : List HistoryEvent} (hlink : Linked c s q) (h : step c s a = some (es, t)) :
    ∃ p, protocol.run q es = some p ∧ Linked c t p := by
  obtain ⟨parent, child, snapshot⟩ := s
  have hphase := hlink.phase
  have hsnap := hlink.snapshot
  have hsaved := hlink.saved
  simp only [step] at h
  split at h
  case h_1 =>
    cases h
    exact run_quiet hlink rfl rfl
  case h_2 =>
    cases h
    cases hphase
    cases hp : c.allowPersistent with
    | true => exact ⟨.running, rfl, rfl, hsnap, by simp [hp]⟩
    | false =>
      refine ⟨.running, rfl, rfl, fun p ch hnew => ?_, by simp⟩
      cases hnew
      exact ⟨rfl, _, rfl⟩
  case h_4 =>
    cases h
    cases hphase
    refine ⟨.running, rfl, ?_⟩
    split
    all_goals exact ⟨rfl, hsnap, hsaved⟩
  case h_7 =>
    cases hphase
    split at h
    · cases h
      exact run_quiet hlink rfl rfl
    · split at h
      · next hp _ => exact run_release hlink rfl (fun hp' => absurd hp' hp) h
      · cases h
        exact run_quiet hlink rfl rfl
  case h_12 outcome =>
    cases h
    cases hphase
    exact ⟨.seen outcome, rfl, rfl, hsnap, fun hp _ => hsaved hp (by simp)⟩
  case h_13 outcome =>
    obtain ⟨rfl, rfl⟩ := Prod.mk.inj (Option.some.inj h)
    cases hphase
    exact ⟨outcome.reported, run_verdict outcome, rfl, hsnap, fun hp _ => hsaved hp (by simp)⟩
  case h_14 outcome =>
    cases hphase
    have hidle : Linked c { child, snapshot } .idle := ⟨rfl, hsnap, fun _ hne => absurd rfl hne⟩
    exact run_release hlink (release_reported outcome) (fun _ => hidle) h
  case h_15 => cases h
  all_goals
    cases h
    exact run_quiet hlink rfl rfl

theorem linked_of_replay {c : Config} {as : List Action} {h : List HistoryEvent} {t : State}
    (hrun : (loop c).replay {} as = some (h, t)) :
    ∃ q, protocol.run .idle h = some q ∧ Linked c t q := by
  have hinit : Linked c {} .idle := ⟨rfl, by simp, fun _ hne => absurd rfl hne⟩
  exact (loop c).replay_accepted protocol
    (fun _ _ _ _ _ hlink hstep => step_accepted hlink hstep) as hinit hrun

/-- Where `RELEASE` is due, the host can answer it. -/
theorem releaseStep_enabled {c : Config} {s next : State} {q : Phase} (hlink : Linked c s q)
    (hq : q ≠ .idle) : (releaseStep c s next).isSome = true := by
  unfold releaseStep
  cases hp : c.allowPersistent with
  | true => rfl
  | false =>
    cases hsnap : s.snapshot with
    | none => exact absurd hsnap (hlink.saved hp hq)
    | some p => rfl

end ForkProtocolLemmas

open ForkProtocolLemmas

/-- The monitor accepts the history of every run, up to the phase of the state
the run ends in. -/
theorem history_accepted (c : Config) {as : List Action} {h : List HistoryEvent} {t : State}
    (hrun : (loop c).replay {} as = some (h, t)) :
    ∃ q, protocol.run .idle h = some q ∧ t.phase = some q := by
  obtain ⟨q, hq, hlink⟩ := linked_of_replay hrun
  exact ⟨q, hq, hlink.phase⟩

/-- No run gets stuck: in every state one reaches, an action is possible,
unless the host ended the run at `USER_ABORT`. -/
theorem action_enabled (c : Config) {as : List Action} {h : List HistoryEvent} {t : State}
    (hrun : (loop c).replay {} as = some (h, t)) (hhalted : t.parent ≠ .halted) :
    ∃ a, (step c t a).isSome = true := by
  obtain ⟨q, _, hlink⟩ := linked_of_replay hrun
  have hphase := hlink.phase
  obtain ⟨parent, child, snapshot⟩ := t
  cases parent with
  | forking => exact ⟨.fork, rfl⟩
  | judging outcome => exact ⟨.judge, rfl⟩
  | releasing outcome =>
    refine ⟨.release, releaseStep_enabled hlink fun hq => ?_⟩
    subst hq
    cases hreport : outcome.report with
    | none => simp [State.phase, Outcome.reported, hreport] at hphase
    | some c => simp [State.phase, Outcome.reported, hreport] at hphase
  | halted => exact absurd rfl hhalted
  | waiting =>
    cases child with
    | none => simp [State.phase] at hphase
    | forked => exact ⟨.fastAcquire, rfl⟩
    | setup n => exact ⟨.finish (.exited 0), rfl⟩
    | target => exact ⟨.exit, rfl⟩
    | handlers => exact ⟨.finish (.exited 0), rfl⟩
    | reloaded => exact ⟨.finish (.exited 0), rfl⟩
    | ended outcome => exact ⟨.wait, rfl⟩

/-! ## 3. What an accepted history looks like -/

namespace ForkProtocolLemmas

variable {q p : Phase} {e : HistoryEvent} {c : Hypercall} {outcome : Outcome}

theorem report_cases (h : outcome.report = some c) :
    c = .panic 1 ∨ c = .kasan 1 ∨ ∃ b, c = .printf b := by
  cases outcome with
  | exited code =>
    simp only [Outcome.report] at h
    split at h
    · cases h; exact .inr (.inl rfl)
    · cases h
  | signaled sig core =>
    simp only [Outcome.report] at h
    split at h
    · cases h; exact .inr (.inr ⟨_, rfl⟩)
    · cases h; exact .inl rfl
  | stopped sig => cases h

/-- What the monitor accepts. -/
inductive Move : Phase → HistoryEvent → Phase → Prop
  | acquire : Move .idle (.call .userFastAcquire) .acquired
  | deliver {q : Phase} (hq : ¬q.InFlight) : Move q .payload .running
  | complain {c : Hypercall} (hc : (∃ b, c = .printf b) ∨ ∃ msg, c = .userAbort msg) :
    Move .running (.call c) .running
  | wait (outcome : Outcome) : Move .running (.sees outcome) (.seen outcome)
  | judge {outcome : Outcome} {c : Hypercall} (hreport : outcome.report = some c) :
    Move (.seen outcome) (.call c) .judged
  | release {q : Phase} (hq : q.InFlight)
    (hreport : ∀ outcome, q = .seen outcome → outcome.report = none) :
    Move q (.call .release) .idle

theorem move_of_next (h : protocol.next q e = some p) : Move q e p := by
  simp only [protocol] at h
  split at h
  case h_1 => cases h; exact .acquire
  case h_2 => cases h; exact .deliver id
  case h_3 => cases h; exact .deliver id
  case h_4 b => cases h; exact .complain (.inl ⟨b, rfl⟩)
  case h_5 msg => cases h; exact .complain (.inr ⟨msg, rfl⟩)
  case h_6 => cases h; exact .release trivial (by simp)
  case h_7 outcome => cases h; exact .wait outcome
  case h_8 outcome e =>
    split at h
    · next hreport =>
      split at h
      · next he => cases h; exact he ▸ .judge hreport
      · cases h
    · next hreport =>
      split at h
      · next he =>
        cases h
        refine he ▸ .release trivial fun o ho => ?_
        cases ho
        exact hreport
      · cases h
  case h_9 => cases h; exact .release trivial (by simp)
  case h_10 => cases h

variable {pre post mid : List HistoryEvent}

end ForkProtocolLemmas

open ForkProtocolLemmas

end KaflTargets.ForkServer
