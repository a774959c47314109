import KaflTargets.Lib.Turns
import KaflTargets.Session
import KaflTargets.SymbolLookup

/-!
# The macOS loader (`macOS_x86_64/loader/loader.c`)

The loader makes the handshake, takes a program from the host, writes it to a file, and then
forks a child that executes it, waits for it, issues `RELEASE` and forks the next one, for ever.
The program makes hypercalls of its own while the loader waits. It can end at any time, so
also in the middle of an iteration.

`execute_program` is a transition system. Its actions are the choices the code leaves open:
whether `fork` and `execve` fail, when the program runs, and when a child ends. What the
program does is a parameter.

Results:
1. `loader_turns`: the programs run one after the other, and `RELEASE` stands between them.
2. `loader_blocked_iff`: the loader waits only for a child that has not ended.
3. `loader_iterations`: with the fuzzer as the program, no iteration is started while another
   one is open.
-/

namespace KaflTargets.MacLoader

open CString Prog

/-! ## The handshake -/

/-- `HYPERCALL_KAFL_GET_PROGRAM`. -/
def getProgram (addr : Nat) : Hypercall := .other 2 addr

/-- `load_program` up to `execute_program`. -/
def loadProgram (targetFile : Bytes) (buf programSize : Nat) : Guest Unit := do
  match ← openCreate targetFile 0o777 with
  -- `write` on -1
  | none => Prog.modify fun w =>
    { w with errno := 9, trace := w.trace ++ [.write buf programSize (-1)] }
  | some payloadFile => do
    let _ ← write payloadFile buf programSize
    close payloadFile

/-- `main` up to `execute_program`, with the constants `PROGRAM_SIZE` and `TARGET_FILE` of
`kafl_user.h`, and the program the host provides. -/
def main (sys : SymbolQueries) (targetFile : Bytes) (programSize : Nat) (program : Bytes) :
    Guest Unit := do
  let panicHandler ← getKernelSymbolAddr sys (ascii "T _panic")
  let panicHandler64 ← getKernelSymbolAddr sys (ascii "T _panic_64")
  let programBuffer ← alignedAlloc programSize
  memset programBuffer 0xff programSize
  let _ ← kAFLHypercall .lock
  let _ ← kAFLHypercall .acquire
  let _ ← kAFLHypercall .release
  let _ ← kAFLHypercall (.submitPanic panicHandler.toNat)
  let _ ← kAFLHypercall (.submitPanic panicHandler64.toNat)
  let _ ← kAFLHypercall (getProgram programBuffer)
  Prog.modify fun w => { w with mem := w.mem.store programBuffer program }
  loadProgram targetFile programBuffer programSize

/-! ## `execute_program` -/

/-- Where the loader stands. -/
inductive Loop
  /-- At the `while`, with this value of `cpid`. -/
  | head (cpid : Int)
  | release
  | fork
  deriving DecidableEq

/-- Where a child stands. -/
inductive Process
  /-- At the `while`; `cpid` is 0 there. -/
  | head
  /-- In the program, so many events after its start. -/
  | program (done : Nat)
  | zombie
  deriving DecidableEq

/-- A child of the loader: the `run`-th call of `fork` made it. -/
structure Child where
  pid : Nat
  run : Nat
  process : Process
  deriving DecidableEq

structure State where
  loop : Loop := .fork
  children : List Child := []
  /-- How often `fork` was called. -/
  forks : Nat := 0
  deriving DecidableEq

inductive Action
  /-- The pid of the child, if there is one. -/
  | fork (pid : Option { n : Nat // 0 < n })
  | execve (pid : Nat) (ok : Bool)
  /-- The program shows its next event. -/
  | run (pid : Nat)
  /-- A child exits or is killed. -/
  | die (pid : Nat)
  | wait
  | release

/-- What a child does. -/
def State.update (s : State) (pid : Nat) (process : Process) : State :=
  { s with
    children := s.children.map fun c => if c.pid = pid then { c with process := process } else c }

def State.child (s : State) (pid : Nat) : Option Child := s.children.find? fun c => c.pid = pid

/-- `waitpid(-1, ..)`: there is no child, or one that has ended is reaped. -/
def State.waitpid (s : State) : Option State :=
  if s.children = [] then some { s with loop := .release }
  else
    (s.children.find? fun c => c.process = .zombie).map fun c =>
      { s with loop := .release, children := s.children.erase c }

/-- `RELEASE`, as the host sees it. -/
def mark : Event := .vmcall .release 0

/-- A step, where the child of the `k`-th `fork` shows the events `plan k` if it is left alone. -/
def step (plan : Nat → List Event) (s : State) : Action → Option (List Event × State)
  | .fork none =>
    if s.loop = .fork then some ([], { s with loop := .head (-1), forks := s.forks + 1 }) else none
  | .fork (some pid) =>
    if s.loop = .fork ∧ s.child pid = none then
      some ([],
        { loop := .head pid
          children := ⟨pid, s.forks, .head⟩ :: s.children
          forks := s.forks + 1 })
    else none
  | .execve pid ok =>
    match s.child pid with
    | some ⟨_, _, .head⟩ => some ([], if ok then s.update pid (.program 0) else s)
    | _ => none
  | .run pid =>
    match s.child pid with
    | some ⟨_, run, .program done⟩ =>
      (plan run)[done]?.map fun e => ([e], s.update pid (.program (done + 1)))
    | _ => none
  | .die pid =>
    match s.child pid with
    | none | some ⟨_, _, .zombie⟩ => none
    | _ => some ([], s.update pid .zombie)
  | .wait =>
    match s.loop with
    | .head cpid => if cpid = 0 then none else s.waitpid.map fun t => ([], t)
    | _ => none
  | .release => if s.loop = .release then some ([mark], { s with loop := .fork }) else none

def executeProgram (plan : Nat → List Event) : System State Action Event where
  step := step plan

/-! ## 1. Turns -/

/-- What a child has shown, of the events it would show. -/
def Process.Shown (plan : List Event) : Process → List Event → Prop
  | .head, turn => turn = []
  | .program done, turn => turn = plan.take done ∧ done ≤ plan.length
  | .zombie, turn => turn <+: plan

/-- What is in progress after so many turns. -/
inductive Current (plan : Nat → List Event) (turns : Nat) : State → List Event → Prop
  | fork : Current plan turns ⟨.fork, [], turns⟩ []
  | failed : Current plan turns ⟨.head (-1), [], turns + 1⟩ []
  | child {pid : Nat} {process : Process} {turn : List Event} (hpid : 0 < pid)
      (h : process.Shown (plan turns) turn) :
      Current plan turns ⟨.head pid, [⟨pid, turns, process⟩], turns + 1⟩ turn
  | release {turn : List Event} (h : turn <+: plan turns) :
      Current plan turns ⟨.release, [], turns + 1⟩ turn

/-- The history is the turns of the programs, and what is in progress. -/
structure Serial (plan : Nat → List Event) (history : List Event) (s : State)
    (turns : List (List Event)) (turn : List Event) : Prop where
  history_eq : history = Turns.closed mark turns ++ turn
  beginnings : ∀ i t, turns[i]? = some t → t <+: plan i
  current : Current plan turns.length s turn

namespace LoaderLemmas

variable {plan : Nat → List Event} {s t : State} {es history turn : List Event}
  {turns : List (List Event)} {a : Action} {n : Nat}

theorem shown_beginning {p : List Event} {process : Process} (h : process.Shown p turn) :
    turn <+: p := by
  cases process with
  | head =>
    obtain rfl : turn = [] := h
    exact List.nil_prefix
  | program done =>
    rw [h.1]
    exact List.take_prefix done p
  | zombie => exact h

section Single

variable (loop : Loop) (pid run forks : Nat) (process : Process)

/-- A loader with one child. -/
abbrev single : State := ⟨loop, [⟨pid, run, process⟩], forks⟩

theorem child_single (pid' : Nat) :
    (single loop pid run forks process).child pid' =
      if pid = pid' then some ⟨pid, run, process⟩ else none := by
  unfold State.child
  split_ifs with h
  · simp [h]
  · simp [h]

theorem update_single (process' : Process) :
    (single loop pid run forks process).update pid process' =
      single loop pid run forks process' := by
  simp [single, State.update]

theorem waitpid_single :
    (single loop pid run forks process).waitpid =
      if process = .zombie then some ⟨.release, [], forks⟩ else none := by
  unfold State.waitpid
  rw [if_neg (List.cons_ne_nil _ _)]
  cases process with
  | zombie => simp
  | head => rfl
  | program done => rfl

end Single

/-- A step without children. -/
theorem step_alone {loop : Loop} (h : step plan ⟨loop, [], n⟩ a = some (es, t)) :
    (loop = .fork ∧ es = [] ∧ (t = ⟨.head (-1), [], n + 1⟩ ∨
      ∃ pid : Nat, 0 < pid ∧ t = single (.head pid) pid n (n + 1) .head)) ∨
    (∃ cpid, loop = .head cpid ∧ es = [] ∧ t = ⟨.release, [], n⟩) ∨
    (loop = .release ∧ es = [mark] ∧ t = ⟨.fork, [], n⟩) := by
  cases a with
  | fork pid =>
    cases pid with
    | none =>
      simp only [step] at h
      split at h
      · next hloop =>
        cases h
        exact .inl ⟨hloop, rfl, .inl rfl⟩
      · cases h
    | some pid =>
      simp only [step] at h
      split at h
      · next hloop =>
        cases h
        exact .inl ⟨hloop.1, rfl, .inr ⟨pid.val, pid.property, rfl⟩⟩
      · cases h
  | execve pid ok => cases h
  | run pid => cases h
  | die pid => cases h
  | wait =>
    cases loop with
    | head cpid =>
      simp only [step] at h
      split at h
      · cases h
      · cases h
        exact .inr (.inl ⟨cpid, rfl, rfl, rfl⟩)
    | release => cases h
    | fork => cases h
  | release =>
    simp only [step] at h
    split at h
    · next hloop =>
      cases h
      exact .inr (.inr ⟨hloop, rfl, rfl⟩)
    · cases h

/-- A step while there is a child: it is the child's, or the child is reaped. -/
theorem step_child {pid : Nat} {process : Process}
    (h : step plan (single (.head pid) pid n (n + 1) process) a = some (es, t)) :
    (∃ process', t = single (.head pid) pid n (n + 1) process' ∧
      (process = .head ∧ es = [] ∧ (process' = .program 0 ∨ process' = .head) ∨
        (∃ done e, process = .program done ∧ (plan n)[done]? = some e ∧ es = [e] ∧
          process' = .program (done + 1)) ∨
        es = [] ∧ process' = .zombie)) ∨
    (process = .zombie ∧ es = [] ∧ t = ⟨.release, [], n + 1⟩) := by
  cases a with
  | fork pid' =>
    cases pid' with
    | none => cases h
    | some pid' =>
      simp only [step, reduceCtorEq, false_and, if_false] at h
  | execve pid' ok =>
    simp only [step, child_single] at h
    split at h
    · next hchild =>
      obtain ⟨rfl, hprocess⟩ := Option.ite_some_none_eq_some.mp hchild
      cases hprocess
      rw [update_single] at h
      cases ok with
      | true =>
        cases h
        exact .inl ⟨.program 0, rfl, .inl ⟨rfl, rfl, .inl rfl⟩⟩
      | false =>
        cases h
        exact .inl ⟨.head, rfl, .inl ⟨rfl, rfl, .inr rfl⟩⟩
    · cases h
  | run pid' =>
    simp only [step, child_single] at h
    split at h
    · next done hchild =>
      obtain ⟨rfl, hprocess⟩ := Option.ite_some_none_eq_some.mp hchild
      cases hprocess
      rw [update_single] at h
      obtain ⟨e, hevent, heq⟩ := Option.map_eq_some_iff.mp h
      cases heq
      exact .inl ⟨.program (done + 1), rfl, .inr (.inl ⟨done, e, rfl, hevent, rfl, rfl⟩)⟩
    · cases h
  | die pid' =>
    simp only [step, child_single] at h
    split at h
    · cases h
    · cases h
    · next hnone hzombie =>
      split_ifs at hnone with hpid
      · subst hpid
        rw [update_single] at h
        cases h
        exact .inl ⟨.zombie, rfl, .inr (.inr ⟨rfl, rfl⟩)⟩
      · exact absurd rfl hnone
  | wait =>
    simp only [step, waitpid_single] at h
    split_ifs at h with hcpid hzombie
    · cases h
      exact .inr ⟨hzombie, rfl, rfl⟩
    · cases h
  | release => cases h

/-- What the child has shown after a step of its own. -/
theorem shown_step {plan : List Event} {process process' : Process} (h : process.Shown plan turn)
    (hstep : process = .head ∧ es = [] ∧ (process' = .program 0 ∨ process' = .head) ∨
      (∃ done e, process = .program done ∧ plan[done]? = some e ∧ es = [e] ∧
        process' = .program (done + 1)) ∨
      es = [] ∧ process' = .zombie) : process'.Shown plan (turn ++ es) := by
  rcases hstep with ⟨rfl, rfl, hprocess⟩ | ⟨done, e, rfl, hevent, rfl, rfl⟩ | ⟨rfl, rfl⟩
  · obtain rfl : turn = [] := h
    rcases hprocess with rfl | rfl
    · exact ⟨(List.take_zero (l := plan)).symm, Nat.zero_le _⟩
    · rfl
  · obtain ⟨rfl, -⟩ := h
    obtain ⟨hlt, rfl⟩ := List.getElem?_eq_some_iff.mp hevent
    exact ⟨List.take_concat_get' plan done hlt, hlt⟩
  · rw [List.append_nil]
    exact shown_beginning h

/-- One more turn. -/
theorem beginnings_concat (hturns : ∀ i t, turns[i]? = some t → t <+: plan i)
    (hturn : turn <+: plan turns.length) :
    ∀ i t, (turns ++ [turn])[i]? = some t → t <+: plan i := by
  intro i t ht
  rcases Nat.lt_trichotomy i turns.length with hlt | rfl | hgt
  · rw [List.getElem?_append_left hlt] at ht
    exact hturns i t ht
  · rw [List.getElem?_concat_length] at ht
    rw [← Option.some.inj ht]
    exact hturn
  · rw [List.getElem?_eq_none (by rw [List.length_append]; exact hgt)] at ht
    cases ht

/-- One step. -/
theorem serial_step (h : Serial plan history s turns turn) (hstep : step plan s a = some (es, t)) :
    ∃ turns' turn', Serial plan (history ++ es) t turns' turn' := by
  obtain ⟨rfl, hturns, hcurrent⟩ := h
  cases hcurrent with
  | fork =>
    rcases step_alone hstep with ⟨-, rfl, rfl | ⟨pid, hpid, rfl⟩⟩ | ⟨_, hloop, -⟩ | ⟨hloop, -⟩
    · exact ⟨turns, [], by rw [List.append_nil], hturns, .failed⟩
    · exact ⟨turns, [], by rw [List.append_nil], hturns, .child hpid rfl⟩
    · cases hloop
    · cases hloop
  | failed =>
    rcases step_alone hstep with ⟨hloop, -⟩ | ⟨_, -, rfl, rfl⟩ | ⟨hloop, -⟩
    · cases hloop
    · exact ⟨turns, [], by rw [List.append_nil], hturns, .release List.nil_prefix⟩
    · cases hloop
  | child hpid hshown =>
    rcases step_child hstep with ⟨process', rfl, hchild⟩ | ⟨-, rfl, rfl⟩
    · exact ⟨turns, turn ++ es, List.append_assoc _ _ _, hturns,
        .child hpid (shown_step hshown hchild)⟩
    · exact ⟨turns, turn, by rw [List.append_nil], hturns, .release (shown_beginning hshown)⟩
  | release hturn =>
    rcases step_alone hstep with ⟨hloop, -⟩ | ⟨_, hloop, -⟩ | ⟨-, rfl, rfl⟩
    · cases hloop
    · cases hloop
    · refine ⟨turns ++ [turn], [], ?_, beginnings_concat hturns hturn, ?_⟩
      · rw [Turns.closed_concat, List.append_nil]
      · rw [List.length_append]
        exact .fork

/-- Every run. -/
theorem serial_run {as : List Action} (h : (executeProgram plan).replay {} as = some (history, s)) :
    ∃ turns turn, Serial plan history s turns turn := by
  have hstart : Serial plan [] {} [] [] := ⟨rfl, fun _ _ h => (nomatch h), .fork⟩
  exact (executeProgram plan).replay_history
    (P := fun history s => ∃ turns turn, Serial plan history s turns turn)
    (fun _ _ _ _ _ ⟨_, _, hserial⟩ hstep => serial_step hserial hstep) as ⟨[], [], hstart⟩ h

theorem serial_turn (h : Serial plan history s turns turn) : turn <+: plan turns.length := by
  cases h.current with
  | fork => exact List.nil_prefix
  | failed => exact List.nil_prefix
  | child _ hshown => exact shown_beginning hshown
  | release hturn => exact hturn

end LoaderLemmas

open LoaderLemmas

/-- Whenever the programs run and end, the history is the beginning of one program after the
other, with a `RELEASE` behind each that ended, in the order of the forks. There is never more
than one child, and there is one only while the loader waits for it. -/
theorem loader_turns (plan : Nat → List Event) {as : List Action} {history : List Event} {s : State}
    (h : (executeProgram plan).replay {} as = some (history, s)) :
    ∃ turns turn, history = Turns.closed mark turns ++ turn ∧
      (∀ i t, (turns ++ [turn])[i]? = some t → t <+: plan i) ∧
      s.children.length ≤ 1 ∧ ∀ c ∈ s.children, s.loop = .head c.pid := by
  obtain ⟨turns, turn, hserial⟩ := serial_run h
  refine ⟨turns, turn, hserial.history_eq,
    beginnings_concat hserial.beginnings (serial_turn hserial), ?_, ?_⟩
  · cases hserial.current with
    | child _ _ => exact Nat.le_refl 1
    | _ => exact Nat.zero_le 1
  · cases hserial.current with
    | child _ _ =>
      intro c hc
      rw [List.mem_singleton.mp hc]
    | _ => exact fun c hc => nomatch hc

/-- A program that is killed in the middle, a `fork` that fails, and the next program. -/
def shortSchedule : List Action :=
  [.fork (some ⟨7, Nat.succ_pos 6⟩), .execve 7 false, .execve 7 true, .run 7, .die 7, .wait,
    .release, .fork none, .wait, .release, .fork (some ⟨9, Nat.succ_pos 8⟩)]

/-- A program with two events. -/
def shortPlan (_ : Nat) : List Event := [.vmcall .acquire 0, .vmcall .release 0]

theorem shortSchedule_run :
    (executeProgram shortPlan).replay {} shortSchedule =
      some ([.vmcall .acquire 0, mark, mark], ⟨.head 9, [⟨9, 2, .head⟩], 3⟩) := by decide +kernel

theorem loader_turns_short :
    ∃ turns turn, [.vmcall .acquire 0, mark, mark] = Turns.closed mark turns ++ turn ∧
      (∀ i t, (turns ++ [turn])[i]? = some t → t <+: shortPlan i) ∧
      [(⟨9, 2, .head⟩ : Child)].length ≤ 1 ∧
      ∀ c ∈ [(⟨9, 2, .head⟩ : Child)], Loop.head 9 = .head c.pid :=
  loader_turns shortPlan shortSchedule_run

/-! ## 2. Waiting -/

/-- The actions of the loader itself. -/
def Action.byLoader : Action → Bool
  | .fork _ | .wait | .release => true
  | _ => false

/-- The loader can go on, unless it has a child that has not ended. A `fork` that failed does not
stop it; a child whose `execve` fails again and again does. -/
theorem loader_blocked_iff (plan : Nat → List Event) {as : List Action} {history : List Event}
    {s : State} (h : (executeProgram plan).replay {} as = some (history, s)) :
    (∀ a, a.byLoader = true → step plan s a = none) ↔ ∃ c ∈ s.children, c.process ≠ .zombie := by
  obtain ⟨turns, turn, hserial⟩ := serial_run h
  have hfree {s : State} {r : List Event × State} (a : Action) (ha : a.byLoader = true)
      (hstep : step plan s a = some r) (hnone : s.children = []) :
      (∀ a, a.byLoader = true → step plan s a = none) ↔
        ∃ c ∈ s.children, c.process ≠ .zombie := by
    rw [hnone]
    refine ⟨fun hall => ?_, fun ⟨c, hc, _⟩ => nomatch hc⟩
    rw [hall a ha] at hstep
    cases hstep
  cases hserial.current with
  | fork => exact hfree (.fork none) rfl rfl rfl
  | failed => exact hfree .wait rfl rfl rfl
  | release _ => exact hfree .release rfl rfl rfl
  | @child pid process _ hpid _ =>
    constructor
    · intro hall
      refine ⟨_, List.mem_singleton.mpr rfl, fun hzombie => ?_⟩
      obtain rfl : process = .zombie := hzombie
      have hwait := hall .wait rfl
      simp only [step, waitpid_single] at hwait
      rw [if_neg (Int.natCast_ne_zero.mpr (Nat.pos_iff_ne_zero.mp hpid)), if_pos trivial] at hwait
      cases hwait
    · rintro ⟨c, hc, hprocess⟩ a ha
      obtain rfl := List.mem_singleton.mp hc
      cases a with
      | fork pid' => cases pid' <;> simp [step]
      | release => rfl
      | wait =>
        simp only [step, waitpid_single]
        rw [if_neg hprocess]
        split_ifs <;> rfl
      | execve _ _ | run _ | die _ => cases ha

theorem loader_blocked_short :
    (∀ a, a.byLoader = true → step shortPlan ⟨.head 9, [⟨9, 2, .head⟩], 3⟩ a = none) ↔
      ∃ c ∈ [(⟨9, 2, .head⟩ : Child)], c.process ≠ .zombie :=
  loader_blocked_iff shortPlan shortSchedule_run

/-! ## 3. The fuzzer under the loader -/

/-- Whether an iteration is open. -/
def iterations : Monitor Bool Event where
  next isOpen e :=
    if e.opensIteration false then if isOpen then none else some true
    else if e.closesIteration then some false
    else some isOpen

namespace LoaderLemmas

open SessionLemmas

theorem next_opens {e : Event} (h : e.opensIteration false = true) (isOpen : Bool) :
    iterations.next isOpen e = if isOpen then none else some true := if_pos h

theorem next_closes {e : Event} (h : e.closesIteration = true) (isOpen : Bool) :
    iterations.next isOpen e = if e.opensIteration false then if isOpen then none else some true
      else some false := by
  show (if _ then _ else _) = _
  rw [if_pos h]

theorem next_other {e : Event} (h : e.opensIteration false = false)
    (h' : e.closesIteration = false) (isOpen : Bool) : iterations.next isOpen e = some isOpen := by
  show (if _ then _ else _) = _
  rw [h, h', if_neg Bool.false_ne_true, if_neg Bool.false_ne_true]

theorem iterations_mark (q : Bool) : iterations.next q mark = some false := rfl

theorem opens_not_closes {e : Event} (h : e.opensIteration false = true) :
    e.closesIteration = false := by
  cases e with
  | vmcall call ret =>
    cases call with
    | release => cases h
    | _ => rfl
  | _ => rfl

/-- In a session, iterations are opened and closed in turn. -/
theorem session_iterations (q : SessionState) (e : Event) (p : SessionState)
    (h : (session false).next q e = some p) :
    iterations.next (SessionState.isOpen q = 1) e = some (decide (SessionState.isOpen p = 1)) := by
  have hstep := session_step q e p h
  have hle := isOpen_le p
  cases hopens : e.opensIteration false with
  | true =>
    rw [hopens, opens_not_closes hopens, if_pos rfl, if_neg Bool.false_ne_true] at hstep
    have hclosed : SessionState.isOpen q = 0 := by omega
    have hopen : SessionState.isOpen p = 1 := by omega
    rw [next_opens hopens, hclosed, hopen]
    rfl
  | false =>
    cases hcloses : e.closesIteration with
    | true =>
      rw [hopens, hcloses, if_neg Bool.false_ne_true, if_pos rfl] at hstep
      have hq := isOpen_le q
      have hclosed : SessionState.isOpen p = 0 := by omega
      rw [next_closes hcloses, hopens, hclosed]
      rfl
    | false =>
      rw [hopens, hcloses, if_neg Bool.false_ne_true] at hstep
      rw [next_other hopens hcloses, show SessionState.isOpen q = SessionState.isOpen p from hstep]

theorem session_accepts {es : List Event} {q : SessionState}
    (h : (session false).run .fresh es = some q) :
    iterations.run false es = some (decide (SessionState.isOpen q = 1)) :=
  (session false).run_map iterations (fun q => decide (SessionState.isOpen q = 1))
    session_iterations es h

/-- Between two events that open an iteration there is one that closes it. -/
theorem iterations_between {before between after : List Event} {e e' : Event} {q : Bool}
    (h : iterations.run false (before ++ e :: (between ++ e' :: after)) = some q)
    (he : e.opensIteration false = true) (he' : e'.opensIteration false = true) :
    ∃ r ∈ between, r.closesIteration = true := by
  refine iterations.run_between (· = true) (fun e => e.opensIteration false = true)
    (fun e => e.closesIteration = true) (fun q e p hnext hopens => ?_)
    (fun q e p hnext hstops hq => ?_) h he he'
  · rw [next_opens hopens] at hnext
    cases q with
    | true => cases hnext
    | false => exact ⟨Bool.false_ne_true, (Option.some.inj hnext).symm⟩
  · obtain rfl : q = true := hq
    cases hopens : e.opensIteration false with
    | true =>
      rw [next_opens hopens] at hnext
      cases hnext
    | false =>
      rw [next_other hopens (Bool.eq_false_iff.mpr hstops)] at hnext
      exact (Option.some.inj hnext).symm

theorem idles_loadProgram (targetFile : Bytes) (buf programSize : Nat) (q : SessionState) :
    KeepsSession false q (loadProgram targetFile buf programSize) := by
  have hopenCreate : KeepsSession false q (openCreate targetFile 0o777) :=
    Emits.idles (emits_openCreate targetFile 0o777)
  refine Idles.seq hopenCreate fun payloadFile => ?_
  cases payloadFile with
  | none =>
    exact Idles.of_events (S := fun e => e.offSession = true) (fun e he => offSession_next he)
      fun w => ⟨[.write buf programSize (-1)], rfl,
        fun e he => by rw [List.mem_singleton.mp he]; rfl⟩
  | some fd =>
    have hwrite : KeepsSession false q (write fd buf programSize) :=
      Emits.idles (emits_write fun _ => rfl)
    exact Idles.seq hwrite fun _ => idles_modify fun _ => rfl

theorem idles_getKernelSymbolAddr (sys : SymbolQueries) (target : Bytes) (q : SessionState) :
    KeepsSession false q (getKernelSymbolAddr sys target) := by
  unfold getKernelSymbolAddr
  split
  · exact Idles.stop _
  · split
    · exact Idles.pure _
    · exact Idles.pure _

/-- The handshake is over when `execute_program` starts. -/
theorem leads_main (sys : SymbolQueries) (targetFile : Bytes) (programSize : Nat)
    (program : Bytes) :
    LeadsSession false .fresh .idle (main sys targetFile programSize program) := by
  refine Idles.seq (idles_getKernelSymbolAddr _ _ _) fun _ => ?_
  refine Idles.seq (idles_getKernelSymbolAddr _ _ _) fun _ => ?_
  refine Idles.seq (idles_alignedAlloc _) fun ptr => ?_
  refine Idles.seq (idles_memset _ _ _) fun _ => Idles.seq (idles_call rfl) fun _ => ?_
  refine call_seq rfl fun _ => call_seq rfl fun _ => Idles.seq (idles_call rfl) fun _ => ?_
  refine Idles.seq (idles_call rfl) fun _ => Idles.seq (idles_call rfl) fun _ => ?_
  exact Idles.seq (idles_modify fun _ => rfl) fun _ => idles_loadProgram _ _ _ _

/-- After the start of the loader, no iteration is open. -/
theorem main_accepts {sys : SymbolQueries} {targetFile : Bytes} {programSize : Nat}
    {program : Bytes} {w v : World}
    (h : (main sys targetFile programSize program).run w = (.ok (), v)) (htrace : w.trace = []) :
    iterations.run false v.trace = some false := by
  obtain ⟨es, q, hes, hrun, hq⟩ := leads_main sys targetFile programSize program w
  rw [h, htrace, List.nil_append] at hes
  obtain rfl : q = .idle := hq () (by rw [h])
  rw [show v.trace = es from hes]
  exact session_accepts hrun

/-- A fuzzer does not start an iteration twice. -/
theorem macFuzzer_accepts (fuel payloadMax : Nat) (dev : MacFuzzer.Device) {w : World}
    (htrace : w.trace = []) :
    ∃ q, iterations.run false ((MacFuzzer.main fuel payloadMax dev).run w).2.trace = some q := by
  obtain ⟨q, hq⟩ := (macFuzzer_stays fuel payloadMax dev).accepted htrace
  exact ⟨_, session_accepts hq⟩

end LoaderLemmas

/-- The macOS fuzzer under the loader. The `k`-th fuzzer runs in a world of its own, ends
anywhere, and may leave an iteration open; the loader closes it before the next one starts. In
the history of the whole machine, handshake included, no iteration is started twice. -/
theorem loader_iterations (sys : SymbolQueries) (targetFile : Bytes) (programSize : Nat)
    (program : Bytes) {w v : World}
    (hmain : (main sys targetFile programSize program).run w = (.ok (), v)) (htrace : w.trace = [])
    (fuel payloadMax : Nat → Nat) (dev : Nat → MacFuzzer.Device) (world : Nat → World)
    (hworld : ∀ k, (world k).trace = []) {as : List Action} {history : List Event} {s : State}
    (h : (executeProgram fun k =>
      ((MacFuzzer.main (fuel k) (payloadMax k) (dev k)).run (world k)).2.trace).replay {} as =
        some (history, s))
    (before between after : List Event) {e e' : Event}
    (hsplit : v.trace ++ history = before ++ e :: (between ++ e' :: after))
    (he : e.opensIteration false = true) (he' : e'.opensIteration false = true) :
    ∃ r ∈ between, r.closesIteration = true := by
  have hplan {t : List Event} (k : Nat) (ht : t <+:
      ((MacFuzzer.main (fuel k) (payloadMax k) (dev k)).run (world k)).2.trace) :
      ∃ q, iterations.run false t = some q := by
    obtain ⟨q, hq⟩ := macFuzzer_accepts (fuel k) (payloadMax k) (dev k) (hworld k)
    exact iterations.run_prefix hq ht
  obtain ⟨turns, turn, hserial⟩ := serial_run h
  have hturns : ∀ t ∈ turns, ∃ q, iterations.run false t = some q := by
    intro t ht
    obtain ⟨i, hi⟩ := List.getElem?_of_mem ht
    exact hplan i (hserial.beginnings i t hi)
  obtain ⟨q, hlast⟩ := hplan turns.length (serial_turn hserial)
  have hrun : iterations.run false (v.trace ++ history) = some q := by
    rw [iterations.run_append, main_accepts hmain htrace, hserial.history_eq]
    exact (iterations.run_turns iterations_mark hturns turn).trans hlast
  rw [hsplit] at hrun
  exact iterations_between hrun he he'

/-- A fuzzer whose device does not open. -/
def shortFuzzer (_ : Nat) : List Event :=
  ((MacFuzzer.main 2 0x1000 ⟨false, fun _ => LocalArray.filled _ [], fun _ => 0⟩).run
    freshNyxWorld).2.trace

/-- Two fuzzers, of which the first one is killed in its first iteration. -/
def fuzzerSchedule : List Action :=
  [.fork (some ⟨7, Nat.succ_pos 6⟩), .execve 7 true, .run 7, .run 7, .run 7, .run 7, .die 7, .wait,
    .release, .fork (some ⟨8, Nat.succ_pos 7⟩), .execve 8 true, .run 8, .run 8, .run 8, .run 8]

/-- What the two show. -/
def fuzzerHistory : List Event :=
  [.vmcall (.getPayload 4096) 0, .vmcall .submitCr3 0, .vmcall .nextPayload 0, .vmcall .acquire 0,
    mark, .vmcall (.getPayload 4096) 0, .vmcall .submitCr3 0, .vmcall .nextPayload 0,
    .vmcall .acquire 0]

theorem fuzzerSchedule_run :
    (executeProgram shortFuzzer).replay {} fuzzerSchedule =
      some (fuzzerHistory, ⟨.head 8, [⟨8, 1, .program 4⟩], 2⟩) := by decide +kernel

/-- A kernel without symbols. -/
def noSymbols : SymbolQueries where
  popen _ := some { data := [] }
  uninit _ := []

/-- The world in which `execute_program` starts. -/
def loadedWorld : World := ((main noSymbols (ascii "/fuzz") 0x1000 []).run freshNyxWorld).2

theorem loadedWorld_trace :
    loadedWorld.trace =
      [.vmcall .lock 0, .vmcall .acquire 0, .vmcall .release 0, .vmcall (.submitPanic 0) 0,
        .vmcall (.submitPanic 0) 0, .vmcall (.other 2 4096) 0, .write 4096 4096 4096] := by
  decide +kernel

theorem loader_iterations_killed :
    ∃ r ∈ [mark, .vmcall (.getPayload 4096) 0, .vmcall .submitCr3 0, .vmcall .nextPayload 0],
      r.closesIteration = true :=
  loader_iterations noSymbols (ascii "/fuzz") 0x1000 [] (w := freshNyxWorld) (v := loadedWorld)
    rfl rfl (fun _ => 2) (fun _ => 0x1000)
    (fun _ => ⟨false, fun _ => LocalArray.filled _ [], fun _ => 0⟩) (fun _ => freshNyxWorld)
    (fun _ => rfl) fuzzerSchedule_run
    (loadedWorld.trace ++
      [.vmcall (.getPayload 4096) 0, .vmcall .submitCr3 0, .vmcall .nextPayload 0]) _ []
    (show loadedWorld.trace ++ fuzzerHistory = _ by rw [loadedWorld_trace]; rfl) rfl rfl

end KaflTargets.MacLoader
