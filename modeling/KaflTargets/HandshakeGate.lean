import KaflTargets.ForkProtocol
import KaflTargets.Frames
import KaflTargets.Uefi
import KaflTargets.Zephyr

/-!
# The handshake comes first

The fork server, the file-system fuzzer, the UEFI library and the Zephyr agent
were written apart and check the host's reply in different ways. All of them
announce themselves, hand over their buffer and ask for payloads only after a
reply that suits them, if the host ends a run at `USER_ABORT`. The buffer they
hand over is aligned and as large as the host expects.

Most of what an agent does is `Harmless`: it issues none of the calls in
question and leaves alone what they depend on. A property that is stable under
harmless steps is established once, by the check of the reply, and then kept.

Results:
1. `linuxCheckConfig_checked`, `uefiHandshake_checked`, ..: after the checks the
   reply is an accepted one.
2. `handshake_gate`: the law for every agent and every number of iterations.
-/

namespace KaflTargets

open CString Prog

/-! ## The law -/

/-- The calls an agent may make only when it knows its host. -/
def Hypercall.needsHandshake : Hypercall → Bool
  | .setAgentConfig _ | .getPayload _ | .nextPayload | .userFastAcquire => true
  | _ => false

/-- A reply to `GET_HOST_CONFIG` that suits an agent. -/
def HostConfig.Accepted (reply : HostConfig) (payloadMaxSize : Nat) : Prop :=
  reply.hostMagic = NYX_HOST_MAGIC ∧ reply.hostVersion = NYX_HOST_VERSION ∧
    reply.payloadBufferSize.toNat ≤ payloadMaxSize

/-- The calls that need a handshake come after an accepted reply. -/
def Handshaken (payloadMaxSize : Nat) (reply : HostConfig) (trace : List Event) : Prop :=
  ∀ pre call ret post, trace = pre ++ .vmcall call ret :: post → call.needsHandshake = true →
    reply.Accepted payloadMaxSize ∧ ∃ r, .vmcall .getHostConfig r ∈ pre

/-- Every address given to `GET_PAYLOAD` is aligned and leaves room for the
payload in one of the agent's buffers. -/
def BufferFits (reply : HostConfig) (live : List (Nat × Nat)) (trace : List Event) : Prop :=
  ∀ addr ret, .vmcall (.getPayload addr) ret ∈ trace → addr % PAGE_SIZE = 0 ∧
    ∃ buffer ∈ live, buffer.1 ≤ addr ∧
      addr + reply.payloadBufferSize.toNat ≤ buffer.1 + buffer.2

/-- The law, for a world a run leads to. -/
def Lawful (payloadMaxSize : Nat) (w : World) : Prop :=
  Handshaken payloadMaxSize w.host.config w.trace ∧ BufferFits w.host.config w.live w.trace

/-! ## Harmless programs -/

/-- What harmless steps lead to from `w₀`: only calls that need no handshake,
the same host and environment, and no buffer is gone. -/
structure Tame (w₀ w : World) : Prop where
  env : w.env = w₀.env
  config : w.host.config = w₀.host.config
  abortReturns : w.host.abortReturns = w₀.host.abortReturns
  live : ∀ b ∈ w₀.live, b ∈ w.live
  trace : ∃ es, w.trace = w₀.trace ++ es ∧
    ∀ call ret, .vmcall call ret ∈ es → call.needsHandshake = false

/-- A program that takes harmless steps only. -/
def Harmless {α : Type} (x : Guest α) : Prop := ∀ w₀, Keeps (Tame w₀) x

section Rules

variable {α β : Type} {w₀ w v : World} {x y : Guest α}

theorem Tame.refl (w : World) : Tame w w :=
  ⟨rfl, rfl, rfl, fun _ hb => hb, [], by simp, by simp⟩

theorem Tame.trans (h : Tame w₀ w) (h' : Tame w v) : Tame w₀ v := by
  obtain ⟨es, htrace, hes⟩ := h.trace
  obtain ⟨fs, htrace', hfs⟩ := h'.trace
  refine ⟨h'.env.trans h.env, h'.config.trans h.config, h'.abortReturns.trans h.abortReturns,
    fun b hb => h'.live b (h.live b hb), es ++ fs, ?_, fun call ret hmem => ?_⟩
  · rw [htrace', htrace, List.append_assoc]
  · rcases List.mem_append.mp hmem with hmem | hmem
    · exact hes call ret hmem
    · exact hfs call ret hmem

/-- A step that adds one event. -/
theorem Tame.snoc {e : Event} (henv : v.env = w.env) (hconfig : v.host.config = w.host.config)
    (habort : v.host.abortReturns = w.host.abortReturns) (hlive : v.live = w.live)
    (htrace : v.trace = w.trace ++ [e])
    (he : ∀ call ret, e = .vmcall call ret → call.needsHandshake = false) : Tame w v := by
  refine ⟨henv, hconfig, habort, fun b hb => hlive ▸ hb, [e], htrace, fun call ret hmem => ?_⟩
  exact he call ret (List.mem_singleton.mp hmem).symm

/-- A step that is not in the trace. -/
theorem Tame.silent (henv : v.env = w.env) (hconfig : v.host.config = w.host.config)
    (habort : v.host.abortReturns = w.host.abortReturns) (hlive : v.live = w.live)
    (htrace : v.trace = w.trace) : Tame w v :=
  ⟨henv, hconfig, habort, fun b hb => hlive ▸ hb, [], by simp [htrace], by simp⟩

theorem Harmless.of_step (h : ∀ w, Tame w (x.run w).2) : Harmless x :=
  fun _ => Keeps.of_step fun w hw => hw.trans (h w)

theorem Harmless.pure (a : α) : Harmless (pure a : Guest α) := fun _ => Keeps.pure a

theorem Harmless.gets (f : World → α) : Harmless (Prog.gets f : Guest α) :=
  fun _ => Keeps.gets f

theorem Harmless.modify {f : World → World} (h : ∀ w, Tame w (f w)) :
    Harmless (Prog.modify f : Guest Unit) := Harmless.of_step h

theorem Harmless.bind {k : α → Guest β} (hx : Harmless x) (hk : ∀ a, Harmless (k a)) :
    Harmless (x >>= k) := fun w₀ => Keeps.bind (hx w₀) fun a => hk a w₀

end Rules

/-! ## Phases of an agent -/

/-- What an agent is promised: the host ends a run at `USER_ABORT`, and there is
memory for the payload buffer. -/
structure Promised (w : World) : Prop where
  aborts : w.host.abortReturns = false
  alloc : ∀ t, ∃ page, w.env.alignedAlloc t = .ok page
  mlock : ∀ t, w.env.mlock t = none

/-- No call that needs a handshake was made, and the agent has these buffers. -/
structure Unchecked (buffers : List (Nat × Nat)) (w : World) : Prop extends Promised w where
  live : ∀ b ∈ buffers, b ∈ w.live
  harmless : ∀ call ret, .vmcall call ret ∈ w.trace → call.needsHandshake = false

/-- The host was asked for its configuration. -/
def Asked (w : World) : Prop := ∃ ret, .vmcall .getHostConfig ret ∈ w.trace

/-- The reply of the host was accepted, and the agent has these buffers. -/
structure Checked (payloadMaxSize : Nat) (buffers : List (Nat × Nat)) (w : World) : Prop
    extends Promised w where
  live : ∀ b ∈ buffers, b ∈ w.live
  accepted : w.host.config.Accepted payloadMaxSize
  asked : Asked w
  lawful : Lawful payloadMaxSize w

/-- A property that an agent can rely on: harmless steps keep it, and it comes
with the promises and the law. -/
structure Phase (payloadMaxSize : Nat) (I : World → Prop) : Prop where
  keep : ∀ w v, I w → Tame w v → I v
  promised : ∀ w, I w → Promised w
  lawful : ∀ w, I w → Lawful payloadMaxSize w

section Steps

variable {α : Type} {w : World}

/-! ### Calls -/

/-- An event of no call that needs a handshake. -/
def Event.Harmless (e : Event) : Prop :=
  ∀ call ret, e = .vmcall call ret → call.needsHandshake = false

theorem quiet_harmless {e : Event} (h : e.quiet = true) : e.Harmless := by
  rintro call ret rfl
  cases call with
  | setAgentConfig _ | getPayload _ | nextPayload | userFastAcquire => cases h
  | _ => rfl

theorem Emits.harmless {x : Guest α} (h : Emits Event.Harmless x) : Harmless x := by
  refine Harmless.of_step fun w => ?_
  have hframe := h.run w
  obtain ⟨es, htrace, hes⟩ := hframe.trace
  exact ⟨hframe.env, hframe.config, hframe.abortReturns, hframe.live, es, htrace,
    fun call ret hmem => hes _ hmem call ret rfl⟩

theorem harmless_call {call : Hypercall} (h : call.needsHandshake = false) :
    Harmless (kAFLHypercall call) := by
  refine (emits_call fun ret => ?_).harmless
  rintro c r ⟨⟩
  exact h

theorem harmless_habort (msg : String) : Harmless (habort msg) :=
  (emits_habort (fun _ => quiet_harmless) msg).harmless

theorem harmless_hprintf (text : Bytes) : Harmless (hprintf text) :=
  (emits_hprintf (fun _ => quiet_harmless) text).harmless

theorem harmless_syscall : Harmless syscall := emits_syscall.harmless

theorem harmless_checkErrno (x : Bool) (msg : String) : Harmless (FsFuzzer.checkErrno x msg) :=
  (emits_checkErrno (fun _ => quiet_harmless) x msg).harmless

theorem tame_vmcall {call : Hypercall} (h : call.needsHandshake = false) (w : World) :
    Tame w (w.vmcall call).2 := by
  have hstep := Keeps.run (harmless_call h w) (Tame.refl w)
  rwa [run_call] at hstep

/-! ### Phases -/

variable {m : Nat} {bs : List (Nat × Nat)} {I : World → Prop} {v : World} {x : Guest α}

theorem Promised.tame (h : Promised w) (ht : Tame w v) : Promised v :=
  ⟨ht.abortReturns.trans h.aborts, by rw [ht.env]; exact h.alloc, by rw [ht.env]; exact h.mlock⟩

theorem Asked.tame (h : Asked w) (ht : Tame w v) : Asked v := by
  obtain ⟨ret, hmem⟩ := h
  obtain ⟨es, htrace, _⟩ := ht.trace
  exact ⟨ret, htrace ▸ List.mem_append_left es hmem⟩

theorem Lawful.of_harmless
    (h : ∀ call ret, .vmcall call ret ∈ w.trace → call.needsHandshake = false) : Lawful m w := by
  refine ⟨fun pre call ret post htrace hneeds => ?_, fun addr ret hmem => ?_⟩
  · have hmem : .vmcall call ret ∈ w.trace := by simp [htrace]
    rw [h call ret hmem] at hneeds
    cases hneeds
  · cases h _ ret hmem

/-- The law goes on to hold after an event that is no call in question, or one
that it allows. -/
theorem Lawful.append {es : List Event} (h : Lawful m w) (hconfig : v.host.config = w.host.config)
    (hlive : ∀ b ∈ w.live, b ∈ v.live) (htrace : v.trace = w.trace ++ es)
    (hcall : ∀ call ret, .vmcall call ret ∈ es → call.needsHandshake = true →
      w.host.config.Accepted m ∧ Asked w)
    (hfit : ∀ addr ret, .vmcall (.getPayload addr) ret ∈ es → addr % PAGE_SIZE = 0 ∧
      ∃ b ∈ w.live, b.1 ≤ addr ∧ addr + w.host.config.payloadBufferSize.toNat ≤ b.1 + b.2) :
    Lawful m v := by
  refine ⟨fun pre call ret post hsplit hneeds => ?_, fun addr ret hmem => ?_⟩
  · rw [hconfig]
    rw [htrace] at hsplit
    rcases List.append_eq_append_iff.mp hsplit with ⟨mid, rfl, hes⟩ | ⟨mid, hold, hnew⟩
    · obtain ⟨haccepted, r, hr⟩ := hcall call ret (by simp [hes]) hneeds
      exact ⟨haccepted, r, List.mem_append_left mid hr⟩
    · cases mid with
      | nil =>
        rw [List.nil_append] at hnew
        obtain ⟨haccepted, r, hr⟩ := hcall call ret (hnew ▸ List.mem_cons_self) hneeds
        exact ⟨haccepted, r, by simpa [hold] using hr⟩
      | cons e mid =>
        obtain ⟨rfl, -⟩ := List.cons.inj hnew
        exact h.1 pre call ret mid hold hneeds
  · rw [htrace] at hmem
    rw [hconfig]
    rcases List.mem_append.mp hmem with hmem | hmem
    · obtain ⟨haligned, b, hb, hfits⟩ := h.2 addr ret hmem
      exact ⟨haligned, b, hlive b hb, hfits⟩
    · obtain ⟨haligned, b, hb, hfits⟩ := hfit addr ret hmem
      exact ⟨haligned, b, hlive b hb, hfits⟩

theorem Lawful.tame (h : Lawful m w) (ht : Tame w v) : Lawful m v := by
  obtain ⟨es, htrace, hes⟩ := ht.trace
  refine h.append ht.config ht.live htrace (fun call ret hmem hneeds => ?_) fun addr ret hmem => ?_
  · rw [hes call ret hmem] at hneeds
    cases hneeds
  · cases hes _ ret hmem

theorem unchecked_phase : Phase m (Unchecked bs) where
  keep w v h ht := by
    obtain ⟨es, htrace, hes⟩ := ht.trace
    refine ⟨Promised.tame h.toPromised ht, fun b hb => ht.live b (h.live b hb),
      fun call ret hmem => ?_⟩
    rw [htrace] at hmem
    rcases List.mem_append.mp hmem with hmem | hmem
    · exact h.harmless call ret hmem
    · exact hes call ret hmem
  promised w h := h.toPromised
  lawful w h := Lawful.of_harmless h.harmless

theorem checked_phase : Phase m (Checked m bs) where
  keep w v h ht :=
    ⟨Promised.tame h.toPromised ht, fun b hb => ht.live b (h.live b hb),
      by rw [ht.config]; exact h.accepted, Asked.tame h.asked ht, Lawful.tame h.lawful ht⟩
  promised w h := h.toPromised
  lawful w h := h.lawful

/-- A phase with a fact that harmless steps keep. -/
theorem Phase.and {J : World → Prop} (h : Phase m I) (hJ : ∀ w v, J w → Tame w v → J v) :
    Phase m fun w => I w ∧ J w where
  keep w v hw ht := ⟨h.keep w v hw.1 ht, hJ w v hw.2 ht⟩
  promised w hw := h.promised w hw.1
  lawful w hw := h.lawful w hw.1

theorem Phase.triple (h : Phase m I) (hx : Harmless x) : Triple I x (fun _ => I) (Lawful m) := by
  have hkeeps : Keeps I x :=
    Keeps.of_step fun w hw => h.keep w _ hw (Keeps.run (hx w) (Tame.refl w))
  exact hkeeps.weaken (fun _ hw => hw) (fun _ _ hw => hw) h.lawful

/-- `habort` does not return. -/
theorem Phase.aborts (h : Phase m I) (msg : String) :
    Triple I (habort msg) (fun _ _ => False) (Lawful m) := by
  intro w hw
  have hrun := kAFLHypercall_abort_run (ascii msg) w
  rw [(h.promised w hw).aborts] at hrun
  simp only [KaflTargets.habort, Prog.run_bind, hrun, Bool.false_eq_true, if_false]
  exact Lawful.tame (h.lawful w hw)
    (Tame.snoc rfl rfl rfl rfl rfl (by simp [Hypercall.needsHandshake]))

/-! ## 1. The checks of the reply -/

/-- The reply was read into `reply`. -/
def Replied (buffers : List (Nat × Nat)) (reply : HostConfig) (w : World) : Prop :=
  (Unchecked buffers w ∧ Asked w) ∧ w.host.config = reply

theorem asked_phase : Phase m fun w => Unchecked bs w ∧ Asked w :=
  Phase.and unchecked_phase fun _ _ => Asked.tame

theorem replied_phase (reply : HostConfig) : Phase m (Replied bs reply) :=
  Phase.and asked_phase fun _ _ h ht => ht.config.trans h

/-- `GET_HOST_CONFIG`, and what is done with the variable it fills. -/
theorem getHostConfig_replied {k : HostConfig → Guest α} {Q : α → World → Prop}
    (hk : ∀ reply, Triple (Replied bs reply) (k reply) Q (Lawful m)) :
    Triple (Unchecked bs)
      (do
        let _ ← kAFLHypercall .getHostConfig
        let reply ← Prog.gets (·.hostConfig)
        k reply)
      Q (Lawful m) := by
  have hasked : Triple (Unchecked bs) (kAFLHypercall .getHostConfig)
      (fun _ w => Replied bs w.hostConfig w) (Lawful m) := by
    intro w hw
    have hstep : Tame w (w.vmcall .getHostConfig).2 := tame_vmcall rfl w
    have hunchecked := unchecked_phase (m := m).keep w _ hw hstep
    exact ⟨⟨hunchecked, 0, by simp⟩, rfl⟩
  refine Triple.bind hasked fun _ => Triple.bind (Triple.gets fun w hw => ?_) hk
  exact hw

/-- After the checks the handshake is complete. -/
theorem Replied.checked {reply : HostConfig} (h : Replied bs reply w)
    (haccepted : reply.Accepted m) : Checked m bs w :=
  ⟨h.1.1.toPromised, h.1.1.live, h.2 ▸ haccepted, h.1.2, unchecked_phase.lawful w h.1.1⟩

/-- A report and an abort: the program does not go on. -/
theorem Phase.reject {β : Type} {Q : β → World → Prop} (h : Phase m I) (text : Bytes)
    (msg : String) (b : β) :
    Triple I (do hprintf text; habort msg; pure b) Q (Lawful m) := by
  refine Triple.bind (h.triple (harmless_hprintf text)) fun _ => ?_
  exact Triple.bind (h.aborts msg) fun _ => Triple.pure fun _ hfalse => hfalse.elim

theorem linuxCheckConfig_checked {next : Guest Int} {Q : Int → World → Prop} (reply : HostConfig)
    (hnext : Triple (Checked m bs) next Q (Lawful m)) :
    Triple (Replied bs reply) (linuxCheckConfig m reply next) Q (Lawful m) := by
  unfold linuxCheckConfig
  refine Triple.ite (fun _ => (replied_phase reply).reject _ _ _) fun hmagic => ?_
  refine Triple.ite (fun _ => (replied_phase reply).reject _ _ _) fun hversion => ?_
  refine Triple.ite (fun _ => (replied_phase reply).reject _ _ _) fun hsize => ?_
  refine hnext.weaken (fun w hw => hw.checked ⟨?_, ?_, ?_⟩) (fun _ _ h => h) fun _ h => h
  · exact not_not.mp hmagic
  · exact not_not.mp hversion
  · exact Nat.not_lt.mp hsize

theorem Checked.forget (h : Checked m bs w) : Checked m [] w :=
  ⟨h.toPromised, by simp, h.accepted, h.asked, h.lawful⟩

/-- A call after the handshake. -/
theorem Checked.vmcall (h : Checked m bs w) (call : Hypercall)
    (hfit : ∀ addr, call = .getPayload addr → addr % PAGE_SIZE = 0 ∧
      ∃ b ∈ bs, b.1 ≤ addr ∧ addr + m ≤ b.1 + b.2) :
    Checked m bs (w.vmcall call).2 := by
  obtain ⟨henv, hconfig, habort, hlive, htrace⟩ := vmcall_frame call w
  refine ⟨⟨habort.trans h.aborts, by rw [henv]; exact h.alloc, by rw [henv]; exact h.mlock⟩,
    fun b hb => hlive ▸ h.live b hb, by rw [hconfig]; exact h.accepted, ?_, ?_⟩
  · obtain ⟨ret, hmem⟩ := h.asked
    exact ⟨ret, htrace ▸ List.mem_append_left _ hmem⟩
  · refine h.lawful.append hconfig (fun b hb => hlive ▸ hb) htrace
      (fun _ _ _ _ => ⟨h.accepted, h.asked⟩) fun addr ret hmem => ?_
    cases List.mem_singleton.mp hmem
    obtain ⟨haligned, b, hb, hle, hroom⟩ := hfit addr rfl
    exact ⟨haligned, b, h.live b hb, hle, (Nat.add_le_add_left h.accepted.2.2 addr).trans hroom⟩

theorem checked_call {call : Hypercall} (h : ∀ addr, call ≠ .getPayload addr) :
    Triple (Checked m bs) (kAFLHypercall call) (fun _ => Checked m bs) (Lawful m) := by
  intro w hw
  have hchecked := hw.vmcall call fun addr haddr => absurd haddr (h addr)
  rw [← run_call] at hchecked
  cases hrun : (kAFLHypercall call).run w with
  | mk r t =>
    rw [hrun] at hchecked
    cases r with
    | ok a => exact hchecked
    | error e => exact hchecked.lawful

/-- An array that comes to life. -/
theorem checked_allocate (buffer : Nat × Nat) :
    Triple (Checked m bs) (Prog.modify (ε := Stop) fun w => { w with live := buffer :: w.live })
      (fun _ => Checked m (buffer :: bs)) (Lawful m) := by
  refine Triple.modify fun w hw => ?_
  have htame : Tame w { w with live := buffer :: w.live } :=
    ⟨rfl, rfl, rfl, fun _ hb => List.mem_cons_of_mem _ hb, [], by simp, by simp⟩
  have hchecked := checked_phase.keep w _ hw htame
  exact ⟨hchecked.toPromised, List.forall_mem_cons.mpr ⟨List.mem_cons_self, hchecked.live⟩,
    hchecked.accepted, hchecked.asked, hchecked.lawful⟩

/-- `GET_PAYLOAD` with an aligned address that has room in a buffer. -/
theorem checked_getPayload {addr : Nat} {buffer : Nat × Nat} (haligned : addr % PAGE_SIZE = 0)
    (hbuffer : buffer ∈ bs) (hle : buffer.1 ≤ addr) (hroom : addr + m ≤ buffer.1 + buffer.2) :
    Triple (Checked m bs) (kAFLHypercall (.getPayload addr)) (fun _ => Checked m bs)
      (Lawful m) := by
  intro w hw
  refine hw.vmcall (.getPayload addr) fun a ha => ?_
  cases ha
  exact ⟨haligned, buffer, hbuffer, hle, hroom⟩

/-- Pages for a buffer. -/
theorem Phase.mallocResidentPages (h : Phase m I) {numPages : Nat} (hpages : numPages < 2 ^ 52) :
    Triple I (mallocResidentPages numPages)
      (fun ptr w => (ptr % PAGE_SIZE = 0 ∧ 0 < ptr) ∧ I w ∧
        (ptr, PAGE_SIZE * numPages) ∈ w.live) (Lawful m) := by
  intro w hw
  obtain ⟨page, hpage⟩ := (h.promised w hw).alloc w.tick
  have hrun := mallocResidentPages_run hpages hpage ((h.promised w hw).mlock _)
  have htame : Tame w (w.withPages page.val numPages) :=
    ⟨rfl, rfl, rfl, fun b hb => List.mem_cons_of_mem _ hb, [], by simp [World.withPages], by simp⟩
  rw [hrun]
  refine ⟨⟨Nat.mul_mod_left _ _, Nat.mul_pos page.property (by decide)⟩, h.keep w _ hw htame, ?_⟩
  exact List.mem_cons_self

theorem unchecked_mallocResidentPages {numPages : Nat} (hpages : numPages < 2 ^ 52) :
    Triple (Unchecked bs) (mallocResidentPages numPages)
      (fun ptr w => (ptr % PAGE_SIZE = 0 ∧ 0 < ptr) ∧
        Unchecked ((ptr, PAGE_SIZE * numPages) :: bs) w) (Lawful m) := by
  refine (unchecked_phase.mallocResidentPages hpages).weaken (fun _ h => h) ?_ fun _ h => h
  rintro ptr w ⟨hptr, hw, hlive⟩
  exact ⟨hptr, hw.toPromised, List.forall_mem_cons.mpr ⟨hlive, hw.live⟩, hw.harmless⟩

theorem checked_mallocResidentPages {numPages : Nat} (hpages : numPages < 2 ^ 52) :
    Triple (Checked m bs) (mallocResidentPages numPages)
      (fun ptr w => (ptr % PAGE_SIZE = 0 ∧ 0 < ptr) ∧
        Checked m ((ptr, PAGE_SIZE * numPages) :: bs) w) (Lawful m) := by
  refine (checked_phase.mallocResidentPages hpages).weaken (fun _ h => h) ?_ fun _ h => h
  rintro ptr w ⟨hptr, hw, hlive⟩
  exact ⟨hptr, hw.toPromised, List.forall_mem_cons.mpr ⟨hlive, hw.live⟩, hw.accepted, hw.asked,
    hw.lawful⟩

/-- A step that a phase allows, and the rest of the program. -/
theorem Phase.seq {β : Type} {k : α → Guest β} {Q : β → World → Prop} (h : Phase m I)
    (hx : Harmless x) (hk : ∀ a, Triple I (k a) Q (Lawful m)) :
    Triple I (x >>= k) Q (Lawful m) :=
  Triple.bind (h.triple hx) hk

/-! ### The Linux agents -/

theorem forkserver_agentInit_checked (allowPersistent : Bool) :
    Triple (Unchecked bs) (ForkServer.agentInit allowPersistent)
      (fun _ => Checked ForkServer.PAYLOAD_MAX_SIZE bs) (Lawful ForkServer.PAYLOAD_MAX_SIZE) := by
  unfold ForkServer.agentInit
  refine unchecked_phase.seq (Harmless.modify fun w => Tame.silent rfl rfl rfl rfl rfl) fun _ => ?_
  refine unchecked_phase.seq emits_getNyxCpuType.harmless fun _ => ?_
  refine getHostConfig_replied fun reply => linuxCheckConfig_checked reply ?_
  refine Triple.bind (checked_call (by simp)) fun _ => ?_
  refine checked_phase.seq (harmless_call rfl) fun _ => ?_
  exact checked_phase.seq (harmless_call rfl) fun _ => Triple.pure fun _ hw => hw

theorem fsFuzzer_agentInit_checked :
    Triple (Unchecked bs) FsFuzzer.agentInit (fun _ => Checked FsFuzzer.PAYLOAD_MAX_SIZE bs)
      (Lawful FsFuzzer.PAYLOAD_MAX_SIZE) := by
  unfold FsFuzzer.agentInit
  refine unchecked_phase.seq (harmless_call rfl) fun _ => ?_
  refine unchecked_phase.seq (harmless_call rfl) fun _ => ?_
  refine getHostConfig_replied fun reply => linuxCheckConfig_checked reply ?_
  exact Triple.bind (checked_call (by simp)) fun _ => Triple.pure fun _ hw => hw

/-! ### The other agents -/

theorem harmless_submitHandlers (panicHandler kasanHandler : Nat) :
    Harmless (submitHandlers panicHandler kasanHandler) := by
  unfold submitHandlers
  have hpanic : Harmless (kAFLHypercall (.submitPanic panicHandler)) := harmless_call rfl
  have hkasan : Harmless (kAFLHypercall (.submitKasan kasanHandler)) := harmless_call rfl
  split
  all_goals split
  · exact Harmless.bind hpanic fun _ => Harmless.bind hkasan fun _ => Harmless.pure _
  · exact Harmless.bind hkasan fun _ => Harmless.pure _
  · exact Harmless.bind hpanic fun _ => Harmless.pure _
  · exact Harmless.pure _

theorem harmless_printSizes (reply : HostConfig) : Harmless (printSizes reply) := by
  unfold printSizes
  refine Harmless.bind (harmless_hprintf _) fun _ => ?_
  exact Harmless.bind (harmless_hprintf _) fun _ => harmless_hprintf _

/-- A reply with the right magic and version that is not larger than the buffer
is all that gets past the checks. -/
theorem uefiCheckConfig_checked (reply : HostConfig) :
    Triple (Replied bs reply) (uefiCheckConfig m reply) (fun _ => Checked m bs) (Lawful m) := by
  unfold uefiCheckConfig
  refine Triple.ite (fun _ => ?_) fun hmagic => ?_
  · refine (replied_phase reply).seq (harmless_hprintf _) fun _ => ?_
    exact Triple.bind ((replied_phase reply).aborts _) fun _ => Triple.absurd
  · refine (replied_phase reply).seq (harmless_printSizes reply) fun _ => ?_
    refine Triple.ite (fun _ => ?_) fun hsize => Triple.pure fun w hw => ?_
    · refine (replied_phase reply).seq (harmless_hprintf _) fun _ => ?_
      exact ((replied_phase reply).aborts _).weaken (fun _ h => h) (fun _ _ h => h.elim)
        fun _ h => h
    · obtain ⟨hm, hv⟩ := not_or.mp hmagic
      exact hw.checked ⟨not_not.mp hm, not_not.mp hv, Nat.not_lt.mp hsize⟩

theorem uefiHandshake_checked (panicHandler kasanHandler : Nat) :
    Triple (Unchecked bs) (uefiHandshake m panicHandler kasanHandler) (fun _ => Checked m bs)
      (Lawful m) := by
  unfold uefiHandshake
  refine unchecked_phase.seq (harmless_call rfl) fun _ => ?_
  refine unchecked_phase.seq (harmless_call rfl) fun _ => ?_
  refine unchecked_phase.seq (harmless_submitHandlers _ _) fun _ => ?_
  refine unchecked_phase.seq (harmless_hprintf _) fun _ => ?_
  refine getHostConfig_replied fun reply => Triple.bind (uefiCheckConfig_checked reply) fun _ => ?_
  refine checked_phase.seq (harmless_hprintf _) fun _ => ?_
  refine Triple.bind (checked_call (by simp)) fun _ => ?_
  exact checked_phase.triple (harmless_hprintf _)

theorem zephyr_checkConfig_checked (reply : HostConfig) :
    Triple (Replied bs reply) (Zephyr.checkConfig reply)
      (fun _ => Checked Zephyr.PAYLOAD_MAX_SIZE bs) (Lawful Zephyr.PAYLOAD_MAX_SIZE) := by
  unfold Zephyr.checkConfig
  refine Triple.ite (fun _ => ?_) fun hmagic => ?_
  · refine (replied_phase reply).seq (harmless_hprintf _) fun _ => ?_
    exact Triple.bind ((replied_phase reply).aborts _) fun _ => Triple.absurd
  · refine (replied_phase reply).seq (harmless_printSizes reply) fun _ => ?_
    refine Triple.ite (fun _ => ?_) fun hsize => Triple.pure fun w hw => ?_
    · exact ((replied_phase reply).aborts _).weaken (fun _ h => h) (fun _ _ h => h.elim)
        fun _ h => h
    · obtain ⟨hm, hv⟩ := not_or.mp hmagic
      exact hw.checked ⟨not_not.mp hm, not_not.mp hv, Nat.not_lt.mp hsize⟩

theorem zephyr_agentInit_checked (panicHandler kasanHandler : Nat) :
    Triple (Unchecked bs) (Zephyr.agentInit panicHandler kasanHandler)
      (fun _ => Checked Zephyr.PAYLOAD_MAX_SIZE bs) (Lawful Zephyr.PAYLOAD_MAX_SIZE) := by
  unfold Zephyr.agentInit
  refine unchecked_phase.seq (harmless_hprintf _) fun _ => ?_
  refine unchecked_phase.seq (harmless_call rfl) fun _ => ?_
  refine unchecked_phase.seq (harmless_call rfl) fun _ => ?_
  refine unchecked_phase.seq (harmless_call rfl) fun _ => ?_
  refine unchecked_phase.seq (harmless_call rfl) fun _ => ?_
  refine unchecked_phase.seq (harmless_submitHandlers _ _) fun _ => ?_
  refine getHostConfig_replied fun reply => ?_
  refine Triple.bind (zephyr_checkConfig_checked reply) fun _ => ?_
  exact Triple.bind (checked_call (by simp)) fun _ => Triple.pure fun _ hw => hw

/-! ## 2. Whole runs -/

/-! ### The fork server -/

theorem forkserver_checked (fuel : Nat) (allowPersistent stdinMode : Bool) (mainOrig : Nat) :
    Triple (Unchecked bs) (ForkServer.forkserver fuel allowPersistent stdinMode mainOrig)
      (fun _ => Checked ForkServer.PAYLOAD_MAX_SIZE []) (Lawful ForkServer.PAYLOAD_MAX_SIZE) := by
  unfold ForkServer.forkserver
  refine unchecked_phase.seq (emits_redirect (fun _ => quiet_harmless) _).harmless fun _ => ?_
  refine Triple.bind (forkserver_agentInit_checked allowPersistent) fun _ => ?_
  refine Triple.bind (checked_mallocResidentPages (by decide)) fun ptr => ?_
  refine Triple.assume fun ⟨haligned, _⟩ => ?_
  refine Triple.bind (checked_getPayload haligned List.mem_cons_self (le_refl ptr) (le_refl _))
    fun _ => ?_
  refine checked_phase.seq (harmless_call rfl) fun _ => ?_
  refine checked_phase.seq (emits_detectranges (fun _ => quiet_harmless) _ _ _).harmless
    fun ret => ?_
  refine Triple.when (fun _ => checked_phase.triple (harmless_habort _)) (fun _ _ hw => hw)
    fun _ => ?_
  exact (checked_phase.triple (harmless_hprintf _)).weaken (fun _ h => h) (fun _ _ h => h.forget)
    fun _ h => h

/-- What the history of the main loop adds to the trace. -/
def ForkServer.HistoryEvent.entry : ForkServer.HistoryEvent → List Event
  | .call c => [.vmcall c 0]
  | _ => []

/-- The calls of the main loop. -/
theorem history_calls {c : ForkServer.Config} {as : List ForkServer.Action}
    {h : List ForkServer.HistoryEvent} {t : ForkServer.State}
    (hrun : (ForkServer.loop c).replay {} as = some (h, t)) {call : Hypercall}
    (hmem : .call call ∈ h) :
    call = .userFastAcquire ∨ call = .release ∨ call = .panic 1 ∨ call = .kasan 1 ∨
      (∃ b, call = .printf b) ∨ ∃ msg, call = .userAbort msg := by
  obtain ⟨pre, post, rfl⟩ := List.append_of_mem hmem
  obtain ⟨q, hq, _⟩ := ForkServer.history_accepted c hrun
  obtain ⟨p, p', _, hnext, _⟩ := ForkServer.protocol.run_next hq
  cases ForkServer.ForkProtocolLemmas.move_of_next hnext with
  | acquire => exact .inl rfl
  | release => exact .inr (.inl rfl)
  | complain hcall =>
    rcases hcall with ⟨b, rfl⟩ | ⟨msg, rfl⟩
    all_goals simp
  | judge hreport =>
    rcases ForkServer.ForkProtocolLemmas.report_cases hreport with rfl | rfl | ⟨b, rfl⟩
    all_goals simp

/-- The main loop hands over no buffer. -/
theorem history_getPayload {c : ForkServer.Config} {as : List ForkServer.Action}
    {h : List ForkServer.HistoryEvent} {t : ForkServer.State}
    (hrun : (ForkServer.loop c).replay {} as = some (h, t)) (addr : Nat) :
    .call (.getPayload addr) ∉ h := by
  intro hmem
  rcases history_calls hrun hmem with h | h | h | h | ⟨b, h⟩ | ⟨msg, h⟩
  all_goals cases h

/-- After the start-up the law holds for every history of the main loop. -/
theorem Checked.history (hw : Checked m bs w) {c : ForkServer.Config}
    {as : List ForkServer.Action} {h : List ForkServer.HistoryEvent} {t : ForkServer.State}
    (hrun : (ForkServer.loop c).replay {} as = some (h, t)) :
    Lawful m { w with trace := w.trace ++ h.flatMap ForkServer.HistoryEvent.entry } := by
  refine hw.lawful.append rfl (fun _ hb => hb) rfl (fun _ _ _ _ => ⟨hw.accepted, hw.asked⟩) ?_
  intro addr ret hmem
  obtain ⟨e, he, hentry⟩ := List.mem_flatMap.mp hmem
  cases e with
  | call call =>
    simp only [ForkServer.HistoryEvent.entry, List.mem_singleton, Event.vmcall.injEq] at hentry
    obtain ⟨rfl, -⟩ := hentry
    exact absurd he (history_getPayload hrun addr)
  | payload => simp [ForkServer.HistoryEvent.entry] at hentry
  | sees outcome => simp [ForkServer.HistoryEvent.entry] at hentry

/-! ### The file-system fuzzer -/

theorem fuzzRound_checked (pbuf backingfile : Nat) (u : Unit) :
    Triple (Checked m bs) (FsFuzzer.fuzzRound pbuf backingfile u) (fun _ => Checked m bs)
      (Lawful m) := by
  have hpayload : Harmless (FsFuzzer.fuzzPayload pbuf backingfile) :=
    (emits_fuzzPayload (fun _ => quiet_harmless) _ _ fun _ _ _ _ _ h => nomatch h).harmless
  unfold FsFuzzer.fuzzRound
  refine checked_phase.seq hpayload fun _ => ?_
  refine checked_phase.seq (harmless_call rfl) fun _ => ?_
  refine Triple.bind (checked_call (by simp)) fun _ => ?_
  exact checked_phase.seq (harmless_call rfl) fun _ => Triple.pure fun _ hw => hw

theorem fsFuzzer_checked (fuel : Nat) (argv : List Bytes) :
    Triple (Unchecked bs) (FsFuzzer.main fuel argv)
      (fun _ => Lawful FsFuzzer.PAYLOAD_MAX_SIZE) (Lawful FsFuzzer.PAYLOAD_MAX_SIZE) := by
  unfold FsFuzzer.main FsFuzzer.fuzzDevice
  refine Triple.ite (fun _ => ?_) fun _ => ?_
  · refine unchecked_phase.seq (harmless_hprintf _) fun _ => ?_
    exact Triple.bind (Triple.stop unchecked_phase.lawful) fun _ => Triple.absurd
  refine unchecked_phase.seq harmless_syscall fun _ => ?_
  refine Triple.bind (unchecked_mallocResidentPages (by decide)) fun ptr => ?_
  refine Triple.assume fun ⟨haligned, hpos⟩ => ?_
  refine Triple.when (fun hzero => absurd hzero (Nat.ne_of_gt hpos)) (fun _ _ hw => hw) fun _ => ?_
  refine unchecked_phase.seq harmless_syscall fun _ => ?_
  refine unchecked_phase.seq (harmless_checkErrno _ _) fun _ => ?_
  refine unchecked_phase.seq harmless_syscall fun _ => ?_
  refine unchecked_phase.seq (harmless_checkErrno _ _) fun _ => ?_
  refine Triple.bind fsFuzzer_agentInit_checked fun _ => ?_
  refine Triple.bind (checked_getPayload haligned List.mem_cons_self (le_refl ptr) (le_refl _))
    fun _ => ?_
  refine checked_phase.seq harmless_syscall fun _ => ?_
  refine checked_phase.seq (harmless_checkErrno _ _) fun _ => ?_
  refine checked_phase.seq (emits_openCreate _ _).harmless fun fd => ?_
  cases fd with
  | none =>
    exact (checked_phase.triple (harmless_checkErrno _ _)).weaken (fun _ h => h)
      (fun _ _ h => h.lawful) fun _ h => h
  | some backingfile =>
    refine checked_phase.seq harmless_syscall fun _ => ?_
    refine checked_phase.seq (harmless_checkErrno _ _) fun _ => ?_
    refine checked_phase.seq (Harmless.modify fun w => Tame.silent rfl rfl rfl rfl rfl) fun _ => ?_
    exact (Triple.iter (fuzzRound_checked ptr backingfile) checked_phase.lawful fuel ()).weaken
      (fun _ h => h) (fun _ _ h => h.lawful) fun _ h => h

/-! ### The UEFI library -/

/-- Clearing the low bits rounds down to a page. -/
theorem and_pageMask {x : Nat} (h : x < 2 ^ 64) : x &&& 0xfffffffffffff000 = x / 4096 * 4096 := by
  have hmask : 0xfffffffffffff000 = (2 ^ 52 - 1) <<< 12 := by decide
  have hlt : x >>> 12 < 2 ^ 52 := by
    rw [Nat.shiftRight_eq_div_pow]
    exact Nat.div_lt_of_lt_mul h
  calc x &&& 0xfffffffffffff000 = ((x >>> 12) &&& (2 ^ 52 - 1)) <<< 12 := by
        apply Nat.eq_of_testBit_eq
        intro i
        rw [hmask]
        simp only [Nat.testBit_and, Nat.testBit_shiftLeft, Nat.testBit_shiftRight]
        by_cases hi : 12 ≤ i
        · simp [hi]
        · simp [hi]
    _ = x / 4096 * 4096 := by
        rw [Nat.and_two_pow_sub_one_eq_mod, Nat.mod_eq_of_lt hlt, Nat.shiftRight_eq_div_pow,
          Nat.shiftLeft_eq]

/-- The rounded address is that of the next page. -/
theorem alignUp_eq {b : Nat} (h : b + 0x1000 < 2 ^ 64) :
    Uefi.alignUp b = (b / 4096 + 1) * 4096 := by
  rw [Uefi.alignUp, Nat.mod_eq_of_lt h, and_pageMask h, Nat.add_div_right b (by decide)]

/-- The next page lies in the array and leaves room for a payload. -/
theorem alignUp_room {b : Nat} (hb : b + (Uefi.PAYLOAD_MAX_SIZE + 0x1000) ≤ 2 ^ 64) :
    Uefi.alignUp b % PAGE_SIZE = 0 ∧ b ≤ Uefi.alignUp b ∧
      Uefi.alignUp b + Uefi.PAYLOAD_MAX_SIZE ≤ b + (Uefi.PAYLOAD_MAX_SIZE + 0x1000) := by
  have halign : Uefi.alignUp b = (b / 4096 + 1) * 4096 :=
    alignUp_eq (Nat.lt_of_lt_of_le (Nat.add_lt_add_left (by decide) b) hb)
  have hlow : b ≤ (b / 4096 + 1) * 4096 := by
    clear hb halign
    omega
  have hhigh : (b / 4096 + 1) * 4096 ≤ b + 0x1000 := by
    clear hb halign
    omega
  rw [halign]
  refine ⟨Nat.mul_mod_left _ _, hlow, ?_⟩
  rw [Nat.add_comm Uefi.PAYLOAD_MAX_SIZE, ← Nat.add_assoc]
  exact Nat.add_le_add_right hhigh _

theorem harnessRound_checked {target : Nat → Int → Guest Unit}
    (htarget : ∀ data size, Harmless (target data size)) (payloadBuffer : Nat) (u : Unit) :
    Triple (Checked m bs) (Uefi.harnessRound target payloadBuffer u) (fun _ => Checked m bs)
      (Lawful m) := by
  unfold Uefi.harnessRound
  refine Triple.bind (checked_call (by simp)) fun _ => ?_
  refine checked_phase.seq (harmless_call rfl) fun _ => ?_
  refine checked_phase.seq (Harmless.gets _) fun size => ?_
  refine checked_phase.seq (htarget _ _) fun _ => ?_
  exact checked_phase.seq (harmless_call rfl) fun _ => Triple.pure fun _ hw => hw

theorem uefi_checked (fuel : Nat) {initTestHarness : Guest Unit}
    {target : Nat → Int → Guest Unit} (hinit : Harmless initTestHarness)
    (htarget : ∀ data size, Harmless (target data size)) {b : Nat}
    (hb : b + (Uefi.PAYLOAD_MAX_SIZE + 0x1000) ≤ 2 ^ 64) :
    Triple (Unchecked bs) (Uefi.uefiMain fuel initTestHarness target b)
      (fun _ => Lawful Uefi.PAYLOAD_MAX_SIZE) (Lawful Uefi.PAYLOAD_MAX_SIZE) := by
  unfold Uefi.uefiMain Uefi.agentInit Uefi.agentRun
  obtain ⟨haligned, hle, hroom⟩ := alignUp_room hb
  refine Triple.bind (Triple.bind (uefiHandshake_checked 0 0) fun _ =>
    checked_phase.triple hinit) fun _ => ?_
  refine Triple.bind (checked_allocate _) fun _ => ?_
  refine Triple.bind (checked_getPayload haligned List.mem_cons_self hle hroom) fun _ => ?_
  refine checked_phase.seq (harmless_call rfl) fun _ => ?_
  exact (Triple.iter (harnessRound_checked htarget _) checked_phase.lawful fuel ()).weaken
    (fun _ h => h) (fun _ _ h => h.lawful) fun _ h => h

/-! ### The Zephyr agent -/

theorem agentRound_checked {targetEntry : Nat → Int → Guest Unit}
    (htarget : ∀ data size, Harmless (targetEntry data size)) (payloadBuffer : Nat) (u : Unit) :
    Triple (Checked m bs) (Zephyr.agentRound targetEntry payloadBuffer u) (fun _ => Checked m bs)
      (Lawful m) := by
  unfold Zephyr.agentRound
  refine Triple.bind (checked_call (by simp)) fun _ => ?_
  refine checked_phase.seq (harmless_call rfl) fun _ => ?_
  refine checked_phase.seq (Harmless.gets _) fun size => ?_
  refine checked_phase.seq (htarget _ _) fun _ => ?_
  exact checked_phase.seq (harmless_call rfl) fun _ => Triple.pure fun _ hw => hw

theorem zephyr_checked (fuel : Nat) (board : Bytes) {targetInit : Guest Unit}
    {targetEntry : Nat → Int → Guest Unit} (hinit : Harmless targetInit)
    (htarget : ∀ data size, Harmless (targetEntry data size)) {bssBuffer : Nat}
    (haligned : bssBuffer % PAGE_SIZE = 0)
    (hbuffer : (bssBuffer, Zephyr.PAYLOAD_MAX_SIZE) ∈ bs) :
    Triple (Unchecked bs) (Zephyr.main fuel board targetInit targetEntry bssBuffer)
      (fun _ => Lawful Zephyr.PAYLOAD_MAX_SIZE) (Lawful Zephyr.PAYLOAD_MAX_SIZE) := by
  unfold Zephyr.main Zephyr.agentRun
  refine unchecked_phase.seq (harmless_hprintf _) fun _ => ?_
  refine unchecked_phase.seq (harmless_hprintf _) fun _ => ?_
  refine Triple.bind (zephyr_agentInit_checked 0 0) fun _ => ?_
  refine checked_phase.seq (Harmless.modify fun w => Tame.silent rfl rfl rfl rfl rfl) fun _ => ?_
  refine Triple.bind (checked_getPayload haligned hbuffer (le_refl _) (le_refl _)) fun _ => ?_
  refine checked_phase.seq hinit fun _ => ?_
  refine checked_phase.seq (harmless_hprintf _) fun _ => ?_
  exact (Triple.iter (agentRound_checked htarget _) checked_phase.lawful fuel ()).weaken
    (fun _ h => h) (fun _ _ h => h.lawful) fun _ h => h

end Steps

/-! ### All agents -/

/-- The agents, with what each is given: for the fork server the steps of its
main loop, for the others with a buffer of their own its address. -/
inductive Agent
  | forkserver (allowPersistent stdinMode : Bool) (mainOrig : Nat)
    (actions : List ForkServer.Action)
  | fsFuzzer (argv : List Bytes)
  | uefi (initTestHarness : Guest Unit) (target : Nat → Int → Guest Unit) (b : Nat)
  | zephyr (board : Bytes) (targetInit : Guest Unit) (targetEntry : Nat → Int → Guest Unit)
    (bssBuffer : Nat)

def Agent.payloadMaxSize : Agent → Nat
  | .forkserver .. => ForkServer.PAYLOAD_MAX_SIZE
  | .fsFuzzer .. => FsFuzzer.PAYLOAD_MAX_SIZE
  | .uefi .. => Uefi.PAYLOAD_MAX_SIZE
  | .zephyr .. => Zephyr.PAYLOAD_MAX_SIZE

/-- The fork server's start-up, and its main loop if it gets there. -/
def forkserverRun (fuel : Nat) (allowPersistent stdinMode : Bool) (mainOrig : Nat)
    (actions : List ForkServer.Action) (w : World) : World :=
  match (ForkServer.forkserver fuel allowPersistent stdinMode mainOrig).run w with
  | (.error _, w') => w'
  | (.ok (), w') =>
    let c : ForkServer.Config :=
      ⟨allowPersistent, stdinMode, w'.env.cpuid, w'.host.abortReturns⟩
    match (ForkServer.loop c).replay {} actions with
    | none => w'
    | some (h, _) => { w' with trace := w'.trace ++ h.flatMap ForkServer.HistoryEvent.entry }

/-- The world an agent leads to. -/
def Agent.run (fuel : Nat) : Agent → World → World
  | .forkserver allowPersistent stdinMode mainOrig actions, w =>
    forkserverRun fuel allowPersistent stdinMode mainOrig actions w
  | .fsFuzzer argv, w => ((FsFuzzer.main fuel argv).run w).2
  | .uefi initTestHarness target b, w => ((Uefi.uefiMain fuel initTestHarness target b).run w).2
  | .zephyr board targetInit targetEntry bssBuffer, w =>
    ((Zephyr.main fuel board targetInit targetEntry bssBuffer).run w).2

/-- What an agent of its own needs: a stack array within the address space, an
aligned static array, and a target that keeps to its own calls. -/
def Agent.Placed : Agent → World → Prop
  | .forkserver .., _ => True
  | .fsFuzzer .., _ => True
  | .uefi initTestHarness target b, _ =>
    Harmless initTestHarness ∧ (∀ data size, Harmless (target data size)) ∧
      b + (Uefi.PAYLOAD_MAX_SIZE + 0x1000) ≤ 2 ^ 64
  | .zephyr _ targetInit targetEntry bssBuffer, w =>
    Harmless targetInit ∧ (∀ data size, Harmless (targetEntry data size)) ∧
      bssBuffer % PAGE_SIZE = 0 ∧ (bssBuffer, Zephyr.PAYLOAD_MAX_SIZE) ∈ w.live

theorem forkserverRun_lawful (fuel : Nat) (allowPersistent stdinMode : Bool) (mainOrig : Nat)
    (actions : List ForkServer.Action) {w : World} {bs : List (Nat × Nat)} (hw : Unchecked bs w) :
    Lawful ForkServer.PAYLOAD_MAX_SIZE
      (forkserverRun fuel allowPersistent stdinMode mainOrig actions w) := by
  have hstart := forkserver_checked fuel allowPersistent stdinMode mainOrig w hw
  unfold forkserverRun
  cases hrun : (ForkServer.forkserver fuel allowPersistent stdinMode mainOrig).run w with
  | mk r w' =>
    rw [hrun] at hstart
    cases r with
    | error e => exact hstart
    | ok u =>
      have hchecked : Checked ForkServer.PAYLOAD_MAX_SIZE [] w' := hstart
      simp only
      split
      · exact hchecked.lawful
      · next h _ hloop => exact hchecked.history hloop

/-- The handshake gate: for every reply of the host and every number of
iterations, an agent makes the calls that need a handshake only after a reply
that suits it, and hands over an aligned buffer with room for the payload. -/
theorem handshake_gate (agent : Agent) (fuel : Nat) (w : World) (hpromised : Promised w)
    (hplaced : agent.Placed w) (htrace : w.trace = []) :
    Lawful agent.payloadMaxSize (agent.run fuel w) := by
  have hunchecked : Unchecked w.live w :=
    ⟨hpromised, fun _ hb => hb, fun call ret hmem => by simp [htrace] at hmem⟩
  cases agent with
  | forkserver allowPersistent stdinMode mainOrig actions =>
    exact forkserverRun_lawful fuel allowPersistent stdinMode mainOrig actions hunchecked
  | fsFuzzer argv => exact Triple.always (fsFuzzer_checked fuel argv) hunchecked
  | uefi initTestHarness target b =>
    obtain ⟨hinit, htarget, hb⟩ := hplaced
    exact Triple.always (uefi_checked fuel hinit htarget hb) hunchecked
  | zephyr board targetInit targetEntry bssBuffer =>
    obtain ⟨hinit, htarget, haligned, hlive⟩ := hplaced
    exact Triple.always (zephyr_checked fuel board hinit htarget haligned hlive) hunchecked

/-- A host whose reply suits every agent. -/
def suitedWorld : World :=
  { freshNyxWorld with
    host.config := ⟨NYX_HOST_MAGIC, NYX_HOST_VERSION, 0x10000, 0, 0x20000, 0⟩ }

/-- Two iterations of the file-system fuzzer. -/
theorem handshake_gate_fsFuzzer :
    let w := (Agent.fsFuzzer [ascii "fs_fuzzer", ascii "ext4"]).run 2 suitedWorld
    Lawful FsFuzzer.PAYLOAD_MAX_SIZE w ∧ w.trace.count (.vmcall .nextPayload 0) = 2 ∧
      w.trace.count (.vmcall (.getPayload 0x1000) 0) = 1 := by
  refine ⟨?_, by decide +kernel, by decide +kernel⟩
  exact handshake_gate (.fsFuzzer _) 2 suitedWorld ⟨rfl, fun _ => ⟨_, rfl⟩, fun _ => rfl⟩ trivial
    rfl

end KaflTargets
