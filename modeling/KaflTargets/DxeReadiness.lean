import KaflTargets.HandshakeGate

/-!
# When the DXE protocol is called

`InitializekAFLDxe` installs the protocol first. It allocates the payload buffer
and shakes hands with the host afterwards, while consumers can already call
`kAFLDxeFuzz`. The driver is a list of steps here, one for each call it makes,
and a schedule says when consumers call in between. `HarnessRun` does not
return, so the driver takes no step after a call.

Results:
1. `initializeSteps_run`: the steps in sequence are `InitializekAFLDxe`.
2. `driver_progress`: what the driver has achieved after each step.
3. `readiness_iff`: the schedules in which every call finds the driver ready.
-/

namespace KaflTargets.Uefi

open CString Prog

/-! ## The driver -/

/-- The firmware with the driver: the global `payload_buffer`, and whether the
protocol can be found. -/
structure Firmware where
  world : World
  payloadBuffer : Nat := 0
  installed : Bool := false

abbrev Driver := Prog Stop Firmware

def onWorld {α : Type} (x : Guest α) : Driver α :=
  ⟨fun f =>
    let (r, w) := x.run f.world
    (r, { f with world := w })⟩

/-- `InstallMultipleProtocolInterfaces` and the assertion on its status. -/
def installProtocol : Driver Unit := do
  let status ← onWorld syscall
  if status ≠ 0 then
    Prog.stop .assertFailed
  Prog.modify fun f => { f with installed := true }

/-- `payload_buffer = AllocatePages(..)`; 0 stands for `NULL`. -/
def allocatePages : Driver Unit := do
  let pages ← onWorld (alignedAlloc PAYLOAD_MAX_SIZE)
  Prog.modify fun f => { f with payloadBuffer := pages }

/-- `InitializekAFLDxe`. -/
def initializekAFLDxe : Driver Unit := do
  installProtocol
  allocatePages
  onWorld (harnessInit 0 0)

/-- The beginning of `HarnessRun`. -/
def harnessStart (f : Firmware) : Driver Unit := do
  let _ ← onWorld (kAFLHypercall (.getPayload f.payloadBuffer))

/-! ## Its steps -/

/-- A call of which the result is not used. -/
def call (c : Hypercall) : Guest Unit := do
  let _ ← kAFLHypercall c

/-- A step that looks at the reply of the host. -/
def withReply (next : HostConfig → Guest Unit) : Guest Unit := do
  let hostConfig ← Prog.gets (·.hostConfig)
  next hostConfig

def Mismatch (hostConfig : HostConfig) : Prop :=
  hostConfig.hostMagic ≠ NYX_HOST_MAGIC ∨ hostConfig.hostVersion ≠ NYX_HOST_VERSION

def TooLarge (hostConfig : HostConfig) : Prop :=
  hostConfig.payloadBufferSize.toNat > PAYLOAD_MAX_SIZE

instance (hostConfig : HostConfig) : Decidable (Mismatch hostConfig) :=
  inferInstanceAs (Decidable (_ ∨ _))

instance (hostConfig : HostConfig) : Decidable (TooLarge hostConfig) :=
  inferInstanceAs (Decidable (_ > _))

/-- The checks of the reply and the messages around them. -/
def checkSteps : List (Guest Unit) :=
  [withReply fun reply =>
      if Mismatch reply then
        hprintf (ascii "host_config magic/version mismatch hm: 0x" ++
          hex08 reply.hostMagic.toNat ++ ascii ", hv: 0x" ++ hex08 reply.hostVersion.toNat ++
          ascii ", am: 0x" ++ hex08 NYX_HOST_MAGIC.toNat ++ ascii ", av: 0x" ++
          hex08 NYX_HOST_VERSION.toNat ++ ascii "!\n")
      else pure (),
    withReply fun reply =>
      if Mismatch reply then habort "GET_HOST_CONFIG magic/version mismatch!\n" else pure (),
    withReply fun reply => hprintf (ascii "\thost_config.bitmap_size: 0x" ++
      hex reply.bitmapSize.toNat ++ ascii "\n"),
    withReply fun reply => hprintf (ascii "\thost_config.ijon_bitmap_size: 0x" ++
      hex reply.ijonBitmapSize.toNat ++ ascii "\n"),
    withReply fun reply => hprintf (ascii "\thost_config.payload_buffer_size: 0x" ++
      hex reply.payloadBufferSize.toNat ++ ascii "\n"),
    withReply fun reply =>
      if TooLarge reply then
        hprintf (ascii "Host payload buffer requested size is too large, " ++
          ascii "please build the harness with a larger one!\n")
      else pure (),
    withReply fun reply =>
      if TooLarge reply then habort "GET_HOST_CONFIG harness payload buffer too small\n"
      else pure (),
    hprintf (ascii "Sending agent configuration\n")]

/-- The steps of `HarnessInit(NULL, NULL)`. -/
def handshakeSteps : List (Guest Unit) :=
  [call .acquire, call .release, hprintf (ascii "Fuzzer handshake done\n"),
      call .getHostConfig] ++
    checkSteps ++
    [withReply fun reply => call (.setAgentConfig (persistentConfig reply)),
      hprintf (ascii "End send agent configuration\n")]

/-- The steps of `InitializekAFLDxe`. -/
def initializeSteps : List (Driver Unit) :=
  installProtocol :: allocatePages :: handshakeSteps.map onWorld

/-- The step after which the agent's configuration has been sent. -/
def ANNOUNCED : Nat := 15

namespace DxeLemmas

theorem each_append {σ : Type} (xs ys : List (Prog Stop σ Unit)) (s : σ) :
    (Prog.each id (xs ++ ys)).run s = (Prog.each id xs >>= fun _ => Prog.each id ys).run s := by
  induction xs generalizing s with
  | nil => rfl
  | cons x xs ih =>
    simp only [List.cons_append, Prog.each, Prog.run_bind, ih]
    cases (id x).run s with
    | mk r t => cases r <;> rfl

theorem onWorld_run {α : Type} (x : Guest α) (f : Firmware) :
    (onWorld x).run f = ((x.run f.world).1, { f with world := (x.run f.world).2 }) := rfl

theorem each_onWorld (xs : List (Guest Unit)) (f : Firmware) :
    (Prog.each id (xs.map onWorld)).run f = (onWorld (Prog.each id xs)).run f := by
  induction xs generalizing f with
  | nil => rfl
  | cons x xs ih =>
    simp only [List.map_cons, Prog.each, id, Prog.run_bind, onWorld_run]
    cases hx : x.run f.world with
    | mk r w =>
      cases r with
      | ok u => exact ih { f with world := w }
      | error e => rfl

theorem run_call_step {c : Hypercall} (h : ∀ msg, c ≠ .userAbort msg) (w : World) :
    (call c).run w = (.ok (), (w.vmcall c).2) := by
  rw [call, Prog.run_bind, kAFLHypercall_run h]
  rfl

theorem run_withReply (next : HostConfig → Guest Unit) (w : World) :
    (withReply next).run w = (next w.hostConfig).run w := rfl

/-! ### Programs that leave the reply alone -/

/-- What a harmless program keeps, and the reply of the host. -/
def Same (w₀ w : World) : Prop := Tame w₀ w ∧ w.hostConfig = w₀.hostConfig

def Plain {α : Type} (x : Guest α) : Prop := ∀ w₀, Keeps (Same w₀) x

theorem Plain.of_run {α : Type} {x : Guest α} (h : Plain x) (w : World) : Same w (x.run w).2 :=
  Keeps.run (h w) ⟨Tame.refl w, rfl⟩

theorem Plain.of_step {α : Type} {x : Guest α} (h : ∀ w, Same w (x.run w).2) : Plain x := by
  refine fun w₀ => Keeps.of_step fun w ⟨htame, hreply⟩ => ?_
  obtain ⟨htame', hreply'⟩ := h w
  exact ⟨htame.trans htame', hreply'.trans hreply⟩

theorem plain_pure {α : Type} (a : α) : Plain (pure a : Guest α) := fun _ => Keeps.pure a

theorem plain_hprintf (text : Bytes) : Plain (hprintf text) :=
  Plain.of_step fun w => ⟨Keeps.run (harmless_hprintf text w) (Tame.refl w), rfl⟩

theorem plain_habort (msg : String) : Plain (KaflTargets.habort msg) := by
  refine Plain.of_step fun w => ⟨Keeps.run (harmless_habort msg w) (Tame.refl w), ?_⟩
  rw [KaflTargets.habort, Prog.run_bind, kAFLHypercall_abort_run]
  cases w.host.abortReturns <;> rfl

theorem plain_call {c : Hypercall} (h : ∀ msg, c ≠ .userAbort msg)
    (hneeds : c.needsHandshake = false)
    (hreply : ∀ w : World, (w.vmcall c).2.hostConfig = w.hostConfig) :
    Plain (call c) := by
  refine Plain.of_step fun w => ?_
  rw [run_call_step h]
  exact ⟨tame_vmcall hneeds w, hreply w⟩

theorem plain_ite {α : Type} {c : Prop} [Decidable c] {x y : Guest α} (hx : Plain x)
    (hy : Plain y) : Plain (if c then x else y) := fun w₀ => Keeps.ite (hx w₀) (hy w₀)

theorem plain_bind {α β : Type} {x : Guest α} {k : α → Guest β} (hx : Plain x)
    (hk : ∀ a, Plain (k a)) : Plain (x >>= k) := fun w₀ => Keeps.bind (hx w₀) fun a => hk a w₀

theorem plain_withReply {next : HostConfig → Guest Unit} (h : ∀ reply, Plain (next reply)) :
    Plain (withReply next) :=
  plain_bind (fun _ => Keeps.gets _) h

theorem plain_printSizes (reply : HostConfig) : Plain (printSizes reply) :=
  plain_bind (plain_hprintf _) fun _ => plain_bind (plain_hprintf _) fun _ => plain_hprintf _

theorem plain_uefiCheckConfig (reply : HostConfig) :
    Plain (uefiCheckConfig PAYLOAD_MAX_SIZE reply) := by
  have hlarge := plain_ite (c := reply.payloadBufferSize.toNat > PAYLOAD_MAX_SIZE)
    (plain_bind (plain_hprintf (ascii "Host payload buffer requested size is too large, " ++
      ascii "please build the harness with a larger one!\n")) fun _ =>
      plain_habort "GET_HOST_CONFIG harness payload buffer too small\n") (plain_pure ())
  have hsizes := plain_bind (plain_printSizes reply) fun _ => hlarge
  refine plain_ite (plain_bind (plain_hprintf _) fun _ => ?_) hsizes
  exact plain_bind (plain_habort _) fun _ => hsizes

/-! ### The steps in sequence -/

/-- The checks, one after the other. -/
theorem checkSteps_run (w : World) :
    (Prog.each id checkSteps).run w =
      (uefiCheckConfig PAYLOAD_MAX_SIZE w.hostConfig >>= fun _ =>
        hprintf (ascii "Sending agent configuration\n")).run w := by
  have hprint : ∀ text (v : World), (v.vmcall (.printf text)).2.hostConfig = v.hostConfig :=
    fun _ _ => rfl
  have habort : ∀ text (v : World), (v.vmcall (.printf text)).2.host.abortReturns =
    v.host.abortReturns := fun _ _ => rfl
  unfold checkSteps uefiCheckConfig printSizes Mismatch TooLarge
  cases hreturns : w.host.abortReturns
  all_goals
    by_cases hm : w.hostConfig.hostMagic ≠ NYX_HOST_MAGIC ∨
      w.hostConfig.hostVersion ≠ NYX_HOST_VERSION
    all_goals
      by_cases hl : w.hostConfig.payloadBufferSize.toNat > PAYLOAD_MAX_SIZE
      all_goals
        simp [Prog.each, Prog.run_bind, run_withReply, hm, hl, hprintf_run, habort, hprint,
          KaflTargets.habort, kAFLHypercall_abort_run, hreturns]

/-- What follows the reply. -/
theorem replySteps_run (w : World) :
    (Prog.each id (checkSteps ++
      [withReply fun reply => call (.setAgentConfig (persistentConfig reply)),
        hprintf (ascii "End send agent configuration\n")])).run w =
      (uefiCheckConfig PAYLOAD_MAX_SIZE w.hostConfig >>= fun _ =>
        hprintf (ascii "Sending agent configuration\n") >>= fun _ =>
        kAFLHypercall (.setAgentConfig (persistentConfig w.hostConfig)) >>= fun _ =>
        hprintf (ascii "End send agent configuration\n")).run w := by
  rw [each_append, Prog.run_bind, checkSteps_run, Prog.run_bind, Prog.run_bind]
  have hreply := ((plain_uefiCheckConfig w.hostConfig).of_run w).2
  cases hrun : (uefiCheckConfig PAYLOAD_MAX_SIZE w.hostConfig).run w with
  | mk r v =>
    rw [hrun] at hreply
    cases r with
    | error e => rfl
    | ok u =>
      have hsent : (v.vmcall (.printf ((ascii "Sending agent configuration\n").take
          (HPRINTF_MAX_SIZE - 1) ++ [0]))).2.hostConfig = w.hostConfig := hreply
      simp [Prog.each, Prog.run_bind, hprintf_run, run_withReply, run_call_step, hsent,
        kAFLHypercall_run]

theorem handshakeSteps_run (w : World) :
    (Prog.each id handshakeSteps).run w = (harnessInit 0 0).run w := by
  rw [handshakeSteps, List.append_assoc, each_append]
  simp [Prog.run_bind, Prog.each, run_call_step, hprintf_run, replySteps_run, harnessInit,
    uefiHandshake, submitHandlers, kAFLHypercall_run]

end DxeLemmas

open DxeLemmas

/-- The steps in sequence are the driver's entry point. -/
theorem initializeSteps_run (f : Firmware) :
    (Prog.each id initializeSteps).run f = initializekAFLDxe.run f := by
  have hrest : ∀ g, (Prog.each id (handshakeSteps.map onWorld)).run g =
      (onWorld (harnessInit 0 0)).run g := by
    intro g
    rw [each_onWorld, onWorld_run, onWorld_run, handshakeSteps_run]
  simp only [initializeSteps, initializekAFLDxe, Prog.each, id, Prog.run_bind, hrest]

/-! ## Schedules -/

inductive Action
  /-- The driver takes its next step. -/
  | driver
  /-- A consumer calls `kAFLDxeFuzz`. -/
  | call
  /-- `HarnessRun` goes through its loop once. -/
  | round
  deriving DecidableEq

/-- The firmware between two actions: how many steps the driver has taken,
whether `HarnessRun` has been entered, and whether everything has stopped. -/
structure Boot where
  firmware : Firmware
  taken : Nat := 0
  fuzzing : Bool := false
  halted : Bool := false

def Boot.after (s : Boot) (x : Driver Unit) : Boot :=
  match x.run s.firmware with
  | (.ok _, f) => { s with firmware := f }
  | (.error _, f) => { s with firmware := f, halted := true }

/-- An iteration of the loop of `HarnessRun`, which reads the global. -/
def loopRound (target : Nat → Int → Guest Unit) (f : Firmware) : Driver Unit := do
  let _ ← onWorld (harnessRound target f.payloadBuffer ())

/-- An action, if it is possible. At a call it shows the firmware as
`HarnessRun` finds it. -/
def bootStep (target : Nat → Int → Guest Unit) (s : Boot) :
    Action → Option (List Firmware × Boot)
  | .driver =>
    -- the caller of `HarnessRun` never gets back to the driver
    if s.halted ∨ s.fuzzing then none
    else (initializeSteps[s.taken]?).map fun x => ([], { s with taken := s.taken + 1 }.after x)
  | .call =>
    if s.halted ∨ ¬s.firmware.installed then none
    else some ([s.firmware], { s with fuzzing := true }.after (harnessStart s.firmware))
  | .round =>
    if s.halted ∨ ¬s.fuzzing then none
    else some ([], s.after (loopRound target s.firmware))

/-- The firmware while the driver is loaded. -/
def booting (target : Nat → Int → Guest Unit) : System Boot Action Firmware := ⟨bootStep target⟩

/-- How many steps the driver has taken at each call of a schedule. -/
def callPoints : Nat → List Action → List Nat
  | _, [] => []
  | n, .driver :: as => callPoints (n + 1) as
  | n, .call :: as => n :: callPoints n as
  | n, .round :: as => callPoints n as

/-! ## Readiness -/

/-- `payload_buffer` points to a buffer of its own, and the host's reply was
accepted and answered with the agent's configuration. -/
structure Ready (f : Firmware) : Prop where
  buffer : f.payloadBuffer ≠ 0 ∧ (f.payloadBuffer, PAYLOAD_MAX_SIZE) ∈ f.world.live
  accepted : f.world.host.config.Accepted PAYLOAD_MAX_SIZE
  asked : Asked f.world
  announced : ∃ ret,
    .vmcall (.setAgentConfig (persistentConfig f.world.host.config)) ret ∈ f.world.trace

/-- `AllocatePages` succeeds, right after the protocol is installed. -/
def Allocates (w : World) : Prop := ∃ page, w.env.alignedAlloc (w.tick + 1) = .ok page

/-- What the driver has achieved after `n` steps from the world `w` on. -/
structure Progress (w : World) (n : Nat) (f : Firmware) : Prop where
  env : f.world.env = w.env
  tick : n ≤ 1 → f.world.tick = w.tick + n
  config : f.world.host.config = w.host.config
  buffer : f.payloadBuffer ≠ 0 ↔ 2 ≤ n ∧ Allocates w
  live : f.payloadBuffer ≠ 0 → (f.payloadBuffer, PAYLOAD_MAX_SIZE) ∈ f.world.live
  replied : 6 ≤ n → f.world.hostConfig = w.host.config ∧ Asked f.world
  silent : n < ANNOUNCED → ∀ call ret, .vmcall call ret ∈ f.world.trace →
    call.needsHandshake = false
  announced : ANNOUNCED ≤ n → ∃ ret,
    .vmcall (.setAgentConfig (persistentConfig w.host.config)) ret ∈ f.world.trace

namespace DxeLemmas

theorem checkSteps_plain : ∀ y ∈ checkSteps, Plain y := by
  have hprint : ∀ text : HostConfig → Bytes, Plain (withReply fun reply => hprintf (text reply)) :=
    fun text => plain_withReply fun _ => plain_hprintf _
  simp only [checkSteps, List.forall_mem_cons]
  refine ⟨?_, ?_, hprint _, hprint _, hprint _, ?_, ?_, plain_hprintf _, by simp⟩
  · exact plain_withReply fun _ => plain_ite (plain_hprintf _) (plain_pure ())
  · exact plain_withReply fun _ => plain_ite (plain_habort _) (plain_pure ())
  · exact plain_withReply fun _ => plain_ite (plain_hprintf _) (plain_pure ())
  · exact plain_withReply fun _ => plain_ite (plain_habort _) (plain_pure ())

/-- The steps of the driver: four that do something of their own, and messages
and checks. -/
theorem initializeSteps_cases {n : Nat} {x : Driver Unit} (h : initializeSteps[n]? = some x) :
    (n = 0 ∧ x = installProtocol) ∨ (n = 1 ∧ x = allocatePages) ∨
      (n = 5 ∧ x = onWorld (call .getHostConfig)) ∨
      (n = 14 ∧
        x = onWorld (withReply fun reply => call (.setAgentConfig (persistentConfig reply)))) ∨
      ∃ y, Plain y ∧ x = onWorld y ∧ 2 ≤ n ∧ n ≠ 5 ∧ n ≠ 14 := by
  match n, h with
  | 0, h => exact .inl ⟨rfl, (Option.some.inj h).symm⟩
  | 1, h => exact .inr (.inl ⟨rfl, (Option.some.inj h).symm⟩)
  | 2, h =>
    exact .inr (.inr (.inr (.inr ⟨call .acquire, plain_call (by simp) rfl fun _ => rfl,
      (Option.some.inj h).symm, by decide⟩)))
  | 3, h =>
    exact .inr (.inr (.inr (.inr ⟨call .release, plain_call (by simp) rfl fun _ => rfl,
      (Option.some.inj h).symm, by decide⟩)))
  | 4, h =>
    exact .inr (.inr (.inr (.inr ⟨_, plain_hprintf _, (Option.some.inj h).symm, by decide⟩)))
  | 5, h => exact .inr (.inr (.inl ⟨rfl, (Option.some.inj h).symm⟩))
  | k + 6, h =>
    have hmap : initializeSteps[k + 6]? = ((checkSteps ++
        [withReply fun reply => call (.setAgentConfig (persistentConfig reply)),
          hprintf (ascii "End send agent configuration\n")])[k]?).map onWorld := by
      rw [← List.getElem?_map]
      simp [initializeSteps, handshakeSteps]
    obtain ⟨y, hy, rfl⟩ := Option.map_eq_some_iff.mp (hmap ▸ h)
    have hlength : checkSteps.length = 8 := rfl
    by_cases hk : k < checkSteps.length
    · rw [List.getElem?_append_left hk] at hy
      exact .inr (.inr (.inr (.inr ⟨y, checkSteps_plain y (List.mem_of_getElem? hy), rfl,
        by omega⟩)))
    · obtain ⟨j, rfl⟩ := Nat.exists_eq_add_of_le (Nat.not_lt.mp hk)
      rw [List.getElem?_append_right (Nat.not_lt.mp hk), Nat.add_sub_cancel_left] at hy
      clear h hmap hk
      rcases j with _ | _ | j
      · have hfirst := Option.some.inj hy
        exact .inr (.inr (.inr (.inl ⟨by omega, by rw [← hfirst]⟩)))
      · have hlast := Option.some.inj hy
        exact .inr (.inr (.inr (.inr ⟨y, hlast ▸ plain_hprintf _, rfl, by omega⟩)))
      · simp at hy

variable {w v : World} {n : Nat} {f : Firmware}

theorem Progress.plain (h : Progress w n f) (hsame : Same f.world v) (hn : 2 ≤ n) (hask : n ≠ 5)
    (hannounce : n ≠ 14) : Progress w (n + 1) { f with world := v } := by
  obtain ⟨htame, hreply⟩ := hsame
  obtain ⟨es, htrace, hes⟩ := htame.trace
  refine ⟨htame.env.trans h.env, fun hle => absurd hle (by omega), htame.config.trans h.config,
    ?_, fun hne => htame.live _ (h.live hne), fun hle => ?_, fun hlt call ret hmem => ?_,
    fun hle => ?_⟩
  · rw [h.buffer]
    exact and_congr_left fun _ => by omega
  · obtain ⟨hconfig, hasked⟩ := h.replied (by omega)
    exact ⟨hreply.trans hconfig, hasked.tame htame⟩
  · rcases List.mem_append.mp (htrace ▸ hmem) with hmem | hmem
    · exact h.silent (Nat.lt_of_succ_lt hlt) call ret hmem
    · exact hes call ret hmem
  · obtain ⟨ret, hmem⟩ := h.announced (by unfold ANNOUNCED at hle ⊢; omega)
    exact ⟨ret, htrace ▸ List.mem_append_left es hmem⟩

theorem installProtocol_progress :
    Triple (Progress w 0) installProtocol (fun _ => Progress w 1) fun _ => True := by
  intro f h
  cases hsys : f.world.env.sysErr f.world.tick with
  | some e =>
    have hrun : installProtocol.run f = (.error .assertFailed,
        { f with world := { f.world with tick := f.world.tick + 1, errno := e.val } }) := by
      simp [installProtocol, Prog.run_bind, onWorld_run, syscall, hsys]
    rw [hrun]
    trivial
  | none =>
    have hrun : installProtocol.run f = (.ok (),
        { f with world := { f.world with tick := f.world.tick + 1 }, installed := true }) := by
      simp [installProtocol, Prog.run_bind, onWorld_run, syscall, hsys]
    rw [hrun]
    have htick := h.tick (by decide)
    refine ⟨h.env, fun _ => ?_, h.config, ?_, h.live, fun hle => absurd hle (by decide),
      fun _ => h.silent (by decide), fun hle => absurd hle (by decide)⟩
    · exact congrArg (· + 1) htick
    · rw [h.buffer]
      simp

theorem allocatePages_progress :
    Triple (Progress w 1) allocatePages (fun _ => Progress w 2) fun _ => True := by
  intro f h
  have htick : f.world.tick = w.tick + 1 := h.tick (le_refl 1)
  cases halloc : w.env.alignedAlloc (w.tick + 1) with
  | ok page =>
    have hrun : allocatePages.run f = (.ok (), { f with
        world := { f.world with
          tick := f.world.tick + 1
          live := (page.val * PAGE_SIZE, PAYLOAD_MAX_SIZE) :: f.world.live }
        payloadBuffer := page.val * PAGE_SIZE }) := by
      simp [allocatePages, Prog.run_bind, onWorld_run, alignedAlloc, h.env, htick, halloc]
    have hpos : page.val * PAGE_SIZE ≠ 0 :=
      Nat.mul_ne_zero (Nat.pos_iff_ne_zero.mp page.property) (by decide)
    rw [hrun]
    refine ⟨h.env, fun hle => absurd hle (by decide), h.config, ?_, fun _ => List.mem_cons_self,
      fun hle => absurd hle (by decide), fun _ => h.silent (by decide),
      fun hle => absurd hle (by decide)⟩
    exact ⟨fun _ => ⟨le_refl 2, page, halloc⟩, fun _ => hpos⟩
  | error e =>
    have hrun : allocatePages.run f = (.ok (), { f with
        world := { f.world with tick := f.world.tick + 1, errno := e.val }
        payloadBuffer := 0 }) := by
      simp [allocatePages, Prog.run_bind, onWorld_run, alignedAlloc, h.env, htick, halloc]
    rw [hrun]
    refine ⟨h.env, fun hle => absurd hle (by decide), h.config, ?_, fun hne => absurd rfl hne,
      fun hle => absurd hle (by decide), fun _ => h.silent (by decide),
      fun hle => absurd hle (by decide)⟩
    refine ⟨fun hne => absurd rfl hne, ?_⟩
    rintro ⟨_, page, hpage⟩
    rw [halloc] at hpage
    cases hpage

theorem getHostConfig_progress : Triple (Progress w 5) (onWorld (call .getHostConfig))
    (fun _ => Progress w 6) fun _ => True := by
  intro f h
  have hrun : (onWorld (call .getHostConfig)).run f = (.ok (), { f with
      world := { f.world with
        hostConfig := f.world.host.config
        trace := f.world.trace ++ [.vmcall .getHostConfig 0] } }) := rfl
  rw [hrun]
  refine ⟨h.env, fun hle => absurd hle (by decide), h.config, ?_, h.live,
    fun _ => ⟨h.config, 0, by simp⟩, fun _ call ret hmem => ?_, fun hle => absurd hle (by decide)⟩
  · rw [h.buffer]
    exact and_congr_left fun _ => by omega
  · rcases List.mem_append.mp hmem with hmem | hmem
    · exact h.silent (by decide) call ret hmem
    · obtain ⟨rfl, -⟩ := Event.vmcall.inj (List.mem_singleton.mp hmem)
      rfl

theorem announce_progress : Triple (Progress w 14)
    (onWorld (withReply fun reply => call (.setAgentConfig (persistentConfig reply))))
    (fun _ => Progress w 15) fun _ => True := by
  intro f h
  obtain ⟨hreply, ret, hasked⟩ := h.replied (by decide)
  have hrun : (onWorld (withReply fun reply =>
        call (.setAgentConfig (persistentConfig reply)))).run f = (.ok (), { f with
      world := { f.world with
        trace := f.world.trace ++
          [.vmcall (.setAgentConfig (persistentConfig f.world.hostConfig)) 0] } }) := rfl
  rw [hrun, hreply]
  refine ⟨h.env, fun hle => absurd hle (by decide), h.config, ?_, h.live,
    fun _ => ⟨hreply, ret, List.mem_append_left _ hasked⟩, fun hlt => absurd hlt (by decide),
    fun _ => ⟨0, by simp⟩⟩
  rw [h.buffer]
  exact and_congr_left fun _ => by omega

end DxeLemmas

/-- A step of the driver. -/
theorem driver_progress {w : World} {n : Nat} {x : Driver Unit} (h : initializeSteps[n]? = some x) :
    Triple (Progress w n) x (fun _ => Progress w (n + 1)) fun _ => True := by
  rcases initializeSteps_cases h with ⟨rfl, rfl⟩ | ⟨rfl, rfl⟩ | ⟨rfl, rfl⟩ | ⟨rfl, rfl⟩ |
    ⟨y, hplain, rfl, hn, hask, hannounce⟩
  · exact installProtocol_progress
  · exact allocatePages_progress
  · exact getHostConfig_progress
  · exact announce_progress
  · intro f hf
    have hnext := Progress.plain hf (hplain.of_run f.world) hn hask hannounce
    rw [onWorld_run]
    cases (y.run f.world).1 with
    | ok _ => exact hnext
    | error _ => trivial

/-! ## Every schedule -/

namespace DxeLemmas

variable {w v : World} {n : Nat} {f : Firmware} {s t : Boot} {target : Nat → Int → Guest Unit}
  {as : List Action} {shown : List Firmware}

theorem ready_iff (h : Progress w n f) :
    Ready f ↔ ANNOUNCED ≤ n ∧ Allocates w ∧ w.host.config.Accepted PAYLOAD_MAX_SIZE := by
  constructor
  · intro hready
    refine ⟨?_, (h.buffer.mp hready.buffer.1).2, h.config ▸ hready.accepted⟩
    by_contra hlt
    obtain ⟨ret, hmem⟩ := hready.announced
    cases h.silent (Nat.not_le.mp hlt) _ ret hmem
  · rintro ⟨hn, halloc, haccepted⟩
    have hle : 2 ≤ n := Nat.le_trans (by decide) hn
    have hne : f.payloadBuffer ≠ 0 := h.buffer.mpr ⟨hle, halloc⟩
    refine ⟨⟨hne, h.live hne⟩, h.config.symm ▸ haccepted,
      (h.replied (Nat.le_trans (by decide) hn)).2, ?_⟩
    rw [h.config]
    exact h.announced hn

/-- What the calls of `HarnessRun` and a harmless target keep. -/
structure Later (w v : World) : Prop where
  config : v.host.config = w.host.config
  live : ∀ b ∈ w.live, b ∈ v.live
  trace : ∀ e ∈ w.trace, e ∈ v.trace

theorem later_call (c : Hypercall) (w₀ : World) : Keeps (Later w₀) (kAFLHypercall c) := by
  refine Keeps.of_step fun w hw => ?_
  obtain ⟨_, hconfig, _, hlive, htrace⟩ := vmcall_frame c w
  rw [run_call]
  exact ⟨hconfig.trans hw.config, fun b hb => hlive ▸ hw.live b hb,
    fun e he => htrace ▸ List.mem_append_left _ (hw.trace e he)⟩

theorem later_harmless {α : Type} {x : Guest α} (h : Harmless x) (w₀ : World) :
    Keeps (Later w₀) x := by
  refine Keeps.of_step fun w hw => ?_
  have htame := Keeps.run (h w) (Tame.refl w)
  obtain ⟨es, htrace, _⟩ := htame.trace
  exact ⟨htame.config.trans hw.config, fun b hb => htame.live b (hw.live b hb),
    fun e he => htrace ▸ List.mem_append_left es (hw.trace e he)⟩

theorem later_harnessRound (htarget : ∀ data size, Harmless (target data size)) (buffer : Nat)
    (w₀ : World) : Keeps (Later w₀) (harnessRound target buffer ()) := by
  unfold harnessRound
  refine Keeps.bind (later_call _ w₀) fun _ => Keeps.bind (later_call _ w₀) fun _ => ?_
  refine Keeps.bind (Keeps.gets _) fun _ => ?_
  refine Keeps.bind (later_harmless (htarget _ _) w₀) fun _ => ?_
  exact Keeps.bind (later_call _ w₀) fun _ => Keeps.pure _

theorem Ready.later (h : Ready f) (hv : Later f.world v) : Ready { f with world := v } := by
  obtain ⟨ret, hasked⟩ := h.asked
  obtain ⟨ret', hannounced⟩ := h.announced
  exact ⟨⟨h.buffer.1, hv.live _ h.buffer.2⟩, hv.config.symm ▸ h.accepted,
    ⟨ret, hv.trace _ hasked⟩, ret', hv.config.symm ▸ hv.trace _ hannounced⟩

theorem after_onWorld {α : Type} {x : Guest α} (hx : Keeps (Later s.firmware.world) x)
    (h : Ready s.firmware) :
    Ready (s.after (onWorld x >>= fun _ => pure ())).firmware := by
  have hlater := Keeps.run hx ⟨rfl, fun _ hb => hb, fun _ he => he⟩
  have hnext := Ready.later h hlater
  simp only [Boot.after, Prog.run_bind, onWorld_run]
  cases (x.run s.firmware.world).1 with
  | ok a => exact hnext
  | error e => exact hnext

theorem callPoints_le : ∀ (as : List Action) {n k : Nat}, k ∈ callPoints n as → n ≤ k
  | [], n, k, hk => by simp [callPoints] at hk
  | .driver :: as, n, k, hk => Nat.le_of_succ_le (callPoints_le as (n := n + 1) hk)
  | .call :: as, n, k, hk => by
    rcases List.mem_cons.mp hk with rfl | hk
    · exact le_refl k
    · exact callPoints_le as hk
  | .round :: as, n, k, hk => callPoints_le as (n := n) hk

@[simp] theorem after_taken (x : Driver Unit) : (s.after x).taken = s.taken := by
  unfold Boot.after
  split <;> rfl

@[simp] theorem after_fuzzing (x : Driver Unit) : (s.after x).fuzzing = s.fuzzing := by
  unfold Boot.after
  split <;> rfl

/-- What an action can do. -/
theorem bootStep_cases {a : Action} {es : List Firmware} {u : Boot}
    (h : bootStep target s a = some (es, u)) :
    s.halted = false ∧
      ((a = .driver ∧ s.fuzzing = false ∧ es = [] ∧ ∃ x, initializeSteps[s.taken]? = some x ∧
          u = { s with taken := s.taken + 1 }.after x) ∨
        (a = .call ∧ es = [s.firmware] ∧
          u = { s with fuzzing := true }.after (harnessStart s.firmware)) ∨
        (a = .round ∧ s.fuzzing = true ∧ es = [] ∧
          u = s.after (loopRound target s.firmware))) := by
  cases a with
  | driver =>
    simp only [bootStep] at h
    split at h
    · cases h
    · next hgo =>
      obtain ⟨x, hx, hu⟩ := Option.map_eq_some_iff.mp h
      obtain ⟨rfl, rfl⟩ := Prod.mk.inj hu
      simp only [not_or, Bool.not_eq_true] at hgo
      exact ⟨hgo.1, .inl ⟨rfl, hgo.2, rfl, x, hx, rfl⟩⟩
  | call =>
    simp only [bootStep] at h
    split at h
    · cases h
    · next hgo =>
      obtain ⟨rfl, rfl⟩ := Prod.mk.inj (Option.some.inj h)
      simp only [not_or, Bool.not_eq_true] at hgo
      exact ⟨hgo.1, .inr (.inl ⟨rfl, rfl, rfl⟩)⟩
  | round =>
    simp only [bootStep] at h
    split at h
    · cases h
    · next hgo =>
      obtain ⟨rfl, rfl⟩ := Prod.mk.inj (Option.some.inj h)
      simp only [not_or, Bool.not_eq_true, Bool.not_eq_false] at hgo
      exact ⟨hgo.1, .inr (.inr ⟨rfl, hgo.2, rfl, rfl⟩)⟩

/-- Once a call has found the driver ready, so does every later one. -/
theorem ready_again (htarget : ∀ data size, Harmless (target data size)) :
    ∀ (as : List Action) {s t : Boot} {shown : List Firmware}, s.fuzzing = true →
      Ready s.firmware → (booting target).replay s as = some (shown, t) → ∀ f ∈ shown, Ready f
  | [], s, t, shown, _, _, hrun => by
    obtain ⟨rfl, -⟩ := Prod.mk.inj (Option.some.inj hrun)
    simp
  | a :: as, s, t, shown, hfuzzing, hready, hrun => by
    obtain ⟨es, u, fs, hstep, hrest, rfl⟩ := (booting target).replay_cons hrun
    rcases bootStep_cases hstep with ⟨_, ⟨_, hnot, _⟩ | ⟨rfl, rfl, rfl⟩ | ⟨rfl, _, rfl, rfl⟩⟩
    · rw [hfuzzing] at hnot
      cases hnot
    · have hnext : Ready ({ s with fuzzing := true }.after (harnessStart s.firmware)).firmware :=
        after_onWorld (later_call _ _) hready
      exact List.forall_mem_cons.mpr
        ⟨hready, ready_again htarget as (after_fuzzing _) hnext hrest⟩
    · have hnext : Ready (s.after (loopRound target s.firmware)).firmware :=
        after_onWorld (later_harnessRound htarget _ _) hready
      exact ready_again htarget as ((after_fuzzing _).trans hfuzzing) hnext hrest

/-- A schedule from a state before the first call. -/
theorem readiness_from (htarget : ∀ data size, Harmless (target data size)) :
    ∀ (as : List Action) {s t : Boot} {shown : List Firmware}, s.fuzzing = false →
      (s.halted = false → Progress w s.taken s.firmware) →
      (booting target).replay s as = some (shown, t) →
      ((∀ f ∈ shown, Ready f) ↔ ∀ n ∈ callPoints s.taken as,
        ANNOUNCED ≤ n ∧ Allocates w ∧ w.host.config.Accepted PAYLOAD_MAX_SIZE)
  | [], s, t, shown, _, _, hrun => by
    obtain ⟨rfl, -⟩ := Prod.mk.inj (Option.some.inj hrun)
    simp [callPoints]
  | a :: as, s, t, shown, hfuzzing, hprogress, hrun => by
    obtain ⟨es, u, fs, hstep, hrest, rfl⟩ := (booting target).replay_cons hrun
    rcases bootStep_cases hstep with
      ⟨hgo, ⟨rfl, _, rfl, x, hx, rfl⟩ | ⟨rfl, rfl, rfl⟩ | ⟨_, hnot, _⟩⟩
    · have hnext : ({ s with taken := s.taken + 1 }.after x).halted = false →
          Progress w ({ s with taken := s.taken + 1 }.after x).taken
            ({ s with taken := s.taken + 1 }.after x).firmware := by
        have hstep' := driver_progress hx s.firmware (hprogress hgo)
        simp only [Boot.after]
        cases hxs : x.run s.firmware with
        | mk r g =>
          rw [hxs] at hstep'
          cases r with
          | ok u => exact fun _ => hstep'
          | error e => simp
      have hfuzzing' : ({ s with taken := s.taken + 1 }.after x).fuzzing = false :=
        (after_fuzzing x).trans hfuzzing
      have hih := readiness_from htarget as hfuzzing' hnext hrest
      rwa [after_taken] at hih
    · have hfirst := ready_iff (hprogress hgo)
      simp only [List.singleton_append, List.forall_mem_cons, callPoints, hfirst]
      refine and_congr_right fun hcond => ⟨fun _ n hn => ?_, fun _ => ?_⟩
      · exact ⟨Nat.le_trans hcond.1 (callPoints_le as hn), hcond.2⟩
      · have hnext : Ready ({ s with fuzzing := true }.after (harnessStart s.firmware)).firmware :=
          after_onWorld (later_call _ _) (hfirst.mpr hcond)
        exact ready_again htarget as (after_fuzzing _) hnext hrest
    · rw [hfuzzing] at hnot
      cases hnot

theorem progress_start (htrace : w.trace = []) : Progress w 0 { world := w } := by
  refine ⟨rfl, fun _ => rfl, rfl, by simp, fun hne => absurd rfl hne,
    fun hle => absurd hle (by decide), fun _ call ret hmem => ?_,
    fun hle => absurd hle (by decide)⟩
  simp [htrace] at hmem

end DxeLemmas

/-- Every call finds the driver ready exactly if the calls come after the
driver has sent its configuration, the buffer was allocated and the host's reply
suits the driver. -/
theorem readiness_iff {target : Nat → Int → Guest Unit}
    (htarget : ∀ data size, Harmless (target data size)) {w : World} (htrace : w.trace = [])
    (as : List Action) {t : Boot} {shown : List Firmware}
    (hrun : (booting target).replay { firmware := { world := w } } as = some (shown, t)) :
    (∀ f ∈ shown, Ready f) ↔ ∀ n ∈ callPoints 0 as,
      ANNOUNCED ≤ n ∧ Allocates w ∧ w.host.config.Accepted PAYLOAD_MAX_SIZE :=
  readiness_from htarget as rfl (fun _ => progress_start htrace) hrun

namespace DxeLemmas

/-- A target that does nothing. -/
def idle (_data : Nat) (_size : Int) : Guest Unit := pure ()

theorem idle_harmless (data : Nat) (size : Int) : Harmless (idle data size) := Harmless.pure ()

theorem shell_runs :
    ∃ shown t, (booting idle).replay { firmware := { world := suitedWorld } }
        (List.replicate 16 .driver ++ [.call, .round]) = some (shown, t) ∧
      shown.length = 1 := ⟨_, _, rfl, rfl⟩

theorem notified_runs :
    ∃ shown t, (booting idle).replay { firmware := { world := suitedWorld } } [.driver, .call] =
        some (shown, t) ∧
      t.firmware.world.trace = [.vmcall (.getPayload 0) 0] := ⟨_, _, rfl, rfl⟩

end DxeLemmas

/-- The shell application calls long after the driver was loaded. -/
theorem readiness_shell :
    ∃ shown t, (booting idle).replay { firmware := { world := suitedWorld } }
        (List.replicate 16 .driver ++ [.call, .round]) = some (shown, t) ∧
      shown.length = 1 ∧ ∀ f ∈ shown, Ready f := by
  obtain ⟨shown, t, hrun, hlength⟩ := shell_runs
  refine ⟨shown, t, hrun, hlength, ?_⟩
  refine (readiness_iff idle_harmless rfl _ hrun).mpr fun n hn => ?_
  obtain rfl : n = 16 := List.mem_singleton.mp hn
  exact ⟨by decide, ⟨_, rfl⟩, rfl, rfl, by decide⟩

/-- A handler that is notified of the installation calls before there is a
buffer: it hands the address 0 to the host. -/
theorem notified_early :
    ∃ shown t, (booting idle).replay { firmware := { world := suitedWorld } } [.driver, .call] =
        some (shown, t) ∧
      ¬(∀ f ∈ shown, Ready f) ∧ t.firmware.world.trace = [.vmcall (.getPayload 0) 0] := by
  obtain ⟨shown, t, hrun, htrace⟩ := notified_runs
  refine ⟨shown, t, hrun, fun hready => ?_, htrace⟩
  have hfrom := readiness_from idle_harmless _ rfl (fun _ => progress_start rfl) hrun
  have hearly := hfrom.mp hready 1 (by decide)
  exact absurd hearly.1 (by decide)

end KaflTargets.Uefi
