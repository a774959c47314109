import KaflTargets.Lib.Campaign
import KaflTargets.MacFuzzer
import KaflTargets.Uefi
import KaflTargets.ZephyrTarget

/-!
# Campaigns

Three agents share the shape of their loop: they ask for a payload, start it, hand it to
their target, and end it. Here is what a run of such a loop does with all the payloads the
host has, when the target decides on its payload alone.

The target of the UEFI driver and that of the Zephyr agent are in the repository, and so is the
driver the macOS fuzzer writes to. The first one goes on after its verdict, the others stop.

Results:
1. `harnessLoop_campaign`: the loop runs the campaign of the payloads that are delivered.
2. `harnessRun_campaign`: the UEFI driver reports exactly the payloads that start with `dead`.
3. `zephyr_campaign`: the Zephyr agent stops at the first fatal payload, with one verdict.
4. `macFuzzer_campaign`: the macOS fuzzer stops at the first payload that crashes the driver.
-/

namespace KaflTargets

open CString Prog

/-! ## The target of the UEFI driver (`kAFLDxeTargetLib.c`) -/

/-- `InitkAFLTarget`. -/
def Uefi.initkAFLTarget : Guest Unit := do
  let _ ← kAFLHypercall (.userSubmitMode KAFL_MODE_64)

/-- `RunkAFLTarget`. The size is converted to a `UINTN`. -/
def Uefi.runkAFLTarget (input : Nat) (inputSize : Int) : Guest Unit := do
  let inputSize := (inputSize % 2 ^ 64).toNat
  if inputSize < 4 then pure ()
  else
    let mem ← Prog.gets World.mem
    if mem.probe input (ascii "dead") then
      let _ ← kAFLHypercall (.panic 0)

/-! ## 1. The loop -/

/-- The target does with every payload of a kind what `conduct` says of its bytes, and leaves the
host alone. -/
def Obeys (kind : Bytes → Prop) (conduct : Bytes → Conduct Event Stop)
    (target : Nat → Int → Guest Unit) : Prop :=
  ∀ (w : World) (addr : Nat) (payload : Bytes), payload.length < 2 ^ 31 → kind payload →
    w.mem.load addr payload.length = payload →
      Prog.Performs World.trace (conduct payload) (target addr payload.length) w ()
        fun v => v.host = w.host

/-- An iteration around what the target does. One that stops is not ended. -/
def iteration (conduct : Bytes → Conduct Event Stop) (payload : Bytes) : Conduct Event Stop where
  events := [.vmcall .nextPayload 0, .vmcall .acquire 0] ++ (conduct payload).events ++
    if (conduct payload).stop.isNone then [.vmcall .release 0] else []
  stop := (conduct payload).stop

/-- The host delivered `k` payloads to this buffer and has these. -/
structure Serving (payloads : Nat → Bytes) (buf k : Nat) (w : World) : Prop where
  payloads : w.host.payloads = payloads
  addr : w.host.payloadAddr = buf
  delivered : w.host.delivered = k

/-- The payloads `k + 1`, .., `k + n`. -/
def delivery (payloads : Nat → Bytes) (k n : Nat) : List Bytes :=
  (List.range' k n).map fun i => payloads (i + 1)

namespace CampaignLemmas

variable {payloads : Nat → Bytes} {buf k : Nat} {w : World}
  {kind : Bytes → Prop} {conduct : Bytes → Conduct Event Stop} {target : Nat → Int → Guest Unit}

/-- The payload and its size, as the harness finds them in the buffer. -/
theorem delivered_payload (mem : Mem) (buf : Nat) {data : Bytes} (h : data.length < 2 ^ 31) :
    payloadSize (mem.store buf (Mem.le32 data.length ++ data)) buf = data.length ∧
      (mem.store buf (Mem.le32 data.length ++ data)).load (buf + 4) data.length = data := by
  constructor
  · unfold payloadSize
    rw [Mem.word32_store (Nat.lt_trans h (by decide))]
    exact Int.bmod_eq_of_le_mul_two (by omega) (by omega)
  · rw [← Mem.le32_length data.length, Mem.load_store_append _ (Nat.le_refl _), List.take_length]

/-- The world in which the target is called. -/
def started (w : World) : World :=
  { (w.vmcall .nextPayload).2 with
    trace := w.trace ++ [.vmcall .nextPayload 0] ++ [.vmcall .acquire 0] }

theorem started_serving (h : Serving payloads buf k w) : Serving payloads buf (k + 1) (started w) :=
  ⟨h.payloads, h.addr, congrArg (· + 1) h.delivered⟩

theorem started_mem (h : Serving payloads buf k w) :
    (started w).mem =
      w.mem.store buf (Mem.le32 (payloads (k + 1)).length ++ payloads (k + 1)) := by
  rw [← h.payloads, ← h.addr, ← h.delivered]
  rfl

theorem Serving.congr {v : World} (h : Serving payloads buf k w) (hhost : v.host = w.host) :
    Serving payloads buf k v := by
  refine ⟨?_, ?_, ?_⟩
  all_goals rw [hhost]
  exacts [h.payloads, h.addr, h.delivered]

/-- One iteration. -/
theorem harnessRound_performs (hobeys : Obeys kind conduct target)
    (hsize : ∀ i, (payloads i).length < 2 ^ 31) (hkind : ∀ i, kind (payloads i))
    (h : Serving payloads buf k w) :
    Prog.Performs World.trace (iteration conduct (payloads (k + 1)))
      (Uefi.harnessRound target buf ()) w (.inl ()) (Serving payloads buf (k + 1)) := by
  obtain ⟨hpayloadSize, hload⟩ := delivered_payload w.mem buf (hsize (k + 1))
  rw [← started_mem h] at hpayloadSize hload
  have htarget := hobeys (started w) (buf + 4) _ (hsize (k + 1)) (hkind (k + 1)) hload
  have hnext : (kAFLHypercall .nextPayload).run w = (.ok 0, (w.vmcall .nextPayload).2) := rfl
  have hacquire : (kAFLHypercall .acquire).run (w.vmcall .nextPayload).2 = (.ok 0, started w) := rfl
  have hround : (Uefi.harnessRound target buf ()).run w =
      (target (buf + 4) (payloads (k + 1)).length >>= fun _ =>
        kAFLHypercall .release >>= fun _ => pure (.inl ())).run (started w) := by
    unfold Uefi.harnessRound
    rw [Prog.run_bind_ok hnext, Prog.run_bind_ok hacquire, Prog.run_bind_ok (Prog.run_gets _ _),
      hpayloadSize]
  cases hstop : (conduct (payloads (k + 1))).stop with
  | some e =>
    obtain ⟨v, hrun, htrace⟩ := htarget.halt hstop
    refine .of_halt (t := v) hstop (hround.trans (Prog.run_bind_error hrun)) ?_
    rw [htrace]
    simp [started, iteration, hstop]
  | none =>
    obtain ⟨v, hrun, hhost, htrace⟩ := htarget.go hstop
    have hrelease : (kAFLHypercall .release).run v =
        (.ok 0, { v with trace := v.trace ++ [.vmcall .release 0] }) := rfl
    refine .of_go hstop ?_ (Serving.congr (started_serving h) hhost)
      (t := { v with trace := v.trace ++ [.vmcall .release 0] }) ?_
    · rw [hround, Prog.run_bind_ok hrun, Prog.run_bind_ok hrelease]
      rfl
    · rw [htrace]
      simp [started, iteration, hstop]

end CampaignLemmas

open CampaignLemmas

/-- The loop of an agent runs the campaign of the payloads that are delivered to it. -/
theorem harnessLoop_campaign {kind : Bytes → Prop} {conduct : Bytes → Conduct Event Stop}
    {target : Nat → Int → Guest Unit} (hobeys : Obeys kind conduct target)
    {payloads : Nat → Bytes} (hsize : ∀ i, (payloads i).length < 2 ^ 31)
    (hkind : ∀ i, kind (payloads i)) {buf k : Nat} {w : World}
    (h : Serving payloads buf k w) (n : Nat) :
    ∃ v, (Prog.iter .timeout (Uefi.harnessRound target buf) n ()).run w =
        (.error (campaign (iteration conduct) .timeout (delivery payloads k n)).2, v) ∧
      v.trace = w.trace ++ (campaign (iteration conduct) .timeout (delivery payloads k n)).1 :=
  Prog.run_iter_campaign (iteration conduct) World.trace (Serving payloads buf)
    (fun _ _ hserving => harnessRound_performs hobeys hsize hkind hserving) n h

/-! ### Targets that stop -/

/-- What a target does that reports a fatal payload and halts, and does nothing with others. -/
def deadly (fatal : Bytes → Prop) [DecidablePred fatal] (report : Bytes → List Event)
    (payload : Bytes) : Conduct Event Stop :=
  if fatal payload then ⟨report payload, some .halted⟩ else ⟨[], none⟩

/-- An iteration with a payload that is not fatal. -/
def plainBlock : List Event :=
  [.vmcall .nextPayload 0, .vmcall .acquire 0, .vmcall .release 0]

/-- The iterations before the first fatal payload, and that one. -/
def untilFatal (fatal : Bytes → Prop) [DecidablePred fatal] (report : Bytes → List Event)
    (payloads : List Bytes) : List Event :=
  (payloads.takeWhile fun payload => ¬fatal payload).flatMap (fun _ => plainBlock) ++
    (payloads.find? fun payload => fatal payload).elim [] fun payload =>
      [.vmcall .nextPayload 0, .vmcall .acquire 0] ++ report payload

namespace CampaignLemmas

variable {fatal : Bytes → Prop} [DecidablePred fatal] (report : Bytes → List Event)
  {payload : Bytes}

theorem iteration_fatal (h : fatal payload) :
    iteration (deadly fatal report) payload =
      ⟨[.vmcall .nextPayload 0, .vmcall .acquire 0] ++ report payload, some .halted⟩ := by
  simp [iteration, deadly, h]

theorem iteration_plain (h : ¬fatal payload) :
    iteration (deadly fatal report) payload = ⟨plainBlock, none⟩ := by
  simp [iteration, deadly, plainBlock, h]

theorem campaign_deadly (fatal : Bytes → Prop) [DecidablePred fatal]
    (report : Bytes → List Event) (payloads : List Bytes) :
    campaign (iteration (deadly fatal report)) .timeout payloads =
      (untilFatal fatal report payloads,
        if ∃ payload ∈ payloads, fatal payload then .halted else .timeout) := by
  induction payloads with
  | nil => rfl
  | cons payload payloads ih =>
    by_cases h : fatal payload
    · have hiteration := iteration_fatal report h
      rw [campaign_stop (e := .halted) (by rw [hiteration]), hiteration]
      simp [untilFatal, h]
    · have hiteration := iteration_plain report h
      rw [campaign_go (by rw [hiteration]), hiteration, ih]
      simp [untilFatal, h]

end CampaignLemmas

/-! ## 2. The UEFI driver -/

/-- What `RunkAFLTarget` does with a payload: it never stops. -/
def deadConduct (payload : Bytes) : Conduct Event Stop where
  events := if ascii "dead" <+: payload then [.vmcall (.panic 0) 0] else []
  stop := none

namespace CampaignLemmas

theorem unsigned_length {payload : Bytes} (h : payload.length < 2 ^ 31) :
    ((payload.length : Int) % 2 ^ 64).toNat = payload.length := by
  omega

theorem not_prefix_short {word input : Bytes} (h : input.length < word.length) :
    ¬word <+: input := fun hword => absurd hword.length_le (Nat.not_le.mpr h)

theorem runkAFLTarget_obeys : Obeys (fun _ => True) deadConduct Uefi.runkAFLTarget := by
  intro w addr payload hsize _ hload
  unfold Uefi.runkAFLTarget deadConduct
  dsimp only
  rw [unsigned_length hsize]
  by_cases hshort : payload.length < 4
  · rw [if_pos hshort, if_neg (not_prefix_short hshort)]
    exact .of_go rfl rfl rfl (List.append_nil _).symm
  · have hprobe : w.mem.probe addr (ascii "dead") = true ↔ ascii "dead" <+: payload := by
      rw [Mem.probe_iff (ascii "dead") (Nat.not_lt.mp hshort), hload]
    rw [if_neg hshort]
    by_cases hdead : ascii "dead" <+: payload
    · rw [if_pos hdead]
      refine .of_go rfl (t := { w with trace := w.trace ++ [.vmcall (.panic 0) 0] }) ?_ rfl rfl
      rw [Prog.run_bind_ok (Prog.run_gets _ _), if_pos (hprobe.mpr hdead)]
      rfl
    · rw [if_neg hdead]
      refine .of_go rfl (t := w) ?_ rfl (List.append_nil _).symm
      rw [Prog.run_bind_ok (Prog.run_gets _ _), if_neg (mt hprobe.mp hdead)]
      rfl

/-- The buffer is handed over. -/
theorem getPayload_serving (w : World) (buf : Nat) :
    ∃ u, (kAFLHypercall (.getPayload buf)).run w = (.ok 0, u) ∧
      Serving w.host.payloads buf w.host.delivered u ∧
      u.trace = w.trace ++ [.vmcall (.getPayload buf) 0] :=
  ⟨_, rfl, ⟨rfl, rfl, rfl⟩, rfl⟩

theorem hprintf_serving {payloads : Nat → Bytes} {buf k : Nat} {w : World}
    (h : Serving payloads buf k w) (text : String) :
    ∃ u, (hprintf (ascii text)).run w = (.ok (), u) ∧ Serving payloads buf k u ∧
      u.trace = w.trace ++
        [.vmcall (.printf ((ascii text).take (HPRINTF_MAX_SIZE - 1) ++ [0])) 0] :=
  ⟨_, hprintf_run _ w, ⟨h.payloads, h.addr, h.delivered⟩, rfl⟩

end CampaignLemmas

/-- The events of the UEFI driver for a payload. -/
def deadBlock (payload : Bytes) : List Event :=
  [.vmcall .nextPayload 0, .vmcall .acquire 0] ++
    (if ascii "dead" <+: payload then [.vmcall (.panic 0) 0] else []) ++ [.vmcall .release 0]

/-- However many iterations it is given, the driver reports exactly the payloads that start
with the word, each in its own iteration, and never stops for one. -/
theorem harnessRun_campaign (w : World) (hsize : ∀ i, (w.host.payloads i).length < 2 ^ 31)
    (payloadBuffer n : Nat) :
    ∃ v, (Uefi.harnessRun n Uefi.runkAFLTarget payloadBuffer).run w = (.error .timeout, v) ∧
      v.trace = w.trace ++ .vmcall (.getPayload payloadBuffer) 0 ::
        (delivery w.host.payloads w.host.delivered n).flatMap deadBlock := by
  obtain ⟨u, hget, hserving, htrace⟩ := getPayload_serving w payloadBuffer
  obtain ⟨v, hrun, hlast⟩ := harnessLoop_campaign runkAFLTarget_obeys hsize (fun _ => trivial)
    hserving n
  rw [campaign_benign fun payload _ => rfl] at hrun hlast
  refine ⟨v, (Prog.run_bind_ok hget).trans hrun, ?_⟩
  rw [hlast, htrace, List.append_assoc]
  rfl

/-- The host has three payloads, of which the second one is `fatal`. -/
def threePayloads (fatal : Bytes) : World :=
  { freshNyxWorld with host.payloads := fun k => if k = 2 then fatal else ascii "hello" }

theorem threePayloads_size {fatal : Bytes} (h : fatal.length < 2 ^ 31) (i : Nat) :
    ((threePayloads fatal).host.payloads i).length < 2 ^ 31 := by
  show (if i = 2 then fatal else ascii "hello").length < 2 ^ 31
  split
  · exact h
  · decide

theorem harnessRun_campaign_dead :
    ∃ v, (Uefi.harnessRun 3 Uefi.runkAFLTarget 0x1000).run (threePayloads (ascii "deadly")) =
        (.error .timeout, v) ∧
      v.trace = .vmcall (.getPayload 0x1000) 0 :: (plainBlock ++
        [.vmcall .nextPayload 0, .vmcall .acquire 0, .vmcall (.panic 0) 0,
          .vmcall .release 0] ++ plainBlock) := by
  obtain ⟨v, hrun, htrace⟩ :=
    harnessRun_campaign (threePayloads (ascii "deadly")) (threePayloads_size (by decide)) 0x1000 3
  exact ⟨v, hrun, htrace.trans (by decide)⟩

/-! ## 3. The Zephyr agent -/

/-- What the Zephyr test target and the handler of fatal errors do with a payload: an oops is
reported as `KASAN`, everything else as `PANIC`, and the kernel halts. -/
def zephyrConduct (payload : Bytes) : Conduct Event Stop :=
  match Zephyr.verdict (payload.take 31) with
  | .ok _ => ⟨[], none⟩
  | .error (.oops _) => ⟨[.vmcall (.kasan 0) 0], some .halted⟩
  | .error (.panic _) => ⟨[.vmcall (.panic 0) 0], some .halted⟩
  | .error .overflow => ⟨[], some .overflow⟩

/-- A payload that starts with one of the four words. -/
def Fatal (payload : Bytes) : Prop :=
  (ascii "KERNELAFL" <+: payload ∨ ascii "SERGEJ" <+: payload) ∨
    ascii "KASAN" <+: payload ∨ ascii "RedQueen" <+: payload

instance (payload : Bytes) : Decidable (Fatal payload) := inferInstanceAs (Decidable (_ ∨ _))

/-- How the Zephyr agent reports a fatal payload. -/
def zephyrReport (payload : Bytes) : Event :=
  if ascii "KERNELAFL" <+: payload ∨ ascii "SERGEJ" <+: payload then .vmcall (.panic 0) 0
  else .vmcall (.kasan 0) 0

namespace CampaignLemmas

theorem load_min (mem : Mem) (addr n m : Nat) :
    mem.load addr (min n m) = (mem.load addr n).take m := by
  unfold Mem.load
  rw [← List.map_take, List.take_range, Nat.min_comm]

theorem size32_length {payload : Bytes} (h : payload.length < 2 ^ 31) :
    ((payload.length : Int) % 2 ^ 32).toNat = payload.length := by
  omega

/-- A call that does nothing but add itself to the trace, and then the kernel halts. -/
theorem report_halts (call : Hypercall) (w : World)
    (hcall : (kAFLHypercall call).run w =
      (.ok 0, { w with trace := w.trace ++ [.vmcall call 0] })) (Q : World → Prop) :
    Prog.Performs World.trace ⟨[.vmcall call 0], some .halted⟩
      (do
        let _ ← kAFLHypercall call
        Prog.stop .halted : Guest Unit) w () Q :=
  .of_halt rfl (Prog.run_bind_ok hcall) rfl

/-- The target sees at most 31 bytes of the payload. -/
theorem targetEntry_load (stack : LocalArray Zephyr.INPUT_LENGTH) {w : World} {addr : Nat}
    {payload : Bytes} (hload : w.mem.load addr payload.length = payload) :
    Zephyr.targetEntry stack w.mem addr payload.length = Zephyr.verdict (payload.take 31) := by
  rw [Zephyr.targetEntry_eq, load_min, hload]

section CallTarget

variable {stack : World → LocalArray Zephyr.INPUT_LENGTH} {w : World} {addr : Nat}
  {payload : Bytes} (hsize : payload.length < 2 ^ 31)
include hsize

theorem callTarget_ok {n : Nat}
    (hentry : Zephyr.targetEntry (stack w) w.mem addr payload.length = .ok n) :
    (Zephyr.callTarget stack addr payload.length).run w = (.ok (), w) := by
  unfold Zephyr.callTarget
  rw [Prog.run_bind_ok (Prog.run_gets _ _), size32_length hsize]
  dsimp only [id]
  rw [hentry]
  rfl

theorem callTarget_error {fatal : Zephyr.Fatal}
    (hentry : Zephyr.targetEntry (stack w) w.mem addr payload.length = .error fatal) :
    (Zephyr.callTarget stack addr payload.length).run w =
      (Zephyr.kSysFatalErrorHandler fatal).run w := by
  unfold Zephyr.callTarget
  rw [Prog.run_bind_ok (Prog.run_gets _ _), size32_length hsize]
  dsimp only [id]
  rw [hentry]

end CallTarget

theorem callTarget_obeys (stack : World → LocalArray Zephyr.INPUT_LENGTH) :
    Obeys (fun _ => True) zephyrConduct (Zephyr.callTarget stack) := by
  intro w addr payload hsize _ hload
  have hentry := targetEntry_load (stack w) hload
  unfold zephyrConduct
  cases hverdict : Zephyr.verdict (payload.take 31) with
  | ok n =>
    exact .of_go rfl (callTarget_ok hsize (hentry.trans hverdict)) rfl (List.append_nil _).symm
  | error fatal =>
    have hcall := callTarget_error hsize (hentry.trans hverdict)
    cases fatal with
    | oops bug =>
      obtain ⟨v, hrun, htrace⟩ := (report_halts (.kasan 0) w rfl fun _ => True).halt rfl
      exact .of_halt rfl (hcall.trans hrun) htrace
    | panic bug =>
      obtain ⟨v, hrun, htrace⟩ := (report_halts (.panic 0) w rfl fun _ => True).halt rfl
      exact .of_halt rfl (hcall.trans hrun) htrace
    | overflow => exact .of_halt rfl hcall (List.append_nil _).symm

/-- The words are short, so what is cut off does not matter. -/
theorem prefix_take {word : Bytes} {n : Nat} (h : word.length ≤ n) (payload : Bytes) :
    word <+: payload.take n ↔ word <+: payload := by
  rw [List.prefix_take_iff]
  exact and_iff_left h

theorem zephyrConduct_eq :
    zephyrConduct = deadly Fatal fun payload => [zephyrReport payload] := by
  funext payload
  have hword (word : Bytes) (h : word.length ≤ 31) := prefix_take h payload
  unfold zephyrConduct Zephyr.verdict deadly Fatal zephyrReport
  simp only [hword (ascii "KERNELAFL") (by decide), hword (ascii "SERGEJ") (by decide),
    hword (ascii "KASAN") (by decide), hword (ascii "RedQueen") (by decide)]
  split_ifs <;> simp_all

end CampaignLemmas

/-- The Zephyr agent runs its payloads one by one up to the first fatal one, reports that one
once, and halts in its iteration. What the stack holds plays no part. -/
theorem zephyr_campaign (w : World) (hsize : ∀ i, (w.host.payloads i).length < 2 ^ 31)
    (stack : World → LocalArray Zephyr.INPUT_LENGTH) (bssBuffer n : Nat) :
    let payloads := delivery w.host.payloads w.host.delivered n
    ∃ v, (Zephyr.agentRun n (pure ()) (Zephyr.callTarget stack) bssBuffer).run w =
        (.error (if ∃ payload ∈ payloads, Fatal payload then .halted else .timeout), v) ∧
      v.trace = w.trace ++
        [.vmcall (.getPayload bssBuffer) 0,
          .vmcall (.printf (ascii "Target init done...\n" ++ [0])) 0] ++
        untilFatal Fatal (fun payload => [zephyrReport payload]) payloads := by
  intro payloads
  let filled := { w with mem := w.mem.fill bssBuffer Zephyr.PAYLOAD_MAX_SIZE 0 }
  obtain ⟨u, hget, hserving, htrace⟩ := getPayload_serving filled bssBuffer
  obtain ⟨ready, hprint, hready, hprinted⟩ := hprintf_serving hserving "Target init done...\n"
  obtain ⟨v, hrun, hlast⟩ := harnessLoop_campaign (callTarget_obeys stack) hsize
    (fun _ => trivial) hready n
  rw [zephyrConduct_eq, campaign_deadly] at hrun hlast
  refine ⟨v, ?_, ?_⟩
  · unfold Zephyr.agentRun
    rw [Prog.run_bind_ok (Prog.run_modify _ _), Prog.run_bind_ok hget,
      Prog.run_bind_ok (Prog.run_pure _ _), Prog.run_bind_ok hprint]
    exact hrun
  · rw [hlast, hprinted, htrace, List.append_assoc _ _ [_]]
    rfl

theorem zephyr_campaign_sergej :
    ∃ v, (Zephyr.agentRun 3 (pure ()) (Zephyr.callTarget fun _ => LocalArray.filled _ [])
        0x1000).run (threePayloads (ascii "SERGEJ")) = (.error .halted, v) ∧
      v.trace = [.vmcall (.getPayload 0x1000) 0,
        .vmcall (.printf (ascii "Target init done...\n" ++ [0])) 0] ++ plainBlock ++
        [.vmcall .nextPayload 0, .vmcall .acquire 0, .vmcall (.panic 0) 0] := by
  obtain ⟨v, hrun, htrace⟩ := zephyr_campaign (threePayloads (ascii "SERGEJ"))
    (threePayloads_size (by decide)) (fun _ => LocalArray.filled _ []) 0x1000 3
  exact ⟨v, hrun.trans (congrArg (Prod.mk · v) (by decide)), htrace.trans (by decide)⟩

/-! ## 4. The macOS fuzzer -/

/-- The conduct of the driver behind a device. A device that does not open hides it. -/
def MacFuzzer.Device.Crashes (dev : MacFuzzer.Device) (payload : Bytes) : Prop :=
  dev.opens = true ∧ MacVuln.Boom payload

instance (dev : MacFuzzer.Device) : DecidablePred dev.Crashes :=
  fun _ => inferInstanceAs (Decidable (_ ∧ _))

namespace CampaignLemmas

theorem boom_take (payload : Bytes) : MacVuln.Boom (payload.take 255) ↔ MacVuln.Boom payload := by
  unfold MacVuln.Boom
  rw [prefix_take (by decide), prefix_take (by decide)]

/-- A write that the driver copies in full and that does not end within a word. -/
theorem vulnWrite_decided (stack : LocalArray (MacVuln.BUFFERSIZE + 1)) {payload : Bytes}
    (h : MacVuln.Decided payload) :
    MacVuln.vulnWrite stack 0 payload =
      if MacVuln.Boom payload then .error .panic else .ok 0 := by
  rw [MacVuln.vulnWrite_eq]
  simp only [MacVuln.VulnLemmas.boom_overwrite_iff h, boom_take]

theorem writeDevice_run {dev : MacFuzzer.Device} (hcopyin : ∀ w, dev.copyin w = 0) {w : World}
    {addr : Nat} {payload : Bytes} (hsize : payload.length < 2 ^ 31)
    (hdecided : MacVuln.Decided payload) (hload : w.mem.load addr payload.length = payload) :
    (MacFuzzer.writeDevice dev addr payload.length).run w =
      if dev.Crashes payload then (.error .halted, w)
      else (.ok (), if dev.opens then w else { w with errno := 9 }) := by
  have hcount : ¬MacFuzzer.INT_MAX < payload.length := by
    unfold MacFuzzer.INT_MAX
    omega
  have hdriver := vulnWrite_decided (dev.stack w) hdecided
  unfold MacFuzzer.writeDevice
  rw [Prog.run_bind_ok (Prog.run_gets _ _), unsigned_length hsize, Prog.run_ite]
  by_cases hopens : dev.opens = true
  · rw [if_neg (by simp [hopens]), if_neg hcount, if_pos hopens]
    dsimp only [id]
    rw [hcopyin, hload, hdriver]
    by_cases hboom : MacVuln.Boom payload
    · rw [if_pos hboom, if_pos (show dev.Crashes payload from ⟨hopens, hboom⟩)]
      rfl
    · rw [if_neg hboom, if_neg (fun h : dev.Crashes payload => hboom h.2)]
      rfl
  · rw [if_pos (by simp [hopens]), if_neg (fun h : dev.Crashes payload => hopens h.1),
      if_neg hopens]
    rfl

theorem writeDevice_obeys {dev : MacFuzzer.Device} (hcopyin : ∀ w, dev.copyin w = 0) :
    Obeys MacVuln.Decided (deadly dev.Crashes fun _ => []) (MacFuzzer.writeDevice dev) := by
  intro w addr payload hsize hdecided hload
  have hrun := writeDevice_run hcopyin hsize hdecided hload
  unfold deadly
  split_ifs with hcrashes
  · rw [if_pos hcrashes] at hrun
    exact .of_halt rfl hrun (List.append_nil _).symm
  · rw [if_neg hcrashes] at hrun
    refine .of_go rfl hrun ?_ ?_
    all_goals split_ifs
    all_goals first | rfl | exact (List.append_nil _).symm

/-- The buffer of the macOS fuzzer is mapped and filled before the host gets it. -/
theorem mapped_run {w : World} {page : { p : Nat // 0 < p }}
    (hmmap : w.env.alignedAlloc w.tick = .ok page) (payloadMax : Nat) :
    ∃ v, (∀ (n : Nat) (dev : MacFuzzer.Device), (MacFuzzer.main n payloadMax dev).run w =
        (do
          let _ ← kAFLHypercall (.getPayload (page.val * PAGE_SIZE))
          let _ ← kAFLHypercall .submitCr3
          Prog.iter .timeout (MacFuzzer.fuzzRound dev (page.val * PAGE_SIZE)) n () :
            Guest Unit).run v) ∧
      v.host = w.host ∧ v.trace = w.trace := by
  let u := { w with tick := w.tick + 1, live := (page.val * PAGE_SIZE, payloadMax) :: w.live }
  have halloc : (alignedAlloc payloadMax).run w = (.ok (page.val * PAGE_SIZE), u) := by
    unfold alignedAlloc
    dsimp only
    rw [hmmap]
  have hne : page.val * PAGE_SIZE ≠ 0 :=
    Nat.mul_ne_zero (Nat.pos_iff_ne_zero.mp page.property) (by decide)
  refine ⟨{ u with mem := u.mem.fill (page.val * PAGE_SIZE) payloadMax 0xff }, fun n dev => ?_,
    rfl, rfl⟩
  have hfill : (memset (page.val * PAGE_SIZE) 0xff payloadMax).run u =
      (.ok (), { u with mem := u.mem.fill (page.val * PAGE_SIZE) payloadMax 0xff }) := by
    unfold memset
    rw [if_neg hne]
    rfl
  unfold MacFuzzer.main
  rw [Prog.run_bind_ok halloc, Prog.run_bind_ok hfill]

end CampaignLemmas

/-- The macOS fuzzer runs its payloads one by one up to the first one that starts with a word of
the driver, and the kernel halts in that iteration. If the device does not open, it runs on
for ever and finds nothing. -/
theorem macFuzzer_campaign (w : World) (hsize : ∀ i, (w.host.payloads i).length < 2 ^ 31)
    (hdecided : ∀ i, MacVuln.Decided (w.host.payloads i)) (page : { p : Nat // 0 < p })
    (hmmap : w.env.alignedAlloc w.tick = .ok page) (dev : MacFuzzer.Device)
    (hcopyin : ∀ v, dev.copyin v = 0) (payloadMax n : Nat) :
    let payloads := delivery w.host.payloads w.host.delivered n
    ∃ v, (MacFuzzer.main n payloadMax dev).run w =
        (.error (if ∃ payload ∈ payloads, dev.Crashes payload then .halted else .timeout), v) ∧
      v.trace = w.trace ++
        [.vmcall (.getPayload (page.val * PAGE_SIZE)) 0, .vmcall .submitCr3 0] ++
        untilFatal dev.Crashes (fun _ => []) payloads := by
  intro payloads
  obtain ⟨v, hmapped, hhost, hmap⟩ := mapped_run hmmap payloadMax
  obtain ⟨u, hget, hserving, htrace⟩ := getPayload_serving v (page.val * PAGE_SIZE)
  rw [hhost] at hserving
  let ready : World := { u with trace := u.trace ++ [.vmcall .submitCr3 0] }
  have hready : Serving w.host.payloads (page.val * PAGE_SIZE) w.host.delivered ready :=
    ⟨hserving.payloads, hserving.addr, hserving.delivered⟩
  have hcr3 : (kAFLHypercall .submitCr3).run u = (.ok 0, ready) := rfl
  obtain ⟨t, hrun, hlast⟩ := harnessLoop_campaign (writeDevice_obeys hcopyin) hsize hdecided
    hready n
  rw [campaign_deadly] at hrun hlast
  refine ⟨t, ?_, ?_⟩
  · rw [hmapped, Prog.run_bind_ok hget, Prog.run_bind_ok hcr3]
    exact hrun
  · show t.trace = _
    rw [hlast]
    show u.trace ++ [.vmcall .submitCr3 0] ++ _ = _
    rw [htrace, hmap, List.append_assoc w.trace]
    rfl

theorem macFuzzer_campaign_macos :
    ∃ v, (MacFuzzer.main 3 0x1000 ⟨true, fun _ => LocalArray.filled _ [], fun _ => 0⟩).run
        (threePayloads (ascii "macOS!")) = (.error .halted, v) ∧
      v.trace = [.vmcall (.getPayload 4096) 0, .vmcall .submitCr3 0] ++ plainBlock ++
        [.vmcall .nextPayload 0, .vmcall .acquire 0] := by
  have hdecided (i : Nat) :
      MacVuln.Decided ((threePayloads (ascii "macOS!")).host.payloads i) := by
    show MacVuln.Decided (if i = 2 then ascii "macOS!" else ascii "hello")
    split
    all_goals exact ⟨by decide, by decide⟩
  obtain ⟨v, hrun, htrace⟩ := macFuzzer_campaign (threePayloads (ascii "macOS!"))
    (threePayloads_size (by decide)) hdecided ⟨1, Nat.one_pos⟩ rfl
    ⟨true, fun _ => LocalArray.filled _ [], fun _ => 0⟩ (fun _ => rfl) 0x1000 3
  exact ⟨v, hrun.trans (congrArg (Prod.mk · v) (by decide)), htrace.trans (by decide)⟩

end KaflTargets
