import KaflTargets.Lib.Overwrite
import KaflTargets.FsFuzzer

/-!
# What the file-system fuzzer mounts

The backing file is opened once, without truncation, and every payload is
written to its start. So an image shows what earlier payloads left behind its
own end: it is the payload alone only as long as no payload is shorter than
what the file already holds. The warm-up round counts, too: it writes 20 bytes.

A host that rewinds at `RELEASE` runs every payload behind the same warm-up
round, as if it were the only one.

Results:
1. `fuzzRound_presents`: an iteration mounts its payload over the old content.
2. `main_presents`: the images of a whole run.
3. `mounts_isolated_iff`: when every image is the current payload alone.
-/

namespace KaflTargets.FsFuzzer

open CString Prog

/-! ## What is mounted -/

/-- The images a trace mounts. -/
def mounts (trace : List Event) : List Bytes :=
  trace.filterMap fun
    | .mount image => some image
    | _ => none

/-- The payloads that reach the backing file: those of more than eight bytes. -/
def written (payloads : List Bytes) : List Bytes := payloads.filter fun d => 8 < d.length

/-- What the first round uses: twenty bytes of the buffer as it was handed over,
the payload that is there and the filling. -/
def warmup (w : World) : Bytes := (w.host.payloads 0 ++ List.replicate 20 0x42).take 20

/-- The payloads of a run: the warm-up and what the host delivers. -/
def inputs (w : World) (rounds : Nat) : List Bytes :=
  warmup w :: (List.range rounds).map fun k => w.host.payloads (k + 1)

/-- The content of the backing file. -/
def backing (w : World) : Bytes :=
  ((w.files (w.resolve KAFL_TMP_FILE)).getD ⟨[], 0o777⟩).content

/-! ## States of a run -/

/-- Every `lseek` and `write` completes, and the sizes of the payloads fit into
an `int32_t`. -/
structure Complete (w : World) : Prop where
  write : ∀ t, w.env.write t = .full
  lseek : ∀ t, w.env.lseekErr t = none
  payload : ∀ k, (w.host.payloads k).length < 2147483648

/-- What a run of the loop keeps: the descriptor and the path of the backing
file, the buffer, and what the host will deliver. -/
structure Device where
  fd : Nat
  path : Bytes
  pbuf : Nat
  payloads : Nat → Bytes

/-- The backing file is open and holds `old`, and the host has delivered `n`
payloads. -/
structure Attached (dev : Device) (old : Bytes) (n : Nat) (w : World) : Prop
    extends Complete w where
  fd : ∃ pos, w.fds dev.fd = some ⟨dev.path, pos⟩
  file : ∃ mode, w.files dev.path = some ⟨old, mode⟩
  payloads : w.host.payloads = dev.payloads
  addr : w.host.payloadAddr = dev.pbuf
  delivered : w.host.delivered = n

/-- At the head of the loop the buffer holds `d`. -/
structure Loaded (dev : Device) (old d : Bytes) (n : Nat) (w : World) : Prop
    extends Attached dev old n w where
  size : w.mem.word32 dev.pbuf = d.length
  data : w.mem.load (dev.pbuf + 4) d.length = d
  small : d.length < 2147483648

/-- Nothing the loop depends on has changed, and nothing was mounted. -/
structure Quiet (w v : World) : Prop where
  env : v.env = w.env
  config : v.host.config = w.host.config
  cwd : v.cwd = w.cwd
  payloads : v.host.payloads = w.host.payloads
  addr : v.host.payloadAddr = w.host.payloadAddr
  delivered : v.host.delivered = w.host.delivered
  files : v.files = w.files
  fds : v.fds = w.fds
  mem : v.mem = w.mem
  lookups : v.lookups = w.lookups
  mounts : mounts v.trace = mounts w.trace

/-- A program that ends and changes nothing of that. -/
def Steady {α : Type} (x : Guest α) : Prop := ∀ w, ∃ a v, x.run w = (.ok a, v) ∧ Quiet w v

/-- No program of these stops. -/
abbrev Never : World → Prop := fun _ => False

namespace IsolationLemmas

variable {α : Type} {x : Guest α} {I : World → Prop}

theorem mounts_append (es fs : List Event) : mounts (es ++ fs) = mounts es ++ mounts fs :=
  List.filterMap_append

/-- What steady programs keep. -/
theorem Steady.triple (hx : Steady x) (hI : ∀ w v, I w → Quiet w v → I v) :
    Triple I x (fun _ => I) Never := by
  intro w hw
  obtain ⟨a, v, hrun, hquiet⟩ := hx w
  rw [hrun]
  exact hI w v hw hquiet

/-- A system call takes one outcome, and returns 0 if that is a success. -/
theorem syscall_quiet (w : World) : ∃ ret v, syscall.run w = (.ok ret, v) ∧ Quiet w v ∧
    v.tick = w.tick + 1 ∧ (w.env.sysErr w.tick = none → ret = 0) := by
  cases herr : w.env.sysErr w.tick with
  | none =>
    refine ⟨0, { w with tick := w.tick + 1 }, by simp [syscall, herr], ?_, rfl, fun _ => rfl⟩
    exact ⟨rfl, rfl, rfl, rfl, rfl, rfl, rfl, rfl, rfl, rfl, rfl⟩
  | some e =>
    refine ⟨-1, { w with tick := w.tick + 1, errno := e.val }, by simp [syscall, herr], ?_, rfl,
      fun h => nomatch h⟩
    exact ⟨rfl, rfl, rfl, rfl, rfl, rfl, rfl, rfl, rfl, rfl, rfl⟩

theorem steady_syscall : Steady syscall := by
  intro w
  obtain ⟨ret, v, hrun, hquiet, -, -⟩ := syscall_quiet w
  exact ⟨ret, v, hrun, hquiet⟩

theorem steady_hprintf (text : Bytes) : Steady (hprintf text) := by
  intro w
  exact ⟨_, _, hprintf_run text w, rfl, rfl, rfl, rfl, rfl, rfl, rfl, rfl, rfl, rfl,
    by simp [World.vmcall, World.react, mounts]⟩

/-- A call the host only takes note of. -/
theorem steady_call {call : Hypercall} (h : ∀ w, (kAFLHypercall call).run w =
    (.ok 0, { w with trace := w.trace ++ [.vmcall call 0] })) : Steady (kAFLHypercall call) := by
  intro w
  exact ⟨_, _, h w, rfl, rfl, rfl, rfl, rfl, rfl, rfl, rfl, rfl, rfl, by simp [mounts]⟩

theorem checkErrno_ok {cond : Bool} (h : cond = true) (msg : String) :
    checkErrno cond msg = pure () := by
  rw [checkErrno, if_pos h]

variable {dev : Device} {n : Nat} {old d : Bytes} {images : List Bytes} {w v : World}

theorem Complete.quiet (h : Complete w) (hq : Quiet w v) : Complete v :=
  ⟨by rw [hq.env]; exact h.write, by rw [hq.env]; exact h.lseek,
    by rw [hq.payloads]; exact h.payload⟩

theorem Attached.quiet (h : Attached dev old n w) (hq : Quiet w v) : Attached dev old n v :=
  ⟨Complete.quiet h.toComplete hq, by rw [hq.fds]; exact h.fd, by rw [hq.files]; exact h.file,
    hq.payloads.trans h.payloads, hq.addr.trans h.addr, hq.delivered.trans h.delivered⟩

theorem Loaded.quiet (h : Loaded dev old d n w) (hq : Quiet w v) : Loaded dev old d n v :=
  ⟨Attached.quiet h.toAttached hq, by rw [hq.mem]; exact h.size, by rw [hq.mem]; exact h.data,
    h.small⟩

/-- A state of the loop with the images so far. -/
def Showing (dev : Device) (old d : Bytes) (n : Nat) (images : List Bytes) (w : World) : Prop :=
  Loaded dev old d n w ∧ mounts w.trace = images

theorem Showing.quiet (h : Showing dev old d n images w) (hq : Quiet w v) :
    Showing dev old d n images v :=
  ⟨Loaded.quiet h.1 hq, hq.mounts.trans h.2⟩

theorem rewind_shows :
    Triple (Showing dev old d n images) (rewind dev.fd)
      (fun ret w => ret = 0 ∧ Showing dev old d n images w ∧ w.fds dev.fd = some ⟨dev.path, 0⟩)
      Never := by
  rintro w ⟨hw, himages⟩
  obtain ⟨pos, hfd⟩ := hw.fd
  simp only [rewind, hfd, hw.lseek]
  refine ⟨trivial, ⟨⟨⟨⟨hw.write, hw.lseek, hw.payload⟩, ⟨0, ?_⟩, hw.file, hw.payloads, hw.addr,
    hw.delivered⟩, hw.size, hw.data, hw.small⟩, himages⟩, ?_⟩
  all_goals simp

theorem sizeT_length (h : d.length < 2147483648) : sizeT d.length = d.length := by
  unfold sizeT
  omega

theorem payloadSize_eq (h : Loaded dev old d n w) : payloadSize w.mem dev.pbuf = d.length := by
  have hsmall := h.small
  unfold payloadSize
  rw [h.size, Int.bmod_def]
  omega

/-- The payload is written over the old content. -/
theorem write_shows :
    Triple (fun w => Showing dev old d n images w ∧ w.fds dev.fd = some ⟨dev.path, 0⟩)
      (write dev.fd (dev.pbuf + 4) d.length)
      (fun ret w => ret = d.length ∧ Showing dev (splice old d) d n images w) Never := by
  rintro w ⟨⟨hw, himages⟩, hfd⟩
  obtain ⟨mode, hfile⟩ := hw.file
  have hcall : w.writeCall dev.fd (dev.pbuf + 4) d.length =
      ((d.length : Int), { w.writeAt dev.fd ⟨dev.path, 0⟩ d with tick := w.tick + 1 }) := by
    have hsmall : d.length ≤ SSIZE_MAX := Nat.le_of_lt (Nat.lt_trans hw.small (by decide))
    simp [World.writeCall, hfd, hsmall, hw.write, WriteOutcome.amount, hw.data]
  rw [write_run, hcall]
  refine ⟨rfl, ⟨⟨⟨hw.write, hw.lseek, hw.payload⟩, ⟨d.length, ?_⟩, ⟨mode, ?_⟩, hw.payloads,
    hw.addr, hw.delivered⟩, hw.size, hw.data, hw.small⟩, ?_⟩
  · simp [World.writeAt]
  · simp [World.writeAt, hfile, overwrite_zero, splice]
  · calc mounts (w.trace ++ [.write (dev.pbuf + 4) d.length d.length])
        = mounts w.trace ++ [] := mounts_append _ _
      _ = images := by rw [himages, List.append_nil]

/-- A mounted file keeps its length. -/
theorem mountedContent_length (w : World) (content : Bytes) :
    (w.mountedContent content).length = content.length := by
  simp only [World.mountedContent, overwrite_zero, List.length_append, List.length_drop,
    List.length_take]
  omega

/-- `mount` shows the content of the file. -/
theorem mount_shows :
    Triple (Showing dev old d n images) (mount dev.fd)
      (fun _ w => ∃ new, new.length = old.length ∧
        Showing dev new d n (images ++ [old]) w) Never := by
  rintro w ⟨hw, himages⟩
  obtain ⟨pos, hfd⟩ := hw.fd
  obtain ⟨mode, hfile⟩ := hw.file
  have hmounts : mounts (w.trace ++ [.mount old]) = images ++ [old] := by
    rw [mounts_append, himages]
    rfl
  cases herr : w.env.mountErr w.tick with
  | some e =>
    have hrun : (mount dev.fd).run w = (.ok (-1), { w with
        tick := w.tick + 1, trace := w.trace ++ [.mount old], errno := e.val }) := by
      simp [mount, hfd, hfile, herr]
    rw [hrun]
    exact ⟨old, rfl, ⟨⟨⟨hw.write, hw.lseek, hw.payload⟩, hw.fd, hw.file, hw.payloads, hw.addr,
      hw.delivered⟩, hw.size, hw.data, hw.small⟩, hmounts⟩
  | none =>
    have hrun : (mount dev.fd).run w = (.ok 0, { w with
        tick := w.tick + 1
        trace := w.trace ++ [.mount old]
        files := Function.update w.files dev.path (some ⟨w.mountedContent old, mode⟩) }) := by
      simp [mount, hfd, hfile, herr]
    rw [hrun]
    exact ⟨w.mountedContent old, mountedContent_length w old,
      ⟨⟨⟨hw.write, hw.lseek, hw.payload⟩, hw.fd, ⟨mode, by simp⟩, hw.payloads, hw.addr,
        hw.delivered⟩, hw.size, hw.data, hw.small⟩, hmounts⟩

/-- A check that holds, and the rest of the program. -/
theorem checkErrno_triple {β : Type} {cond : Bool} (h : cond = true) (msg : String)
    {k : Unit → Guest β} {Q : β → World → Prop} {R : World → Prop} (hk : Triple I (k ()) Q R) :
    Triple I (checkErrno cond msg >>= k) Q R := by
  rw [checkErrno_ok h]
  exact Triple.bind (Triple.pure (Q := fun _ => I) fun _ hw => hw) fun _ => hk

/-- A payload of more than eight bytes is mounted, spliced over the old content. -/
theorem fuzzImage_shows (hsmall : d.length < 2147483648) :
    Triple (Showing dev old d n images) (fuzzImage dev.pbuf dev.fd d.length)
      (fun _ w => ∃ new, new.length = (splice old d).length ∧
        Showing dev new d n (images ++ [splice old d]) w) Never := by
  have hsteady : ∀ w v, (∃ new, new.length = (splice old d).length ∧
      Showing dev new d n (images ++ [splice old d]) w) → Quiet w v →
      ∃ new, new.length = (splice old d).length ∧
        Showing dev new d n (images ++ [splice old d]) v := by
    rintro w v ⟨new, hlength, hw⟩ hq
    exact ⟨new, hlength, Showing.quiet hw hq⟩
  unfold fuzzImage
  refine Triple.bind rewind_shows fun ret => Triple.assume fun hret => ?_
  subst hret
  refine checkErrno_triple (by decide) _ ?_
  rw [sizeT_length hsmall]
  refine Triple.bind write_shows fun ret => Triple.assume fun hret => ?_
  subst hret
  refine checkErrno_triple (decide_eq_true (by omega)) _ ?_
  refine Triple.ite (fun hne => absurd rfl hne) fun _ => ?_
  refine Triple.bind (Steady.triple steady_syscall fun _ _ => Showing.quiet) fun _ => ?_
  refine checkErrno_triple (decide_eq_true (by omega)) _ ?_
  refine Triple.bind mount_shows fun ret => ?_
  refine Triple.ite (fun _ => ?_) fun _ => Triple.pure fun _ hw => hw
  refine Triple.bind (Steady.triple (steady_hprintf _) hsteady) fun _ => ?_
  refine Triple.bind (Steady.triple steady_syscall hsteady) fun _ => ?_
  refine Triple.bind (Steady.triple steady_syscall hsteady) fun _ => ?_
  exact Triple.bind (Steady.triple steady_syscall hsteady) fun _ => Triple.pure fun _ hw => hw

/-- The content and the images after a payload. -/
def After (old d new : Bytes) (images images' : List Bytes) : Prop :=
  if 8 < d.length then new.length = (splice old d).length ∧ images' = images ++ [splice old d]
  else new = old ∧ images' = images

theorem fuzzPayload_shows (hsmall : d.length < 2147483648) :
    Triple (Showing dev old d n images) (fuzzPayload dev.pbuf dev.fd)
      (fun _ w => ∃ new images', After old d new images images' ∧
        Showing dev new d n images' w) Never := by
  have hsize : Triple (Showing dev old d n images)
      (Prog.gets (ε := Stop) fun w => payloadSize w.mem dev.pbuf)
      (fun size w => size = d.length ∧ Showing dev old d n images w) Never :=
    Triple.gets fun w hw => ⟨payloadSize_eq hw.1, hw⟩
  unfold fuzzPayload
  refine Triple.bind hsize fun size => Triple.assume fun hd => ?_
  subst hd
  rw [sizeT_length hsmall]
  refine Triple.ite (fun hlong => ?_) fun hshort => Triple.pure fun w hw => ?_
  · refine (fuzzImage_shows hsmall).weaken (fun _ hw => hw) ?_ fun _ h => h
    rintro _ w ⟨new, hlength, hw⟩
    exact ⟨new, _, by rw [After, if_pos hlong]; exact ⟨hlength, rfl⟩, hw⟩
  · exact ⟨old, images, by rw [After, if_neg hshort]; exact ⟨rfl, rfl⟩, hw⟩

/-- `NEXT_PAYLOAD` puts the next payload into the buffer. -/
theorem nextPayload_shows :
    Triple (Showing dev old d n images) (kAFLHypercall .nextPayload)
      (fun _ => Showing dev old (dev.payloads (n + 1)) (n + 1) images) Never := by
  rintro w ⟨hw, himages⟩
  have hsmall : (dev.payloads (n + 1)).length < 2147483648 := hw.payloads ▸ hw.payload (n + 1)
  have hmem : (w.vmcall .nextPayload).2.mem = w.mem.store dev.pbuf
      (Mem.le32 (dev.payloads (n + 1)).length ++ dev.payloads (n + 1)) := by
    simp [World.vmcall, World.react, World.deliver, hw.payloads, hw.addr, hw.delivered]
  refine ⟨⟨⟨⟨hw.write, hw.lseek, hw.payload⟩, hw.fd, hw.file, hw.payloads, hw.addr, ?_⟩, ?_, ?_,
    hsmall⟩, ?_⟩
  · exact congrArg (· + 1) hw.delivered
  · exact hmem ▸ Mem.word32_store (by omega)
  · have hload : (w.mem.store dev.pbuf (Mem.le32 (dev.payloads (n + 1)).length ++
        dev.payloads (n + 1))).load (dev.pbuf + 4) (dev.payloads (n + 1)).length =
        (dev.payloads (n + 1)).take (dev.payloads (n + 1)).length :=
      Mem.load_store_append _ (le_refl _)
    rw [List.take_length] at hload
    exact hmem ▸ hload
  · calc mounts (w.trace ++ [.vmcall .nextPayload 0])
        = mounts w.trace ++ [] := mounts_append _ _
      _ = images := by rw [himages, List.append_nil]

end IsolationLemmas

open IsolationLemmas

/-! ## 1. An iteration -/

/-- An iteration mounts its payload over what the file holds, if the payload has
more than eight bytes, and leaves the next one in the buffer. -/
theorem fuzzRound_presents {dev : Device} {n : Nat} {old d : Bytes} {images : List Bytes}
    {w : World} (hw : Showing dev old d n images w) :
    ∃ new images' w', (fuzzRound dev.pbuf dev.fd ()).run w = (.ok (.inl ()), w') ∧
      After old d new images images' ∧
      Showing dev new (dev.payloads (n + 1)) (n + 1) images' w' := by
  have hquiet : ∀ w v, (∃ new images', After old d new images images' ∧
      Showing dev new d n images' w) → Quiet w v →
      ∃ new images', After old d new images images' ∧ Showing dev new d n images' v := by
    rintro w v ⟨new, images', hafter, hw⟩ hq
    exact ⟨new, images', hafter, Showing.quiet hw hq⟩
  have hround : Triple (Showing dev old d n images) (fuzzRound dev.pbuf dev.fd ())
      (fun r w => r = .inl () ∧ ∃ new images', After old d new images images' ∧
        Showing dev new (dev.payloads (n + 1)) (n + 1) images' w) Never := by
    unfold fuzzRound
    refine Triple.bind (fuzzPayload_shows hw.1.small) fun _ => ?_
    refine Triple.bind (Steady.triple (steady_call fun _ => rfl) hquiet) fun _ => ?_
    refine Triple.bind (Q := fun _ w => ∃ new images', After old d new images images' ∧
      Showing dev new (dev.payloads (n + 1)) (n + 1) images' w) ?_ fun _ => ?_
    · rintro w ⟨new, images', hafter, hw⟩
      exact ⟨new, images', hafter, nextPayload_shows w hw⟩
    · refine Triple.bind (Steady.triple (steady_call fun _ => rfl) ?_) fun _ =>
        Triple.pure fun w hw => ⟨rfl, hw⟩
      rintro w v ⟨new, images', hafter, hw⟩ hq
      exact ⟨new, images', hafter, Showing.quiet hw hq⟩
  have hrun := hround w hw
  cases hxs : (fuzzRound dev.pbuf dev.fd ()).run w with
  | mk r w' =>
    rw [hxs] at hrun
    cases r with
    | ok r =>
      obtain ⟨rfl, new, images', hafter, hshow⟩ := hrun
      exact ⟨new, images', w', rfl, hafter, hshow⟩
    | error e => exact hrun.elim

/-! ## 2. A whole run -/

namespace IsolationLemmas

/-- The payloads of the rounds from one on whose payload is `d`. -/
def rounds (payloads : Nat → Bytes) : Nat → Nat → Bytes → List Bytes
  | 0, _, _ => []
  | fuel + 1, n, d => d :: rounds payloads fuel (n + 1) (payloads (n + 1))

theorem rounds_eq (payloads : Nat → Bytes) (fuel n : Nat) (d : Bytes) :
    rounds payloads (fuel + 1) n d =
      d :: (List.range fuel).map fun k => payloads (n + k + 1) := by
  induction fuel generalizing n d with
  | zero => rfl
  | succ fuel ih =>
    rw [rounds, ih, List.range_succ_eq_map, List.map_cons, List.map_map]
    have hshift : ∀ k, n + 1 + k + 1 = n + (k + 1) + 1 := by
      intro k
      omega
    simp [hshift, Function.comp_def]

/-- The loop, by induction on the number of rounds. -/
theorem loop_presents {dev : Device} (fuel : Nat) : ∀ {n : Nat} {old d : Bytes}
    {images : List Bytes} {w : World}, Showing dev old d n images w →
    ∃ w' shown, (Prog.iter .timeout (fuzzRound dev.pbuf dev.fd) fuel ()).run w =
        (.error .timeout, w') ∧
      mounts w'.trace = images ++ shown ∧
      Presents old (written (rounds dev.payloads fuel n d)) shown := by
  induction fuel with
  | zero =>
    intro n old d images w hw
    exact ⟨w, [], rfl, by rw [hw.2, List.append_nil], .nil old⟩
  | succ fuel ih =>
    intro n old d images w hw
    obtain ⟨new, images', w₁, hround, hafter, hw₁⟩ := fuzzRound_presents hw
    obtain ⟨w', shown, hrun, hmounts, hpresents⟩ := ih hw₁
    rw [Prog.run_iter_again hround, rounds]
    by_cases hlong : 8 < d.length
    · rw [After, if_pos hlong] at hafter
      obtain ⟨hlength, rfl⟩ := hafter
      refine ⟨w', splice old d :: shown, hrun, by simp [hmounts], ?_⟩
      rw [written, List.filter_cons_of_pos (by simpa using hlong)]
      exact .write hlength hpresents
    · rw [After, if_neg hlong] at hafter
      obtain ⟨rfl, rfl⟩ := hafter
      refine ⟨w', shown, hrun, hmounts, ?_⟩
      rwa [written, List.filter_cons_of_neg (by simpa using hlong)]

/-! ### The start-up -/

/-- The bytes of the buffer behind the size, when the size is set to 20. -/
theorem warmup_load (m : Mem) (pbuf size : Nat) (data : Bytes) (hsize : 24 ≤ size) :
    (((m.fill pbuf size 0x42).store pbuf (Mem.le32 data.length ++ data)).store pbuf
        (Mem.le32 20)).load (pbuf + 4) 20 =
      (data ++ List.replicate 20 0x42).take 20 := by
  apply List.ext_getElem
  · simp
  · intro i hi _
    have hi : i < 20 := by simpa using hi
    have hoff : pbuf + 4 + i - pbuf = i + 4 := by omega
    have hfilled : m.fill pbuf size 0x42 (pbuf + 4 + i) = 0x42 := if_pos (by omega)
    simp only [Mem.load, Mem.store, List.getElem_map, List.getElem_range, List.getElem_take, hoff]
    rw [if_pos (by omega), if_pos (by omega), hfilled,
      List.getElem?_eq_none (by rw [Mem.le32_length]; omega), Option.getD_none,
      List.getElem?_append_right (by rw [Mem.le32_length]; omega), Mem.le32_length,
      Nat.add_sub_cancel]
    by_cases hdata : i < data.length
    · rw [List.getElem?_eq_getElem hdata, List.getElem_append_left hdata, Option.getD_some]
    · rw [List.getElem?_eq_none (by omega), List.getElem_append_right (by omega),
        List.getElem_replicate, Option.getD_none]

end IsolationLemmas

/-- The checked calls before the loop succeed, and the host's reply suits the
agent. The first of the system calls is not checked. -/
structure Starts (w : World) : Prop extends Complete w where
  alloc : ∃ page, w.env.alignedAlloc (w.tick + 1) = .ok page
  mlock : w.env.mlock (w.tick + 2) = none
  sys : ∀ t, w.tick + 3 ≤ t → t < w.tick + 7 → w.env.sysErr t = none
  opens : w.env.openErr w.lookups KAFL_TMP_FILE = none
  magic : w.host.config.hostMagic = NYX_HOST_MAGIC
  version : w.host.config.hostVersion = NYX_HOST_VERSION
  size : w.host.config.payloadBufferSize.toNat ≤ PAYLOAD_MAX_SIZE
  delivered : w.host.delivered = 0
  trace : w.trace = []

/-- A state of the start-up from `w₀` on, after `n` outcomes, with this memory. -/
structure Booting (w₀ : World) (n : Nat) (m : Mem) (w : World) : Prop where
  env : w.env = w₀.env
  config : w.host.config = w₀.host.config
  payloads : w.host.payloads = w₀.host.payloads
  delivered : w.host.delivered = 0
  files : w.files = w₀.files
  cwd : w.cwd = w₀.cwd
  mem : w.mem = m
  tick : w.tick = w₀.tick + n
  lookups : w.lookups = w₀.lookups
  mounts : mounts w.trace = []

namespace IsolationLemmas

variable {w₀ w v : World} {m : Mem} {images : List Bytes} {n : Nat}

theorem Booting.quiet (h : Booting w₀ n m w) (hq : Quiet w v) (htick : v.tick = w.tick + 1) :
    Booting w₀ (n + 1) m v :=
  ⟨hq.env.trans h.env, hq.config.trans h.config, hq.payloads.trans h.payloads,
    hq.delivered.trans h.delivered, hq.files.trans h.files, hq.cwd.trans h.cwd,
    hq.mem.trans h.mem, by rw [htick, h.tick, Nat.add_assoc], hq.lookups.trans h.lookups,
    hq.mounts.trans h.mounts⟩

theorem Booting.sys (hw : Booting w₀ n m w) (h : Starts w₀) (hfrom : 3 ≤ n) (hto : n < 7) :
    w.env.sysErr w.tick = none := by
  rw [hw.env, hw.tick]
  exact h.sys _ (by omega) (by omega)

/-- A system call whose result is not checked. -/
theorem syscall_boots :
    Triple (Booting w₀ n m) syscall (fun _ => Booting w₀ (n + 1) m) Never := by
  intro w hw
  obtain ⟨ret, v, hrun, hquiet, htick, -⟩ := syscall_quiet w
  rw [hrun]
  exact Booting.quiet hw hquiet htick

/-- A system call that succeeds. -/
theorem syscall_zero {I J : World → Prop} (hsys : ∀ w, I w → w.env.sysErr w.tick = none)
    (hI : ∀ w v, I w → Quiet w v → v.tick = w.tick + 1 → J v) :
    Triple I syscall (fun ret w => ret = 0 ∧ J w) Never := by
  intro w hw
  obtain ⟨ret, v, hrun, hquiet, htick, hret⟩ := syscall_quiet w
  rw [hrun]
  exact ⟨hret (hsys w hw), hI w v hw hquiet htick⟩

theorem malloc_boots (h : Starts w₀) {numPages : Nat} (hpages : numPages < 2 ^ 52) :
    Triple (Booting w₀ 1 m) (mallocResidentPages numPages)
      (fun ptr w => 0 < ptr ∧ Booting w₀ 3 (m.fill ptr (PAGE_SIZE * numPages) 0x42) w) Never := by
  intro w hw
  obtain ⟨page, hpage⟩ := h.alloc
  have halloc : w.env.alignedAlloc w.tick = .ok page := by rw [hw.env, hw.tick, hpage]
  have hmlock : w.env.mlock (w.tick + 1) = none := by rw [hw.env, hw.tick, h.mlock]
  rw [mallocResidentPages_run hpages halloc hmlock]
  refine ⟨Nat.mul_pos page.property (by decide), hw.env, hw.config, hw.payloads, hw.delivered,
    hw.files, hw.cwd, ?_, ?_, hw.lookups, hw.mounts⟩
  · rw [← hw.mem]
    rfl
  · exact congrArg (· + 2) hw.tick

/-- A call the host only takes note of. -/
theorem call_boots {call : Hypercall} (h : ∀ w, (kAFLHypercall call).run w =
    (.ok 0, { w with trace := w.trace ++ [.vmcall call 0] })) :
    Triple (Booting w₀ n m) (kAFLHypercall call) (fun _ => Booting w₀ n m) Never := by
  intro w hw
  rw [h w]
  refine ⟨hw.env, hw.config, hw.payloads, hw.delivered, hw.files, hw.cwd, hw.mem, hw.tick,
    hw.lookups, ?_⟩
  calc mounts (w.trace ++ [.vmcall call 0])
      = mounts w.trace ++ [] := mounts_append _ _
    _ = [] := by rw [hw.mounts, List.append_nil]

theorem getHostConfig_boots :
    Triple (Booting w₀ n m) (kAFLHypercall .getHostConfig)
      (fun _ w => Booting w₀ n m w ∧ w.hostConfig = w₀.host.config) Never := by
  intro w hw
  refine ⟨⟨hw.env, hw.config, hw.payloads, hw.delivered, hw.files, hw.cwd, hw.mem, hw.tick,
    hw.lookups, ?_⟩, hw.config⟩
  calc mounts (w.trace ++ [.vmcall .getHostConfig 0])
      = mounts w.trace ++ [] := mounts_append _ _
    _ = [] := by rw [hw.mounts, List.append_nil]

theorem agentInit_boots (h : Starts w₀) :
    Triple (Booting w₀ n m) agentInit (fun _ => Booting w₀ n m) Never := by
  unfold agentInit linuxCheckConfig
  refine Triple.bind (call_boots fun _ => rfl) fun _ => ?_
  refine Triple.bind (call_boots fun _ => rfl) fun _ => ?_
  refine Triple.bind getHostConfig_boots fun _ => ?_
  refine Triple.bind (Q := fun reply w => reply = w₀.host.config ∧ Booting w₀ n m w)
    (Triple.gets fun w hw => ⟨hw.2, hw.1⟩) fun reply => Triple.assume fun hreply => ?_
  subst hreply
  rw [if_neg (not_not.mpr h.magic), if_neg (not_not.mpr h.version), if_neg (Nat.not_lt.mpr h.size)]
  refine Triple.bind (call_boots fun _ => rfl) fun _ => ?_
  exact Triple.pure fun _ hw => hw

/-- The first payload is in the buffer. -/
def Fetched (w₀ : World) (n ptr : Nat) (m : Mem) (w : World) : Prop :=
  w.host.payloadAddr = ptr ∧ Booting w₀ n m w

theorem Fetched.quiet {ptr : Nat} (h : Fetched w₀ n ptr m w) (hq : Quiet w v)
    (htick : v.tick = w.tick + 1) : Fetched w₀ (n + 1) ptr m v :=
  ⟨hq.addr.trans h.1, Booting.quiet h.2 hq htick⟩

/-- The buffer with the payload the host put there. -/
theorem getPayload_boots (ptr : Nat) :
    Triple (Booting w₀ n m) (kAFLHypercall (.getPayload ptr))
      (fun _ => Fetched w₀ n ptr (m.store ptr
        (Mem.le32 (w₀.host.payloads 0).length ++ w₀.host.payloads 0))) Never := by
  intro w hw
  refine ⟨rfl, hw.env, hw.config, hw.payloads, hw.delivered, hw.files, hw.cwd, ?_, hw.tick,
    hw.lookups, ?_⟩
  · simp [World.deliver, hw.payloads, hw.delivered, hw.mem]
  · calc mounts (w.trace ++ [.vmcall (.getPayload ptr) 0])
        = mounts w.trace ++ [] := mounts_append _ _
      _ = [] := by rw [hw.mounts, List.append_nil]

/-- The file is open, before the size is set. -/
structure Opened (w₀ : World) (n : Nat) (dev : Device) (old : Bytes) (m : Mem) (w : World) :
    Prop where
  env : w.env = w₀.env
  tick : w.tick = w₀.tick + n
  attached : Attached dev old 0 w
  mem : w.mem = m
  mounts : mounts w.trace = []

theorem Opened.quiet {dev : Device} {old : Bytes} (h : Opened w₀ n dev old m w) (hq : Quiet w v)
    (htick : v.tick = w.tick + 1) : Opened w₀ (n + 1) dev old m v :=
  ⟨hq.env.trans h.env, by rw [htick, h.tick, Nat.add_assoc], Attached.quiet h.attached hq,
    hq.mem.trans h.mem, hq.mounts.trans h.mounts⟩

theorem Opened.sys {dev : Device} {old : Bytes} (hw : Opened w₀ n dev old m w) (h : Starts w₀)
    (hfrom : 3 ≤ n) (hto : n < 7) : w.env.sysErr w.tick = none := by
  rw [hw.env, hw.tick]
  exact h.sys _ (by omega) (by omega)

/-- The backing file keeps its content when it is opened. -/
theorem openCreate_boots (h : Starts w₀) (ptr : Nat) :
    Triple (Fetched w₀ n ptr m) (openCreate KAFL_TMP_FILE 0o777)
      (fun r w => ∃ fd, r = some fd ∧
        Opened w₀ n ⟨fd, w₀.resolve KAFL_TMP_FILE, ptr, w₀.host.payloads⟩ (backing w₀) m w)
      Never := by
  rintro w ⟨haddr, hw⟩
  have hpath : w.resolve KAFL_TMP_FILE = w₀.resolve KAFL_TMP_FILE := by
    rw [World.resolve, World.resolve, hw.cwd]
  have hopen : w.env.openErr w.lookups KAFL_TMP_FILE = none := by
    rw [hw.env, hw.lookups, h.opens]
  simp only [openCreate, hopen]
  have hcomplete : Complete w := ⟨hw.env ▸ h.write, hw.env ▸ h.lseek, hw.payloads ▸ h.payload⟩
  refine ⟨w.nextFd, rfl, hw.env, hw.tick, ⟨⟨hcomplete.write, hcomplete.lseek, hcomplete.payload⟩,
    ⟨0, ?_⟩, ⟨((w₀.files (w₀.resolve KAFL_TMP_FILE)).getD ⟨[], 0o777⟩).mode, ?_⟩, hw.payloads,
    haddr, hw.delivered⟩, hw.mem, hw.mounts⟩
  · simp [World.install, World.called, hpath]
  · simp [World.install, World.called, hpath, hw.files, backing]

/-- `pbuf->size = 20`. -/
theorem setSize_boots {dev : Device} {old d : Bytes} (hlength : d.length = 20)
    (hload : (m.store dev.pbuf (Mem.le32 20)).load (dev.pbuf + 4) 20 = d) :
    Triple (Opened w₀ n dev old m)
      (Prog.modify (ε := Stop) fun w => { w with mem := w.mem.store dev.pbuf (Mem.le32 20) })
      (fun _ => Showing dev old d 0 []) Never := by
  refine Triple.modify fun w ⟨_, _, hw, hmem, hmounts⟩ => ?_
  subst hmem
  have hsize : (w.mem.store dev.pbuf (Mem.le32 20)).word32 dev.pbuf = 20 := by
    have hword : (w.mem.store dev.pbuf (Mem.le32 20 ++ [])).word32 dev.pbuf = 20 :=
      Mem.word32_store (by decide)
    rwa [List.append_nil] at hword
  refine ⟨⟨⟨⟨hw.write, hw.lseek, hw.payload⟩, hw.fd, hw.file, hw.payloads, hw.addr, hw.delivered⟩,
    hsize.trans hlength.symm, ?_, by omega⟩, hmounts⟩
  rw [hlength]
  exact hload

theorem warmup_length (w : World) : (warmup w).length = 20 := by
  simp [warmup]

/-- A program that does not stop, and the rest of the program. -/
theorem Never.seq {α β : Type} {x : Guest α} {k : α → Guest β} {P : World → Prop}
    {Q : α → World → Prop} {Q' : β → World → Prop} {R : World → Prop} (hx : Triple P x Q Never)
    (hk : ∀ a, Triple (Q a) (k a) Q' R) : Triple P (x >>= k) Q' R :=
  Triple.bind (hx.weaken (fun _ h => h) (fun _ _ h => h) fun _ h => h.elim) hk

theorem loop_triple {dev : Device} {old d : Bytes} (fuel : Nat) :
    Triple (Showing dev old d 0 []) (Prog.iter .timeout (fuzzRound dev.pbuf dev.fd) fuel ())
      (fun _ _ => False)
      fun w => Presents old (written (rounds dev.payloads fuel 0 d)) (mounts w.trace) := by
  intro w hw
  obtain ⟨w', shown, hrun, hmounts, hpresents⟩ := loop_presents fuel hw
  rw [hrun]
  simpa [hmounts] using hpresents

/-- From the start of `main` on, the images of the loop. -/
theorem main_shows (h : Starts w₀) {argv : List Bytes} (hargc : argv.length = 2) (fuel : Nat) :
    Triple (Booting w₀ 0 w₀.mem) (main fuel argv) (fun _ _ => False) fun w =>
      Presents (backing w₀) (written (rounds w₀.host.payloads fuel 0 (warmup w₀)))
        (mounts w.trace) := by
  unfold main fuzzDevice
  refine Triple.ite (fun hne => absurd hargc hne) fun _ => ?_
  refine Never.seq syscall_boots fun _ => ?_
  refine Never.seq (malloc_boots h (by decide)) fun ptr => Triple.assume fun hpos => ?_
  refine Triple.ite (fun hzero => absurd hzero (Nat.ne_of_gt hpos)) fun _ => ?_
  refine Never.seq (syscall_zero (fun w hw => Booting.sys hw h (by decide) (by decide))
    fun _ _ => Booting.quiet) fun ret => Triple.assume fun hret => ?_
  refine checkErrno_triple (by simp [hret]) _ ?_
  refine Never.seq (syscall_zero (fun w hw => Booting.sys hw h (by decide) (by decide))
    fun _ _ => Booting.quiet) fun ret => Triple.assume fun hret => ?_
  refine checkErrno_triple (by simp [hret]) _ ?_
  refine Never.seq (agentInit_boots h) fun _ => ?_
  refine Never.seq (getPayload_boots ptr) fun _ => ?_
  refine Never.seq (syscall_zero (fun w hw => Booting.sys hw.2 h (by decide) (by decide))
    fun _ _ => Fetched.quiet) fun ret => Triple.assume fun hret => ?_
  refine checkErrno_triple (by simp [hret]) _ ?_
  refine Never.seq (openCreate_boots h ptr) fun r => ?_
  refine Triple.exists fun fd => Triple.assume fun hfd => ?_
  subst hfd
  refine Never.seq (syscall_zero (fun w hw => Opened.sys hw h (by decide) (by decide))
    fun _ _ => Opened.quiet) fun ret => Triple.assume fun hret => ?_
  refine checkErrno_triple (by simp [hret]) _ ?_
  refine Never.seq (setSize_boots (warmup_length w₀) (warmup_load _ _ _ _ (by decide))) fun _ => ?_
  exact loop_triple fuel

end IsolationLemmas

/-- The images of a run are the payloads spliced over what the file held. -/
theorem main_presents {w : World} (h : Starts w) {argv : List Bytes} (hargc : argv.length = 2)
    (rounds : Nat) :
    Presents (backing w) (written (inputs w rounds))
      (mounts ((main (rounds + 1) argv).run w).2.trace) := by
  have hboot : Booting w 0 w.mem w :=
    ⟨rfl, rfl, rfl, h.delivered, rfl, rfl, rfl, rfl, rfl, by rw [h.trace]; rfl⟩
  have hinputs : IsolationLemmas.rounds w.host.payloads (rounds + 1) 0 (warmup w) =
      inputs w rounds := by
    rw [rounds_eq, inputs]
    simp
  have hrun := main_shows h hargc (rounds + 1) w hboot
  rw [hinputs] at hrun
  cases hxs : (main (rounds + 1) argv).run w with
  | mk r v =>
    rw [hxs] at hrun
    cases r with
    | ok _ => exact hrun.elim
    | error _ => exact hrun

/-! ## 3. Isolation -/

/-- Every image of a run is the payload of its iteration alone exactly if no
payload that is written is shorter than the file was at the start or than a
payload written before it. The warm-up counts as a payload of twenty bytes. -/
theorem mounts_isolated_iff {w : World} (h : Starts w) {argv : List Bytes}
    (hargc : argv.length = 2) (rounds : Nat) :
    mounts ((main (rounds + 1) argv).run w).2.trace = written (inputs w rounds) ↔
      ((backing w).length :: (written (inputs w rounds)).map List.length).Pairwise (· ≤ ·) :=
  (main_presents h hargc rounds).isolated_iff

namespace IsolationLemmas

/-- A Nyx host that accepts the agent and delivers these payloads. -/
def fuzzWorld (payloads : Nat → Bytes) : World :=
  { env := Env.plain
    host :=
      { config := ⟨NYX_HOST_MAGIC, NYX_HOST_VERSION, 0, 0, 4096, 0⟩
        payloads } }

theorem fuzzWorld_starts {payloads : Nat → Bytes}
    (h : ∀ k, (payloads k).length < 2147483648) : Starts (fuzzWorld payloads) where
  write _ := rfl
  lseek _ := rfl
  payload := h
  alloc := ⟨_, rfl⟩
  mlock := rfl
  sys _ _ _ := rfl
  opens := rfl
  magic := rfl
  version := rfl
  size := show 4096 ≤ PAYLOAD_MAX_SIZE by decide
  delivered := rfl
  trace := rfl

/-- Nothing but one payload of nine bytes. -/
def nineBytes : Nat → Bytes
  | 1 => List.replicate 9 1
  | _ => []

theorem nineBytes_starts : Starts (fuzzWorld nineBytes) := by
  refine fuzzWorld_starts fun k => ?_
  unfold nineBytes
  split
  · rw [List.length_replicate]
    decide
  · decide

end IsolationLemmas

/-- The image of a warm-up round alone. -/
theorem mounts_isolated_warmup :
    mounts ((main 1 [[], []]).run (fuzzWorld fun _ => [])).2.trace =
      written (inputs (fuzzWorld fun _ => []) 0) :=
  (mounts_isolated_iff (fuzzWorld_starts fun _ => by decide) rfl 0).mpr (by decide)

/-- The nine bytes are followed by eleven of the warm-up. -/
theorem mounts_leftover :
    mounts ((main 2 [[], []]).run (fuzzWorld nineBytes)).2.trace ≠
      written (inputs (fuzzWorld nineBytes) 1) := by
  intro h
  exact absurd ((main_presents nineBytes_starts rfl 1).isolated_iff.mp h) (by decide)

end KaflTargets.FsFuzzer
