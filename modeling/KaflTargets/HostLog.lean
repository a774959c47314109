import KaflTargets.Libnyx

/-!
# Streaming to the host log

`hprintf_from_file` hands the host its whole static buffer after each `fread`,
and the host prints it up to the first NUL. What the buffer held behind the
bytes just read is therefore printed again.

Results:
1. `hprintfFromFile_run`: one stream. The host prints the stream and then the
   residue of the buffer behind it.
2. `hprintfStreams_faithful_iff`: the host prints exactly the streams if and
   only if every stream is shorter than the buffer and none is shorter than an
   earlier one.
-/

namespace KaflTargets

open CString

/-! ## Definitions -/

/-- Hand streams one after another to `hprintf_from_file`. -/
def hprintfStreams (fuel : Nat) (streams : List Bytes) : Guest Unit :=
  Prog.each (fun data => do let _ ← hprintfFromFile fuel { data }) streams

/-- The static buffer begins with `m` bytes that are not NUL; the rest was
never written. -/
def Residue (buffer : Bytes) (m : Nat) : Prop :=
  ∃ p : Bytes, p.length = m ∧ 0 ∉ p ∧ m ≤ HPRINTF_MAX_SIZE ∧
    buffer = p ++ List.replicate (HPRINTF_MAX_SIZE - m) 0

/-- The bytes of the residue that the last round for a stream of `len` bytes
prints again. -/
def repeated (m len : Nat) : Nat :=
  (if HPRINTF_MAX_SIZE ≤ len then HPRINTF_MAX_SIZE else m) - len % HPRINTF_MAX_SIZE

/-- The residue after a stream of `len` bytes. -/
def residueAfter (m len : Nat) : Nat :=
  if HPRINTF_MAX_SIZE ≤ len then HPRINTF_MAX_SIZE else max m len

/-- The world after the host printed `buffer`. -/
def World.printed (w : World) (buffer : Bytes) : World :=
  { w with
    hprintfBuffer := buffer
    host.log := w.host.log ++ [Host.text buffer]
    trace := w.trace ++ [.vmcall (.printf buffer) 0] }

/-! ## One round -/

namespace HostLogLemmas

theorem printed_log (w : World) (buffer : Bytes) :
    (w.printed buffer).host.log.flatten = w.host.log.flatten ++ Host.text buffer := by
  simp [World.printed]

variable {w : World} {fuel : Nat} {data : Bytes} {written : Nat}

theorem round_eof (f : FILE) (hf : f.eof = true) :
    (hprintfRound fuel (f, written)).run w = (.ok (.inr (written : Int)), w) := by
  simp [hprintfRound, hf]

/-- A full read replaces the whole buffer. -/
theorem round_full (hcpu : w.nyxCpuType = .nyxCpuV1)
    (hbuf : w.hprintfBuffer.length = HPRINTF_MAX_SIZE) (hlen : HPRINTF_MAX_SIZE ≤ data.length) :
    (hprintfRound fuel ({ data }, written)).run w =
      (.ok (.inl ({ data := data.drop HPRINTF_MAX_SIZE }, written + HPRINTF_MAX_SIZE)),
        w.printed (data.take HPRINTF_MAX_SIZE)) := by
  have hover : overwrite w.hprintfBuffer 0 (data.take HPRINTF_MAX_SIZE) =
      data.take HPRINTF_MAX_SIZE := by
    rw [overwrite_zero, List.length_take_of_le hlen, ← hbuf, List.drop_length, List.append_nil]
  simp [hprintfRound, FILE.fread, hlen, Prog.run_bind, hypercall_run_v1, hcpu, hover,
    kAFLHypercall_run, World.vmcall, World.react, World.printed]

/-- A short read replaces a part of the buffer and hits the end of the file. -/
theorem round_short (hcpu : w.nyxCpuType = .nyxCpuV1) (hlen : data.length < HPRINTF_MAX_SIZE) :
    (hprintfRound fuel ({ data }, written)).run w =
      (.ok (.inl ({ data := [], eof := true }, written + data.length)),
        w.printed (data ++ w.hprintfBuffer.drop data.length)) := by
  have hnot : ¬HPRINTF_MAX_SIZE ≤ data.length := by omega
  simp [hprintfRound, FILE.fread, hnot, Prog.run_bind, hypercall_run_v1, hcpu, overwrite_zero,
    kAFLHypercall_run, World.vmcall, World.react, World.printed]

/-! ## The residue -/

theorem Residue.length {buffer : Bytes} {m : Nat} (h : Residue buffer m) :
    buffer.length = HPRINTF_MAX_SIZE := by
  obtain ⟨p, hp, -, hm, rfl⟩ := h
  simp only [List.length_append, List.length_replicate]
  omega

theorem residue_full (hnul : 0 ∉ data) (hlen : data.length = HPRINTF_MAX_SIZE) :
    Residue data HPRINTF_MAX_SIZE :=
  ⟨data, hlen, hnul, Nat.le_refl _, by simp⟩

theorem text_full (hnul : 0 ∉ data) (hlen : data.length = HPRINTF_MAX_SIZE) :
    Host.text data = data := by
  rw [Host.text, ← hlen, List.take_length, cstr_of_noNul hnul]

theorem residue_short {buffer : Bytes} {m : Nat} (h : Residue buffer m) (hnul : 0 ∉ data)
    (hlen : data.length < HPRINTF_MAX_SIZE) :
    ∃ extra : Bytes, extra.length = m - data.length ∧
      Residue (data ++ buffer.drop data.length) (max m data.length) ∧
      Host.text (data ++ buffer.drop data.length) = data ++ extra := by
  obtain ⟨p, hp, hpn, hm, rfl⟩ := h
  have hnul' : 0 ∉ data ++ p.drop data.length := by
    rw [List.mem_append, not_or]
    exact ⟨hnul, fun h0 => hpn (List.mem_of_mem_drop h0)⟩
  have hsplit : data ++ (p ++ List.replicate (HPRINTF_MAX_SIZE - m) 0).drop data.length =
      (data ++ p.drop data.length) ++
        List.replicate (HPRINTF_MAX_SIZE - max m data.length) 0 := by
    rw [List.drop_append, hp, List.drop_replicate, List.append_assoc]
    congr 3
    omega
  have hlen' : (data ++ p.drop data.length).length = max m data.length := by
    simp only [List.length_append, List.length_drop]
    omega
  refine ⟨p.drop data.length, by simp [hp], ?_, ?_⟩
  · exact ⟨data ++ p.drop data.length, hlen', hnul', by omega, hsplit⟩
  · have htake : ∀ n, (data ++ p.drop data.length ++ List.replicate n 0).take
        HPRINTF_MAX_SIZE = data ++ p.drop data.length ++
          List.replicate (min (HPRINTF_MAX_SIZE - max m data.length) n) 0 := by
      intro n
      rw [List.take_append, List.take_of_length_le (by omega), hlen', List.take_replicate]
    rw [hsplit, Host.text, htake, cstr_append_of_noNul hnul']
    cases hk : min (HPRINTF_MAX_SIZE - max m data.length)
      (HPRINTF_MAX_SIZE - max m data.length) with
    | zero => simp [cstr]
    | succ k => simp [cstr, List.replicate_succ]

/-- The loop on a stream: what it prints, and the residue it leaves. The
induction is on the number of full reads; after the first of them the buffer is
full for good. -/
theorem loop_run : ∀ (k : Nat) {data : Bytes} {w : World} {m : Nat} (written fuel inner : Nat),
    data.length / HPRINTF_MAX_SIZE = k → w.nyxCpuType = .nyxCpuV1 → 0 ∉ data →
    Residue w.hprintfBuffer m → k + 2 ≤ fuel →
    ∃ w' extra, (Prog.iter .timeout (hprintfRound inner) fuel ({ data }, written)).run w =
        (.ok ((written + data.length : Nat) : Int), w') ∧
      w'.nyxCpuType = .nyxCpuV1 ∧ Residue w'.hprintfBuffer (residueAfter m data.length) ∧
      w'.host.log.flatten = w.host.log.flatten ++ (data ++ extra) ∧
      extra.length = repeated m data.length := by
  intro k
  induction k with
  | zero =>
    intro data w m written fuel inner hk hcpu hnul hres hfuel
    have hlt : data.length < HPRINTF_MAX_SIZE :=
      Nat.lt_of_div_eq_zero (by decide) hk
    obtain ⟨fuel, rfl⟩ : ∃ n, fuel = n + 2 := ⟨fuel - 2, by omega⟩
    obtain ⟨extra, hextra, hres', htext⟩ := residue_short hres hnul hlt
    refine ⟨w.printed (data ++ w.hprintfBuffer.drop data.length), extra, ?_, ?_⟩
    · rw [Prog.run_iter_again (round_short hcpu hlt), Prog.run_iter_done (round_eof _ rfl)]
    · have hnot : ¬HPRINTF_MAX_SIZE ≤ data.length := by omega
      refine ⟨hcpu, ?_, ?_, ?_⟩
      · simpa [World.printed, residueAfter, hnot] using hres'
      · simp [World.printed, htext]
      · simp [repeated, hnot, hextra, Nat.mod_eq_of_lt hlt]
  | succ k ih =>
    intro data w m written fuel inner hk hcpu hnul hres hfuel
    have hpos : 0 < HPRINTF_MAX_SIZE := by decide
    have hle : HPRINTF_MAX_SIZE ≤ data.length := by
      refine Nat.le_of_not_lt fun hlt => ?_
      rw [Nat.div_eq_of_lt hlt] at hk
      omega
    obtain ⟨fuel, rfl⟩ : ∃ n, fuel = n + 1 := ⟨fuel - 1, by omega⟩
    have htake : (data.take HPRINTF_MAX_SIZE).length = HPRINTF_MAX_SIZE :=
      List.length_take_of_le hle
    have hnulTake : 0 ∉ data.take HPRINTF_MAX_SIZE := fun h0 => hnul (List.mem_of_mem_take h0)
    have hnulDrop : 0 ∉ data.drop HPRINTF_MAX_SIZE := fun h0 => hnul (List.mem_of_mem_drop h0)
    have hk' : (data.drop HPRINTF_MAX_SIZE).length / HPRINTF_MAX_SIZE = k := by
      have hdiv := Nat.sub_mul_div data.length HPRINTF_MAX_SIZE 1
      rw [Nat.mul_one, hk] at hdiv
      rw [List.length_drop, hdiv, Nat.add_sub_cancel]
    obtain ⟨w', extra, hrun, hcpu', hres', hlog, hextra⟩ :=
      ih (w := w.printed (data.take HPRINTF_MAX_SIZE)) (m := HPRINTF_MAX_SIZE)
        (written + HPRINTF_MAX_SIZE) fuel inner hk' hcpu hnulDrop
        (residue_full hnulTake htake) (by omega)
    refine ⟨w', extra, ?_, hcpu', ?_, ?_, ?_⟩
    · rw [Prog.run_iter_again (round_full hcpu (Residue.length hres) hle), hrun]
      congr 2
      rw [List.length_drop]
      omega
    · have hsame : residueAfter HPRINTF_MAX_SIZE (data.drop HPRINTF_MAX_SIZE).length =
          residueAfter m data.length := by
        simp only [residueAfter, List.length_drop, if_pos hle]
        split
        · rfl
        · next hlt => exact Nat.max_eq_left (Nat.le_of_not_le hlt)
      rwa [hsame] at hres'
    · rw [hlog, printed_log, text_full hnulTake htake, List.append_assoc,
        ← List.append_assoc (data.take HPRINTF_MAX_SIZE), List.take_append_drop]
    · rw [hextra]
      simp only [repeated, List.length_drop, if_pos hle, ite_self, ← Nat.mod_eq_sub_mod hle]

end HostLogLemmas

open HostLogLemmas

/-! ## 1. One stream -/

/-- `hprintf_from_file` on a NUL-free stream returns its length. The host
prints the stream and then `repeated` bytes of what the buffer held before. -/
theorem hprintfFromFile_run {w : World} {data : Bytes} {m fuel : Nat}
    (hcpu : w.nyxCpuType = .nyxCpuV1) (hnul : 0 ∉ data) (hres : Residue w.hprintfBuffer m)
    (hfuel : data.length / HPRINTF_MAX_SIZE + 2 ≤ fuel) :
    ∃ w' extra, (hprintfFromFile fuel { data }).run w = (.ok (data.length : Int), w') ∧
      w'.nyxCpuType = .nyxCpuV1 ∧ Residue w'.hprintfBuffer (residueAfter m data.length) ∧
      w'.host.log.flatten = w.host.log.flatten ++ (data ++ extra) ∧
      extra.length = repeated m data.length := by
  simpa [hprintfFromFile] using
    loop_run _ 0 fuel fuel rfl hcpu hnul hres hfuel

/-! ## 2. Any number of streams -/

/-- The lengths `lens` leave no byte of the buffer to be printed again, when
its first `m` bytes are in use. -/
def NothingRepeated : Nat → List Nat → Prop
  | _, [] => True
  | m, len :: lens => repeated m len = 0 ∧ NothingRepeated (residueAfter m len) lens

namespace HostLogLemmas

theorem repeated_eq_zero_iff {m len : Nat} :
    repeated m len = 0 ↔ len < HPRINTF_MAX_SIZE ∧ m ≤ len := by
  have hmod : len % HPRINTF_MAX_SIZE < HPRINTF_MAX_SIZE := Nat.mod_lt _ (by decide)
  by_cases hle : HPRINTF_MAX_SIZE ≤ len
  · simp only [repeated, if_pos hle]
    omega
  · have hlt : len < HPRINTF_MAX_SIZE := by omega
    simp only [repeated, if_neg hle, Nat.mod_eq_of_lt hlt]
    omega

theorem nothingRepeated_iff (m : Nat) (lens : List Nat) :
    NothingRepeated m lens ↔
      (m :: lens).Pairwise (· ≤ ·) ∧ ∀ len ∈ lens, len < HPRINTF_MAX_SIZE := by
  induction lens generalizing m with
  | nil => simp [NothingRepeated]
  | cons len lens ih =>
    simp only [NothingRepeated, repeated_eq_zero_iff]
    constructor
    · rintro ⟨⟨hlt, hle⟩, hrest⟩
      have hafter : residueAfter m len = len := by
        simp only [residueAfter, if_neg (Nat.not_le.mpr hlt), Nat.max_eq_right hle]
      rw [hafter, ih] at hrest
      refine ⟨List.pairwise_cons.mpr ⟨?_, hrest.1⟩, ?_⟩
      · intro x hx
        rcases List.mem_cons.mp hx with rfl | hx
        · exact hle
        · exact Nat.le_trans hle ((List.pairwise_cons.mp hrest.1).1 x hx)
      · intro x hx
        rcases List.mem_cons.mp hx with rfl | hx
        · exact hlt
        · exact hrest.2 x hx
    · rintro ⟨hpair, hall⟩
      have hlt := hall len List.mem_cons_self
      have hle := (List.pairwise_cons.mp hpair).1 len List.mem_cons_self
      have hafter : residueAfter m len = len := by
        simp only [residueAfter, if_neg (Nat.not_le.mpr hlt), Nat.max_eq_right hle]
      refine ⟨⟨hlt, hle⟩, ?_⟩
      rw [hafter, ih]
      exact ⟨(List.pairwise_cons.mp hpair).2, fun x hx => hall x (List.mem_cons_of_mem _ hx)⟩

/-- What the host prints for a list of streams is never shorter than the
streams, and equals them exactly when nothing is repeated. -/
theorem streams_run {fuel : Nat} : ∀ (streams : List Bytes) {w : World} {m : Nat},
    w.nyxCpuType = .nyxCpuV1 → (∀ s ∈ streams, 0 ∉ s) → Residue w.hprintfBuffer m →
    (∀ s ∈ streams, s.length / HPRINTF_MAX_SIZE + 2 ≤ fuel) →
    ∃ w' out, (hprintfStreams fuel streams).run w = (.ok (), w') ∧
      w'.host.log.flatten = w.host.log.flatten ++ out ∧
      streams.flatten.length ≤ out.length ∧
      (out = streams.flatten ↔ NothingRepeated m (streams.map List.length))
  | [], w, m, _, _, _, _ => ⟨w, [], rfl, by simp, by simp, by simp [NothingRepeated]⟩
  | s :: streams, w, m, hcpu, hnul, hres, hfuel => by
    obtain ⟨w1, extra, hrun, hcpu1, hres1, hlog1, hextra⟩ :=
      hprintfFromFile_run hcpu (hnul s List.mem_cons_self) hres (hfuel s List.mem_cons_self)
    obtain ⟨w2, out, hrun2, hlog2, hlen, hiff⟩ :=
      streams_run streams hcpu1 (fun t ht => hnul t (List.mem_cons_of_mem _ ht)) hres1
        (fun t ht => hfuel t (List.mem_cons_of_mem _ ht))
    refine ⟨w2, s ++ extra ++ out, ?_, ?_, ?_, ?_⟩
    · rw [hprintfStreams, Prog.each, Prog.run_bind_ok (t := w1) (a := ())]
      · exact hrun2
      · rw [Prog.run_bind_ok hrun, Prog.run_pure]
    · rw [hlog2, hlog1]
      simp
    · simp only [List.flatten_cons, List.length_append]
      omega
    · simp only [List.map_cons, NothingRepeated, ← hextra, List.flatten_cons]
      constructor
      · intro heq
        have hlens := congrArg List.length heq
        simp only [List.length_append] at hlens
        have hnil : extra = [] := List.length_eq_zero_iff.mp (by omega)
        subst hnil
        simp only [List.append_nil, List.append_cancel_left_eq] at heq
        exact ⟨rfl, hiff.mp heq⟩
      · rintro ⟨h0, hrest⟩
        rw [List.length_eq_zero_iff.mp h0, List.append_nil, hiff.mpr hrest]

theorem residue_initial : Residue (List.replicate HPRINTF_MAX_SIZE 0) 0 :=
  ⟨[], rfl, by simp, Nat.zero_le _, by simp⟩

end HostLogLemmas

/-- The host log is faithful exactly when no stream reaches the size of the
buffer and no stream is shorter than one before it. The streams are handed over
one after another on a Nyx CPU, from the zeroed buffer and an empty log. -/
theorem hprintfStreams_faithful_iff {w : World} {streams : List Bytes} {fuel : Nat}
    (hcpu : w.nyxCpuType = .nyxCpuV1)
    (hbuf : w.hprintfBuffer = List.replicate HPRINTF_MAX_SIZE 0) (hlog : w.host.log = [])
    (hnul : ∀ s ∈ streams, 0 ∉ s)
    (hfuel : ∀ s ∈ streams, s.length / HPRINTF_MAX_SIZE + 2 ≤ fuel) :
    ∃ w', (hprintfStreams fuel streams).run w = (.ok (), w') ∧
      (w'.host.log.flatten = streams.flatten ↔
        (∀ s ∈ streams, s.length < HPRINTF_MAX_SIZE) ∧
        (streams.map List.length).Pairwise (· ≤ ·)) := by
  have hres : Residue w.hprintfBuffer 0 := hbuf ▸ residue_initial
  obtain ⟨w', out, hrun, hlog', -, hiff⟩ := streams_run streams hcpu hnul hres hfuel
  refine ⟨w', hrun, ?_⟩
  rw [hlog', hlog, List.flatten_nil, List.nil_append, hiff, nothingRepeated_iff]
  simp only [List.pairwise_cons, Nat.zero_le, implies_true, true_and, List.forall_mem_map]
  exact And.comm

/-- Two streams that grow are printed faithfully. -/
theorem hprintfStreams_faithful_growing :
    ∃ w', (hprintfStreams 2 [[97], [98, 99]]).run freshNyxWorld = (.ok (), w') ∧
      (w'.host.log.flatten = [97, 98, 99] ↔
        (∀ s ∈ [[97], [98, 99]], List.length (α := UInt8) s < HPRINTF_MAX_SIZE) ∧
        ([[97], [98, 99]].map (List.length (α := UInt8))).Pairwise (· ≤ ·)) :=
  hprintfStreams_faithful_iff rfl rfl rfl (by decide) (by decide)

/-- After the stream `ab`, the stream `c` is printed as `cb`. -/
theorem hprintfStreams_repeats :
    ((hprintfStreams 2 [[97, 98], [99]]).run freshNyxWorld).2.host.log.flatten =
        [97, 98, 99, 98] ∧
      ((hprintfStreams 2 [[97, 98], [99]]).run freshNyxWorld).2.host.log.flatten ≠
        [[97, 98], [99]].flatten := by
  decide +kernel

end KaflTargets
