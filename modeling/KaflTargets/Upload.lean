import KaflTargets.Libnyx

/-!
# Pushing a file to the host

`hpush_file` sends one `DUMP_FILE` request for every chunk `read` returns. The
first request carries the caller's `append` flag, later ones append. The loop
is followed by an invariant `Pushed`: after `k` bytes the descriptor stands at
`k`, and the dump file holds those `k` bytes behind what it kept of its previous
content.

Results:
1. `hpushRound_run`: one round sends the next chunk, or ends the loop at the end
   of the file.
2. `hpushFile_run`: the dump file after a whole upload.
3. `hpushFile_replaces_iff`: when an upload with `append = 0` replaces the dump
   file by the source.
-/

namespace KaflTargets

open CString

/-! ## Definitions -/

/-- What the first request leaves of the previous content of a dump file. -/
def keptContent (append : UInt8) (prev : Option Bytes) : Bytes :=
  if append = 0 then [] else prev.getD []

/-- The dump file after a source was pushed to it. A source without a byte
sends no request. -/
def dumpAfter (append : UInt8) (prev : Option Bytes) (content : Bytes) : Option Bytes :=
  if content = [] then prev else some (keptContent append prev ++ content)

/-- No `read` fails. -/
def ReadsSucceed (env : Env) : Prop := ∀ t, ∃ limit, env.read t = .chunk limit

/-- After `k` bytes of `content` were pushed to `dst`. -/
structure Pushed (content path dst : Bytes) (fd : Nat) (append0 : UInt8)
    (dump0 : Bytes → Option Bytes) (k : Nat) (append : UInt8) (w : World) : Prop where
  fd_eq : w.fds fd = some ⟨path, k⟩
  file : ∃ mode, w.files path = some ⟨content, mode⟩
  le : k ≤ content.length
  append_eq : append = if k = 0 then append0 else 1
  dump : w.host.dump =
    Function.update dump0 dst (dumpAfter append0 (dump0 dst) (content.take k))
  reads : ReadsSucceed w.env

/-! ## 1. One round -/

namespace UploadLemmas

variable {content path dst : Bytes} {fd k : Nat} {append0 append : UInt8}
  {dump0 : Bytes → Option Bytes} {w : World}

theorem readChunk_prefix (limit count : Nat) (rest : Bytes) : readChunk limit count rest <+: rest :=
  List.take_prefix _ _

/-- A `read` that is not refused returns nothing only at the end of the file. -/
theorem rest_nil_of_readChunk {limit count : Nat} {rest : Bytes} (hcount : 0 < count)
    (h : readChunk limit count rest = []) : rest = [] := by
  rcases List.take_eq_nil_iff.mp h with hmin | hrest
  · omega
  · exact hrest

/-- A `DUMP_FILE` request for the bytes after the first `k` extends what the
dump file got of the source. -/
theorem dump_next {data : Bytes} {dump0 dump : Bytes → Option Bytes}
    (hdump : dump = Function.update dump0 dst (dumpAfter append0 (dump0 dst) (content.take k)))
    (hle : k ≤ content.length) (happend : append = if k = 0 then append0 else 1)
    (hdata : data = (content.drop k).take data.length) (hne : data ≠ []) :
    Function.update dump dst
        (some ((if append = 0 then [] else (dump dst).getD []) ++ data)) =
      Function.update dump0 dst
        (dumpAfter append0 (dump0 dst) (content.take (k + data.length))) := by
  have htake : content.take (k + data.length) = content.take k ++ data := by
    rw [List.take_add, ← hdata]
  have hne' : content.take k ++ data ≠ [] := by simp [hne]
  have hright : dumpAfter append0 (dump0 dst) (content.take k ++ data) =
      some (keptContent append0 (dump0 dst) ++ (content.take k ++ data)) := if_neg hne'
  rw [hdump, Function.update_idem, Function.update_self, htake, happend, hright]
  rcases Nat.eq_zero_or_pos k with rfl | hk
  · simp [dumpAfter, keptContent]
  · have hk' : content.take k ≠ [] := by
      intro hnil
      have hlen := List.length_take_of_le hle
      rw [hnil, List.length_nil] at hlen
      exact absurd hlen (Nat.ne_of_lt hk)
    rw [if_neg (Nat.ne_of_gt hk), if_neg (by decide), dumpAfter, if_neg hk', Option.getD_some,
      List.append_assoc]

end UploadLemmas

open UploadLemmas

/-- One round of `hpush_file`: the next chunk is sent, or the file has ended. -/
theorem hpushRound_run {content path dst : Bytes} {fd k : Nat} (scratchBuf : Nat)
    (srcPath : Bytes) (total : Nat) {append0 append : UInt8} {dump0 : Bytes → Option Bytes}
    {w : World}
    (h : Pushed content path dst fd append0 dump0 k append w) :
    (k = content.length ∧
      ∃ w', (hpushRound fd scratchBuf (1024 * 1024) srcPath dst (append, total)).run w =
          (.ok (.inr total), w') ∧
        Pushed content path dst fd append0 dump0 k append w') ∨
    ∃ n w', 0 < n ∧
      (hpushRound fd scratchBuf (1024 * 1024) srcPath dst (append, total)).run w =
        (.ok (.inl (1, total + n)), w') ∧
      Pushed content path dst fd append0 dump0 (k + n) 1 w' := by
  obtain ⟨limit, hlimit⟩ := h.reads w.tick
  obtain ⟨mode, hfile⟩ := h.file
  generalize hdata : readChunk limit (1024 * 1024) (content.drop k) = data
  obtain ⟨w1, hw1⟩ : ∃ w1, w1 = { w with
      tick := w.tick + 1
      mem := w.mem.store scratchBuf data
      fds := Function.update w.fds fd (some ⟨path, k + data.length⟩) } := ⟨_, rfl⟩
  have hread : (read fd scratchBuf (1024 * 1024)).run w = (.ok (data.length : Int), w1) := by
    simp [read, h.fd_eq, hlimit, hfile, hdata, hw1]
  obtain ⟨w2, hw2⟩ : ∃ w2, w2 = (w1.vmcall (.printf
      ((hpushMessage srcPath dst data.length).take (HPRINTF_MAX_SIZE - 1) ++ [0]))).2 := ⟨_, rfl⟩
  have hline : (hprintf (hpushMessage srcPath dst data.length)).run w1 = (.ok (), w2) := by
    rw [hprintf_run, hw2]
  have hnot : ¬(data.length : Int) = -1 := by omega
  by_cases hnil : data = []
  · subst hnil
    refine .inl ⟨?_, w2, ?_, ?_⟩
    · have hrest := rest_nil_of_readChunk (by decide) hdata
      exact Nat.le_antisymm h.le (List.drop_eq_nil_iff.mp hrest)
    · simp only [hpushRound, Prog.run_bind_ok hread, Prog.run_bind_ok hline]
      rfl
    · subst hw2 hw1
      exact ⟨by simp [World.vmcall, World.react], ⟨mode, hfile⟩, h.le, h.append_eq, h.dump, h.reads⟩
  · have hpos : 0 < data.length := List.length_pos_iff.mpr hnil
    have hzero : ¬(data.length : Int) = 0 := by omega
    have hprefix : data <+: content.drop k := hdata ▸ readChunk_prefix _ _ _
    have hchunk : data = (content.drop k).take data.length := List.prefix_iff_eq_take.mp hprefix
    have hlen : k + data.length ≤ content.length := by
      have hle := hprefix.length_le
      rw [List.length_drop] at hle
      exact Nat.add_le_of_le_sub' h.le hle
    obtain ⟨w3, hw3⟩ : ∃ w3, w3 =
        (w2.vmcall (.dumpFile ⟨dst, scratchBuf, data.length, append⟩)).2 := ⟨_, rfl⟩
    have hcall : (kAFLHypercall (.dumpFile ⟨dst, scratchBuf, data.length, append⟩)).run w2 =
        (.ok 0, w3) := by
      rw [kAFLHypercall_run (by simp), hw3]
      rfl
    have hload : w1.mem.load scratchBuf data.length = data := by
      rw [hw1, Mem.load_store (Nat.le_refl _), List.take_length]
    refine .inr ⟨data.length, w3, hpos, ?_, ?_⟩
    · simp only [hpushRound, Prog.run_bind_ok hread, Prog.run_bind_ok hline, if_neg hnot,
        if_neg hzero, Int.toNat_natCast, Prog.run_bind_ok hcall, Prog.run_pure]
    · have hdump := dump_next h.dump h.le h.append_eq hchunk hnil
      subst hw3 hw2
      refine ⟨?_, ⟨mode, ?_⟩, hlen, ?_, ?_, ?_⟩
      · simp [World.vmcall, World.react, hw1]
      · simp [World.vmcall, World.react, hw1, hfile]
      · rw [if_neg (by omega)]
      · simp only [World.vmcall, World.react, Host.putFile, hload]
        simp only [hw1]
        exact hdump
      · simp only [World.vmcall, World.react, hw1]
        exact h.reads

/-! ## 2. A whole upload -/

/-- The source opens and the scratch buffer is allocated and locked. -/
def Obtained (srcPath : Bytes) (w : World) : Prop :=
  w.env.openErr w.lookups srcPath = none ∧ (∃ page, w.env.alignedAlloc w.tick = .ok page) ∧
    w.env.mlock (w.tick + 1) = none

namespace UploadLemmas

variable {content path dst : Bytes} {fd : Nat} {append0 : UInt8} {dump0 : Bytes → Option Bytes}

/-- The loop from `k` sent bytes on, by induction on the bound. -/
theorem loop_run (scratchBuf : Nat) (srcPath : Bytes) :
    ∀ (fuel total : Nat) {k : Nat} {append : UInt8} {w : World},
      Pushed content path dst fd append0 dump0 k append w → content.length + 1 ≤ fuel + k →
      ∃ sent append' w', (Prog.iter .timeout
          (hpushRound fd scratchBuf (1024 * 1024) srcPath dst) fuel (append, total)).run w =
          (.ok sent, w') ∧
        Pushed content path dst fd append0 dump0 content.length append' w'
  | 0, total, k, append, w, h, hfuel => by
    have hle := h.le
    omega
  | fuel + 1, total, k, append, w, h, hfuel => by
    rcases hpushRound_run scratchBuf srcPath total h with
      ⟨hend, w1, hrun, hpushed⟩ | ⟨n, w1, hpos, hrun, hpushed⟩
    · subst hend
      exact ⟨total, append, w1, Prog.run_iter_done hrun, hpushed⟩
    · obtain ⟨sent, append', w2, hrun2, hpushed2⟩ :=
        loop_run scratchBuf srcPath fuel (total + n) hpushed (by omega)
      exact ⟨sent, append', w2, by rw [Prog.run_iter_again hrun, hrun2], hpushed2⟩

end UploadLemmas

/-- `hpush_file` from its loop on, when the source opened and the buffer was
allocated. -/
theorem hpushFile_obtained {w : World} {srcPath : Bytes} {file : File} {page : { p : Nat // 0 < p }}
    (fuel : Nat) (dst : Bytes) (append : Nat) (hfile : w.files (w.resolve srcPath) = some file)
    (hopen : w.env.openErr w.lookups srcPath = none) (halloc : w.env.alignedAlloc w.tick = .ok page)
    (hlock : w.env.mlock (w.tick + 1) = none) :
    (hpushFile fuel srcPath dst append).run w =
      (do
        let totalSent ← Prog.iter .timeout
          (hpushRound w.nextFd (page.val * PAGE_SIZE) (1024 * 1024) srcPath dst) fuel
          (append.toUInt8, 0)
        hprintf (hpushMessage srcPath dst totalSent)
        freeResidentPages (page.val * PAGE_SIZE) 256
        close w.nextFd
        pure 0 : Guest Int).run
        ((w.called.install ⟨w.resolve srcPath, 0⟩).withPages page.val 256) := by
  have hrunOpen : (openRead srcPath).run w =
      (.ok (some w.nextFd), w.called.install ⟨w.resolve srcPath, 0⟩) := by
    simp [openRead, hopen, hfile]
  have hrunAlloc := mallocResidentPages_run (w := w.called.install ⟨w.resolve srcPath, 0⟩)
    (show 256 < 2 ^ 52 by decide) halloc hlock
  have hne : page.val * PAGE_SIZE ≠ 0 :=
    Nat.mul_ne_zero (Nat.pos_iff_ne_zero.mp page.property) (by decide)
  have hpages : 1024 * 1024 / PAGE_SIZE = 256 := by decide
  simp only [hpushFile, hpages, Prog.run_bind_ok hrunOpen, Prog.run_bind_ok hrunAlloc, if_neg hne]
  rfl

/-- An upload whose source opens and whose buffer is allocated returns 0. It
changes one dump file of the host. -/
theorem hpushFile_run {w : World} {srcPath content : Bytes} {mode fuel : Nat} (dst : Bytes)
    (append : Nat) (hfile : w.files (w.resolve srcPath) = some ⟨content, mode⟩)
    (hreads : ReadsSucceed w.env) (hget : Obtained srcPath w) (hfuel : content.length + 1 ≤ fuel) :
    ∃ w', (hpushFile fuel srcPath dst append).run w = (.ok 0, w') ∧
      w'.host.dump = Function.update w.host.dump dst
        (dumpAfter append.toUInt8 (w.host.dump dst) content) := by
  obtain ⟨hopen, ⟨page, halloc⟩, hlock⟩ := hget
  have hstart : Pushed content (w.resolve srcPath) dst w.nextFd append.toUInt8 w.host.dump 0
      append.toUInt8 ((w.called.install ⟨w.resolve srcPath, 0⟩).withPages page.val 256) := by
    refine ⟨?_, ⟨mode, hfile⟩, Nat.zero_le _, rfl, ?_, hreads⟩
    · simp [World.withPages, World.install, World.called]
    · simp [World.withPages, World.install, World.called, dumpAfter]
  obtain ⟨sent, append', w1, hrunLoop, hend⟩ :=
    loop_run (page.val * PAGE_SIZE) srcPath fuel 0 hstart (by omega)
  have hne : page.val * PAGE_SIZE ≠ 0 :=
    Nat.mul_ne_zero (Nat.pos_iff_ne_zero.mp page.property) (by decide)
  have hdump := hend.dump
  rw [List.take_length] at hdump
  rw [hpushFile_obtained fuel dst append hfile hopen halloc hlock, Prog.run_bind_ok hrunLoop]
  simp only [freeResidentPages, if_neg hne]
  exact ⟨_, rfl, hdump⟩

/-- An upload that does not get as far as its loop returns an error. It leaves
the host alone and emits nothing. -/
theorem hpushFile_unstarted {w : World} {srcPath : Bytes} (fuel : Nat) (dst : Bytes)
    (append : Nat) (hget : ¬((w.files (w.resolve srcPath)).isSome ∧ Obtained srcPath w)) :
    ∃ ret w', (hpushFile fuel srcPath dst append).run w = (.ok ret, w') ∧ ret ≠ 0 ∧
      w'.host = w.host ∧ w'.trace = w.trace ∧ w'.nyxCpuType = w.nyxCpuType := by
  have herrno (e : Errno) : (e.val : Int) ≠ 0 := by
    have hpos := e.property
    omega
  cases hopen : w.env.openErr w.lookups srcPath with
  | some e =>
    refine ⟨e.val, { w.called with errno := e.val }, ?_, herrno e, rfl, rfl, rfl⟩
    simp [hpushFile, Prog.run_bind, openRead, hopen]
  | none =>
    cases hfile : w.files (w.resolve srcPath) with
    | none =>
      refine ⟨2, { w.called with errno := 2 }, ?_, by decide, rfl, rfl, rfl⟩
      simp [hpushFile, Prog.run_bind, openRead, hopen, hfile]
    | some file =>
      obtain ⟨w1, hw1⟩ : ∃ w1, w1 = w.called.install ⟨w.resolve srcPath, 0⟩ := ⟨_, rfl⟩
      have hrunOpen : (openRead srcPath).run w = (.ok (some w.nextFd), w1) := by
        simp [openRead, hopen, hfile, hw1]
      have hnone : ¬w1.env.Resident w1.tick := by
        rw [hw1]
        exact fun h => hget ⟨by simp [hfile], hopen, h⟩
      obtain ⟨e, mem, hrun⟩ := mallocResidentPages_fails 256 hnone
      have hpages : 1024 * 1024 / PAGE_SIZE = 256 := by decide
      subst hw1
      simp only [hpushFile, hpages, Prog.run_bind_ok hrunOpen, Prog.run_bind_ok hrun]
      exact ⟨_, _, rfl, herrno e, rfl, rfl, rfl⟩

/-- An upload whose source or buffer cannot be had returns an error and leaves
the host alone. -/
theorem hpushFile_fails {w : World} {srcPath : Bytes} (fuel : Nat) (dst : Bytes) (append : Nat)
    (hget : ¬Obtained srcPath w) :
    ∃ ret w', (hpushFile fuel srcPath dst append).run w = (.ok ret, w') ∧ ret ≠ 0 ∧
      w'.host = w.host := by
  obtain ⟨ret, w', hrun, hne, hhost, -⟩ :=
    hpushFile_unstarted fuel dst append fun h => hget h.2
  exact ⟨ret, w', hrun, hne, hhost⟩

/-! ## 3. When an upload replaces the dump file -/

/-- An upload with `append = 0` that returns 0 leaves exactly the source in the
dump file, unless the source is empty and the dump file is not an empty file
already. -/
theorem hpushFile_replaces_iff {w : World} {srcPath content : Bytes} {mode fuel : Nat}
    (dst : Bytes) (hfile : w.files (w.resolve srcPath) = some ⟨content, mode⟩)
    (hreads : ReadsSucceed w.env) (hfuel : content.length + 1 ≤ fuel) :
    ∃ ret w', (hpushFile fuel srcPath dst 0).run w = (.ok ret, w') ∧
      ((ret = 0 → w'.host.dump dst = some content) ↔
        content ≠ [] ∨ w.host.dump dst = some [] ∨ ¬Obtained srcPath w) := by
  by_cases hget : Obtained srcPath w
  · obtain ⟨w', hrun, hdump⟩ := hpushFile_run dst 0 hfile hreads hget hfuel
    refine ⟨0, w', hrun, ?_⟩
    rw [hdump, Function.update_self]
    by_cases hnil : content = []
    · simp [hnil, hget, dumpAfter]
    · have hkept : keptContent 0 (w.host.dump dst) = [] := if_pos rfl
      simp [hnil, dumpAfter, hkept]
  · obtain ⟨ret, w', hrun, hne, _⟩ := hpushFile_fails fuel dst 0 hget
    exact ⟨ret, w', hrun, ⟨fun _ => .inr (.inr hget), fun _ h => absurd h hne⟩⟩

/-- A file of two bytes replaces the dump file. -/
theorem hpushFile_replaces_two :
    ∃ ret w', (hpushFile 3 (ascii "/a") (ascii "a") 0).run (oneFileWorld (ascii "/a") [1, 2]) =
        (.ok ret, w') ∧
      ((ret = 0 → w'.host.dump (ascii "a") = some [1, 2]) ↔
        ([1, 2] : Bytes) ≠ [] ∨ (oneFileWorld (ascii "/a") [1, 2]).host.dump (ascii "a") = some [] ∨
          ¬Obtained (ascii "/a") (oneFileWorld (ascii "/a") [1, 2])) :=
  @hpushFile_replaces_iff (oneFileWorld (ascii "/a") [1, 2]) (ascii "/a") [1, 2] 0o644 3 (ascii "a")
    rfl (fun _ => ⟨_, rfl⟩) (by decide)

/-- An empty file is pushed, the return value is 0, and there is no dump
file. -/
theorem hpushFile_empty_leaves_no_dump :
    ((hpushFile 1 (ascii "/a") (ascii "a") 0).run (oneFileWorld (ascii "/a") [])).1 = .ok 0 ∧
      ((hpushFile 1 (ascii "/a") (ascii "a") 0).run
        (oneFileWorld (ascii "/a") [])).2.host.dump (ascii "a") = none := by
  decide +kernel

end KaflTargets
