import KaflTargets.Libnyx

/-!
# Fetching a file from the host

`hget_file` asks for 1 MiB at a time and stops at the first answer that is
shorter. The loop is followed by an invariant `Fetched`: after `k` bytes the
host's cursor, the offset of the destination file and its content all stand at
`k`.

Results:
1. `hgetRound_run`: one round fetches the next chunk, or fails and says so.
2. `hgetFile_download`: the whole download.
-/

namespace KaflTargets

open CString

/-! ## Definitions -/

/-- The size of the scratch buffer of `hget_file`. -/
def CHUNK : Nat := 256 * PAGE_SIZE

/-- A bulk request. -/
def Event.isBulk : Event → Bool
  | .vmcall (.reqStreamDataBulk _) _ => true
  | _ => false

/-- The number of bulk requests in a trace. -/
def bulkRequests (t : List Event) : Nat := t.countP Event.isBulk

/-- A bulk request the host refused, or a `write` that was short or failed. -/
def Event.failed : Event → Bool
  | .vmcall (.reqStreamDataBulk _) ret => ret = BULK_ERROR
  | .write _ count ret => ret ≠ count
  | _ => false

/-- After `k` bytes of `content`, the host's cursor and the destination file
stand at `k`. -/
structure Fetched (content name dst : Bytes) (fd scratchBuf k : Nat) (w : World) : Prop where
  cpu : w.nyxCpuType = .nyxCpuV1
  name_eq : cstr w.reqFile.fileName = name
  pages : w.reqFile.addresses.take w.reqFile.numAddresses = Mem.pages PAGE_SIZE scratchBuf 256
  num : w.reqFile.numAddresses = 256
  share : w.host.share name = some content
  cursor : w.host.cursor name = k
  fd_eq : w.fds fd = some ⟨dst, k⟩
  file : ∃ mode, w.files dst = some ⟨content.take k, mode⟩
  le : k ≤ content.length

/-- The length of the next chunk after `k` bytes. -/
def nextChunk (content : Bytes) (k : Nat) : Nat := min CHUNK (content.length - k)

/-! ## 1. One round -/

namespace DownloadLemmas

variable {content name dst : Bytes} {fd scratchBuf k : Nat} {w : World}

/-- The answer to the next request: the next chunk, over the pages of the
buffer in order. -/
theorem react_ok (h : Fetched content name dst fd scratchBuf k w)
    (hserve : w.host.bulkFails w.host.bulkCount = false) :
    w.react (.reqStreamDataBulk w.reqFile) =
      (nextChunk content k,
        { w with
          host := w.host.advance w.reqFile (nextChunk content k)
          mem := w.mem.store scratchBuf ((content.drop k).take CHUNK) }) := by
  have hdata : w.host.bulkData w.reqFile = some ((content.drop k).take CHUNK) := by
    simp [Host.bulkData, hserve, h.name_eq, h.share, h.cursor, h.num, CHUNK]
  have hlen : ((content.drop k).take CHUNK).length = nextChunk content k := by
    simp [nextChunk]
  simp only [World.react, hdata, hlen, h.pages, Mem.scatter_contiguous]
  rw [← CHUNK, List.take_take, Nat.min_self]

theorem react_error (hserve : w.host.bulkFails w.host.bulkCount = true) :
    w.react (.reqStreamDataBulk w.reqFile) =
      (BULK_ERROR, { w with host := w.host.advance w.reqFile 0 }) := by
  simp [World.react, Host.bulkData, hserve]

theorem nextChunk_ne_error : nextChunk content k ≠ BULK_ERROR := by
  have hle : nextChunk content k ≤ CHUNK := Nat.min_le_left _ _
  have hlt : CHUNK < BULK_ERROR := by decide
  omega

/-- What a full `write` of the next chunk leaves. -/
theorem fetched_write (h : Fetched content name dst fd scratchBuf k w)
    (hserve : w.host.bulkFails w.host.bulkCount = false) {w1 w2 : World}
    (hw1 : w1 = (w.vmcall (.reqStreamDataBulk w.reqFile)).2) {e : List Event}
    (hw2 : w2 = { w1.writeAt fd ⟨dst, k⟩ (w1.mem.load scratchBuf (nextChunk content k)) with
      tick := w1.tick + 1, trace := e }) :
    Fetched content name dst fd scratchBuf (k + nextChunk content k) w2 := by
  have hload : w1.mem.load scratchBuf (nextChunk content k) = (content.drop k).take CHUNK := by
    rw [hw1]
    simp only [World.vmcall, react_ok h hserve]
    rw [Mem.load_store (by simp [nextChunk]), List.take_take]
    refine (List.take_eq_take_iff.mpr ?_)
    simp only [nextChunk, List.length_drop]
    omega
  obtain ⟨mode, hfile⟩ := h.file
  have hk : (content.take k).length = k := List.length_take_of_le h.le
  have hcontent : overwrite (content.take k) k ((content.drop k).take CHUNK) =
      content.take (k + nextChunk content k) := by
    have hover := overwrite_length_end (content.take k) ((content.drop k).take CHUNK)
    rw [hk] at hover
    rw [hover, List.take_add, nextChunk]
    congr 1
    refine List.take_eq_take_iff.mpr ?_
    simp only [List.length_drop]
    omega
  have hlen : ((content.drop k).take CHUNK).length = nextChunk content k := by simp [nextChunk]
  have hreq : cstr w.reqFile.fileName = name := h.name_eq
  subst hw2
  rw [hload]
  subst hw1
  simp only [World.vmcall, react_ok h hserve]
  refine ⟨h.cpu, h.name_eq, h.pages, h.num, h.share, ?_, ?_, ⟨mode, ?_⟩, ?_⟩
  · simp [World.writeAt, Host.advance, hreq, h.cursor]
  · simp [World.writeAt, hlen]
  · simp [World.writeAt, hfile, hcontent]
  · have hle := h.le
    simp only [nextChunk]
    omega

end DownloadLemmas

open DownloadLemmas

/-- One round of `hget_file`: the next chunk arrives in the file, and the loop
goes on after a chunk of full size; or the loop ends with `-EIO` and the trace
shows what failed. -/
theorem hgetRound_run {content name dst : Bytes} {fd scratchBuf k : Nat} {w : World} (fuel : Nat)
    (h : Fetched content name dst fd scratchBuf k w) :
    ∃ r w' t, (hgetRound fuel fd scratchBuf CHUNK ()).run w = (.ok r, w') ∧
      w'.trace = w.trace ++ t ∧ bulkRequests t = 1 ∧
      ((r = .inr (- EIO) ∧ ∃ e ∈ t, e.failed = true) ∨
       (r = (if nextChunk content k = CHUNK then .inl () else .inr 0) ∧
        (∀ e ∈ t, e.failed = false) ∧
        Fetched content name dst fd scratchBuf (k + nextChunk content k) w')) := by
  have hcall : (hypercall fuel (.reqStreamDataBulk w.reqFile)).run w =
      (.ok (w.vmcall (.reqStreamDataBulk w.reqFile)).1,
        (w.vmcall (.reqStreamDataBulk w.reqFile)).2) := by
    rw [hypercall_run_v1 h.cpu, kAFLHypercall_run (by simp)]
  cases hserve : w.host.bulkFails w.host.bulkCount with
  | true =>
    have hret : (w.vmcall (.reqStreamDataBulk w.reqFile)).1 = BULK_ERROR := by
      simp [World.vmcall, react_error hserve]
    refine ⟨.inr (- EIO), (w.vmcall (.reqStreamDataBulk w.reqFile)).2,
      [.vmcall (.reqStreamDataBulk w.reqFile) BULK_ERROR], ?_, ?_, rfl, .inl ⟨rfl, ?_⟩⟩
    · simp [hgetRound, Prog.run_bind, hcall, hret]
    · simp [World.vmcall, react_error hserve]
    · exact ⟨_, List.mem_singleton_self _, by simp [Event.failed]⟩
  | false =>
    have hret : (w.vmcall (.reqStreamDataBulk w.reqFile)).1 = nextChunk content k := by
      simp [World.vmcall, react_ok h hserve]
    have htrace : (w.vmcall (.reqStreamDataBulk w.reqFile)).2.trace =
        w.trace ++ [.vmcall (.reqStreamDataBulk w.reqFile) (nextChunk content k)] := by
      simp [World.vmcall, react_ok h hserve]
    have hfd : (w.vmcall (.reqStreamDataBulk w.reqFile)).2.fds fd = some ⟨dst, k⟩ := by
      simp [World.vmcall, react_ok h hserve, h.fd_eq]
    generalize hw1 : (w.vmcall (.reqStreamDataBulk w.reqFile)).2 = w1 at hcall htrace hfd
    have hlt : nextChunk content k < 2 ^ 64 - 1 := by
      have hle : nextChunk content k ≤ CHUNK := Nat.min_le_left _ _
      have hlt : CHUNK < 2 ^ 64 - 1 := by decide
      omega
    rcases writeCall_cases scratchBuf hfd hlt with hfull | ⟨ret, w2, hpart, htr2, hne, hne64⟩
    · refine ⟨if nextChunk content k = CHUNK then .inl () else .inr 0,
        { w1.writeAt fd ⟨dst, k⟩ (w1.mem.load scratchBuf (nextChunk content k)) with
          tick := w1.tick + 1
          trace := w1.trace ++ [.write scratchBuf (nextChunk content k) (nextChunk content k)] },
        [.vmcall (.reqStreamDataBulk w.reqFile) (nextChunk content k),
          .write scratchBuf (nextChunk content k) (nextChunk content k)],
        ?_, ?_, rfl, .inr ⟨rfl, ?_, fetched_write h hserve hw1.symm rfl⟩⟩
      · have hmod : (nextChunk content k : Int) % 2 ^ 64 = nextChunk content k := by omega
        simp only [hgetRound, Prog.run_bind, Prog.run_gets, hcall, hret, nextChunk_ne_error,
          if_false, write_run, hfull, hmod, ne_eq, not_true_eq_false]
        split <;> rfl
      · simp [htrace]
      · simp [Event.failed, nextChunk_ne_error]
    · refine ⟨.inr (- EIO),
        { w2 with trace := w2.trace ++ [.write scratchBuf (nextChunk content k) ret] },
        [.vmcall (.reqStreamDataBulk w.reqFile) (nextChunk content k),
          .write scratchBuf (nextChunk content k) ret], ?_, ?_, rfl, .inl ⟨rfl, ?_⟩⟩
      · simp only [hgetRound, Prog.run_bind, Prog.run_gets, hcall, hret, nextChunk_ne_error,
          if_false, write_run, hpart, ne_eq, Ne.symm hne64, not_false_eq_true, if_true,
          Prog.run_pure]
      · simp [htr2, htrace]
      · exact ⟨_, List.mem_cons_of_mem _ (List.mem_singleton_self _), by simp [Event.failed, hne]⟩

/-! ## 2. The whole download -/

namespace DownloadLemmas

/-- The requests still to be made after `k` bytes. -/
def remaining (content : Bytes) (k : Nat) : Nat := (content.length - k) / CHUNK + 1

theorem remaining_next {content : Bytes} {k : Nat} (hfull : nextChunk content k = CHUNK) :
    remaining content k = remaining content (k + CHUNK) + 1 := by
  have hle : CHUNK ≤ content.length - k := by
    rw [← hfull]
    exact Nat.min_le_right _ _
  have hpos : 0 < CHUNK := by decide
  rw [remaining, remaining, Nat.sub_add_eq, Nat.div_eq_sub_div hpos hle]

theorem remaining_last {content : Bytes} {k : Nat} (hlast : nextChunk content k ≠ CHUNK) :
    remaining content k = 1 := by
  have hlt : content.length - k < CHUNK := by
    refine Nat.lt_of_not_le fun hle => hlast ?_
    exact Nat.min_eq_left hle
  rw [remaining, Nat.div_eq_of_lt hlt]

theorem nextChunk_last {content : Bytes} {k : Nat} (hlast : nextChunk content k ≠ CHUNK)
    (hle : k ≤ content.length) : k + nextChunk content k = content.length := by
  have hmin : nextChunk content k = content.length - k := by
    rcases Nat.le_total CHUNK (content.length - k) with h | h
    · exact absurd (Nat.min_eq_left h) hlast
    · exact Nat.min_eq_right h
  omega

/-- The loop from `k` fetched bytes on, by induction on the bound. -/
theorem loop_run {content name dst : Bytes} {fd scratchBuf : Nat} (inner : Nat) :
    ∀ (fuel : Nat) {k : Nat} {w : World}, Fetched content name dst fd scratchBuf k w →
      remaining content k ≤ fuel →
      ∃ ret w' t, (Prog.iter .timeout (hgetRound inner fd scratchBuf CHUNK) fuel ()).run w =
          (.ok ret, w') ∧ w'.trace = w.trace ++ t ∧ bulkRequests t ≤ remaining content k ∧
        ((ret = - EIO ∧ ∃ e ∈ t, e.failed = true) ∨
         (ret = 0 ∧ (∀ e ∈ t, e.failed = false) ∧ bulkRequests t = remaining content k ∧
          Fetched content name dst fd scratchBuf content.length w'))
  | 0, k, w, _, hfuel => by
    simp [remaining] at hfuel
  | fuel + 1, k, w, h, hfuel => by
    obtain ⟨r, w1, t1, hrun, htr1, hone, hcase⟩ := hgetRound_run inner h
    have hpos : 1 ≤ remaining content k := Nat.le_add_left 1 _
    rcases hcase with ⟨rfl, hbad⟩ | ⟨rfl, hgood, hnext⟩
    · exact ⟨- EIO, w1, t1, Prog.run_iter_done hrun, htr1, by omega, .inl ⟨rfl, hbad⟩⟩
    · by_cases hfull : nextChunk content k = CHUNK
      · rw [if_pos hfull] at hrun
        rw [hfull] at hnext
        have hrem := remaining_next hfull
        obtain ⟨ret, w2, t2, hrun2, htr2, hcount, hcase2⟩ := loop_run inner fuel hnext (by omega)
        have hsum : bulkRequests (t1 ++ t2) = bulkRequests t1 + bulkRequests t2 :=
          List.countP_append
        refine ⟨ret, w2, t1 ++ t2, ?_, ?_, by omega, ?_⟩
        · rw [Prog.run_iter_again hrun, hrun2]
        · rw [htr2, htr1, List.append_assoc]
        · rcases hcase2 with ⟨hret, e, he, hfail⟩ | ⟨hret, hgood2, hcount2, hend⟩
          · exact .inl ⟨hret, e, List.mem_append_right _ he, hfail⟩
          · refine .inr ⟨hret, fun e he => ?_, by omega, hend⟩
            rcases List.mem_append.mp he with he | he
            · exact hgood e he
            · exact hgood2 e he
      · rw [if_neg hfull] at hrun
        rw [nextChunk_last hfull h.le] at hnext
        have hrem := remaining_last hfull
        exact ⟨0, w1, t1, Prog.run_iter_done hrun, htr1, by omega,
          .inr ⟨rfl, hgood, by omega, hnext⟩⟩

/-- The world in which `hget_file` calls `creat`. -/
def prepared (w : World) (page : Nat) (srcPath : Bytes) : World :=
  { w.withPages page 256 with
    reqFile :=
      { fileName := overwrite w.reqFile.fileName 0 (srcPath ++ [0])
        numAddresses := 256
        addresses := Mem.pages PAGE_SIZE (page * PAGE_SIZE) 256 ++ w.reqFile.addresses.drop 256 } }

/-- The world in which the loop of `hget_file` starts. -/
def requested (w : World) (page : Nat) (srcPath : Bytes) (mode : Nat) : World :=
  let dst := w.resolve (basename srcPath)
  { (prepared w page srcPath).called with
      files := Function.update w.files dst (some ⟨[], mode⟩) }.install ⟨dst, 0⟩

theorem fetched_requested {content : Bytes} {w : World} {srcPath : Bytes} (page mode : Nat)
    (hcpu : w.nyxCpuType = .nyxCpuV1) (hnul : 0 ∉ srcPath)
    (hshare : w.host.share srcPath = some content) (hcur : w.host.cursor srcPath = 0) :
    Fetched content srcPath (w.resolve (basename srcPath)) w.nextFd (page * PAGE_SIZE) 0
      (requested w page srcPath mode) where
  cpu := hcpu
  name_eq := by
    have hsplit : overwrite w.reqFile.fileName 0 (srcPath ++ [0]) =
        srcPath ++ 0 :: w.reqFile.fileName.drop (srcPath.length + 1) := by
      simp [overwrite_zero]
    exact (congrArg cstr hsplit).trans (cstr_terminated hnul _)
  pages := by
    have hlen : (Mem.pages PAGE_SIZE (page * PAGE_SIZE) 256).length = 256 := by simp [Mem.pages]
    exact List.take_left' hlen
  num := rfl
  share := hshare
  cursor := hcur
  fd_eq := by simp [requested, World.called, World.install, prepared, World.withPages]
  file := ⟨mode, by simp [requested, World.install]⟩
  le := Nat.zero_le _

variable {w : World} {srcPath dstPath : Bytes} {page : { p : Nat // 0 < p }}

theorem hgetFile_run_prepared (fuel flags : Nat)
    (halloc : w.env.alignedAlloc w.tick = .ok page) (hlock : w.env.mlock (w.tick + 1) = none)
    (hlen : srcPath.length < 256) :
    (hgetFile fuel srcPath flags).run w =
      (hgetCopy fuel (basename srcPath) flags (page.val * PAGE_SIZE) CHUNK).run
        (prepared w page.val srcPath) := by
  simp only [hgetFile, Prog.run_bind,
    mallocResidentPages_run (show 256 < 2 ^ 52 by decide) halloc hlock, Prog.run_modify,
    if_pos hlen]
  rfl

theorem hgetCopy_run_error {e : Errno} (fuel flags scratchBuf : Nat)
    (hcreat : w.env.creatErr w.lookups dstPath = some e) :
    (hgetCopy fuel dstPath flags scratchBuf CHUNK).run w =
      (.ok (e.val : Int), { w.called with errno := e.val }) := by
  simp [hgetCopy, Prog.run_bind, creat, hcreat]

/-- The world after `creat`. -/
theorem creat_run (flags : Nat) (hcreat : w.env.creatErr w.lookups dstPath = none) :
    ∃ mode, (creat dstPath flags).run w =
      (.ok (some w.nextFd),
        { w.called with
            files := Function.update w.files (w.resolve dstPath) (some ⟨[], mode⟩) }.install
          ⟨w.resolve dstPath, 0⟩) := by
  refine ⟨((w.files (w.resolve dstPath)).map File.mode).getD flags, ?_⟩
  simp [creat, hcreat]

end DownloadLemmas

/-- A download of a shared file of any length, for any outcome of `creat`, of
each `write` and of each request. The number of bulk requests is bounded, and
is the number of full chunks plus one when nothing fails. A return value of 0
means that the destination holds exactly the shared file; any refused request
and any short or failed `write` makes the return value nonzero. -/
theorem hgetFile_download {w : World} {srcPath content : Bytes} {page : { p : Nat // 0 < p }}
    {fuel : Nat} (flags : Nat) (hcpu : w.nyxCpuType = .nyxCpuV1)
    (halloc : w.env.alignedAlloc w.tick = .ok page) (hlock : w.env.mlock (w.tick + 1) = none)
    (hlen : srcPath.length < 256) (hnul : 0 ∉ srcPath)
    (hshare : w.host.share srcPath = some content) (hcur : w.host.cursor srcPath = 0)
    (hfuel : content.length / CHUNK + 1 ≤ fuel) :
    ∃ ret w' t, (hgetFile fuel srcPath flags).run w = (.ok ret, w') ∧
      w'.trace = w.trace ++ t ∧
      bulkRequests t ≤ content.length / CHUNK + 1 ∧
      (w.env.creatErr w.lookups (basename srcPath) = none → (∀ e ∈ t, e.failed = false) →
        ret = 0 ∧ bulkRequests t = content.length / CHUNK + 1) ∧
      (ret = 0 →
        (w'.files (w.resolve (basename srcPath))).map File.content = some content) ∧
      ((∃ e ∈ t, e.failed = true) → ret ≠ 0) := by
  rw [hgetFile_run_prepared fuel flags halloc hlock hlen]
  cases hcreat : w.env.creatErr w.lookups (basename srcPath) with
  | some e =>
    have hpos : (e.val : Int) ≠ 0 := by
      have := e.property
      omega
    refine ⟨e.val, { (prepared w page.val srcPath).called with errno := e.val }, [],
      hgetCopy_run_error _ _ _ hcreat, ?_, Nat.zero_le _, by simp, fun h => absurd h hpos, by simp⟩
    simp [prepared, World.withPages, World.called]
  | none =>
    obtain ⟨mode, hrunCreat⟩ := creat_run (w := prepared w page.val srcPath) flags hcreat
    have hstart := fetched_requested page.val mode hcpu hnul hshare hcur
    obtain ⟨ret, w', t, hrun, htrace, hcount, hcase⟩ := loop_run fuel fuel hstart hfuel
    refine ⟨ret, w'.released w.nextFd (page.val * PAGE_SIZE), t, ?_, htrace, hcount, ?_⟩
    · rw [hgetCopy, Prog.run_bind_ok hrunCreat]
      exact Prog.run_bind_ok hrun
    · rcases hcase with ⟨rfl, hbad⟩ | ⟨rfl, hgood, hexact, hend⟩
      · refine ⟨fun _ hnone => ?_, fun h => absurd h (by decide), fun _ => by decide⟩
        obtain ⟨e, he, hfail⟩ := hbad
        exact absurd hfail (by simp [hnone e he])
      · refine ⟨fun _ _ => ⟨rfl, hexact⟩, fun _ => ?_, ?_⟩
        · obtain ⟨mode', hfile⟩ := hend.file
          simp [hfile]
        · rintro ⟨e, he, hfail⟩
          exact absurd hfail (by simp [hgood e he])

/-- The world of `freshNyxWorld` with three bytes in the shared file `foo`. -/
def sharedFooWorld : World :=
  { freshNyxWorld with
    host := { share := fun name => if name = ascii "foo" then some [1, 2, 3] else none } }

/-- Three bytes arrive. -/
theorem hgetFile_download_foo :
    ∃ ret w' t, (hgetFile 1 (ascii "foo") 0o664).run sharedFooWorld = (.ok ret, w') ∧
      w'.trace = sharedFooWorld.trace ++ t ∧
      bulkRequests t ≤ 3 / CHUNK + 1 ∧
      (sharedFooWorld.env.creatErr sharedFooWorld.lookups (basename (ascii "foo")) = none →
        (∀ e ∈ t, e.failed = false) → ret = 0 ∧ bulkRequests t = 3 / CHUNK + 1) ∧
      (ret = 0 → (w'.files (sharedFooWorld.resolve (basename (ascii "foo")))).map File.content =
        some [1, 2, 3]) ∧
      ((∃ e ∈ t, e.failed = true) → ret ≠ 0) :=
  @hgetFile_download sharedFooWorld (ascii "foo") [1, 2, 3] ⟨1, Nat.one_pos⟩ 1 0o664 rfl rfl rfl
    (by decide) (by decide) rfl rfl (by decide)

end KaflTargets
