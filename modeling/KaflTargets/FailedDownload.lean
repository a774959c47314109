import KaflTargets.Download

/-!
# A download that gets nothing

`hget_file` creates its destination before it makes the first request, and it
takes the 0 of a skipped hypercall for an empty file. So a download for which
the host delivers nothing truncates the local file, and outside of a Nyx CPU it
even returns 0.

Results:
1. `hgetFile_long`, `hgetFile_uncreated`: what fails before `creat` has done
   anything leaves every file alone.
2. `hgetFile_empty`: what fails later leaves an empty destination.
3. `hgetFile_untouched_iff`: when a download that gets nothing returns an error
   and leaves the destination as it was.
-/

namespace KaflTargets

open CString

/-! ## Definitions -/

/-- The host refuses the next bulk request, which is for this file. -/
def Host.refuses (h : Host) (name : Bytes) : Prop :=
  h.bulkFails h.bulkCount = true ∨ h.share name = none

/-- The host delivers nothing for `srcPath`. -/
inductive NoData (w : World) (srcPath : Bytes) : Prop
  | tooLong : 256 ≤ srcPath.length → NoData w srcPath
  | refused : w.nyxCpuType = .nyxCpuV1 → w.host.refuses srcPath → NoData w srcPath
  | skipped : w.nyxCpuType = .nyxCpuV2 ∨ w.nyxCpuType = .nyxCpuNone → NoData w srcPath

/-- The `write` at this tick fails. -/
def Env.WriteFails (env : Env) (tick : Nat) : Prop := ∃ e, env.write tick = .error e

/-- Where `hget_file` puts a file. -/
def World.destination (w : World) (srcPath : Bytes) : Bytes := w.resolve (basename srcPath)

/-- The file that `creat` leaves: empty, with the permissions it had. -/
def World.emptied (w : World) (name : Bytes) (flags : Nat) : File :=
  ⟨[], ((w.files name).map File.mode).getD flags⟩

/-- A download that gets nothing notices it after its destination is created:
the host refuses the request, or the `write` of no bytes fails. -/
def NoticedLate (w : World) (tick : Nat) : Prop :=
  w.nyxCpuType = .nyxCpuV1 ∨ w.env.WriteFails tick

/-! ## 1. Before the destination is created -/

section

variable {w : World} {srcPath : Bytes}

/-- A name that does not fit is rejected before any file is opened. -/
theorem hgetFile_long (fuel flags : Nat) (hlen : 256 ≤ srcPath.length) :
    ∃ w', (hgetFile fuel srcPath flags).run w = (.ok (-ENAMETOOLONG), w') ∧
      w'.files = w.files ∧ w'.trace = w.trace := by
  obtain ⟨errno, mem, live, locked, releases, hrun⟩ := mallocResidentPages_total w 256
  simp only [hgetFile, Prog.run_bind_ok hrun, Prog.run_bind, Prog.run_modify,
    if_neg (Nat.not_lt.mpr hlen), Prog.run_pure]
  exact ⟨_, rfl, rfl, rfl⟩

/-- Whatever became of the buffer, a name that fits is copied to the request,
and the destination is opened. -/
theorem hgetFile_asks (fuel flags : Nat) (hlen : srcPath.length < 256) :
    ∃ errno mem live locked releases, (hgetFile fuel srcPath flags).run w =
      (hgetCopy fuel (basename srcPath) flags (w.env.residentPages w.tick) CHUNK).run
        { w with
          tick := w.tick + w.env.residentTicks w.tick
          errno := errno
          mem := mem
          live := live
          locked := locked
          releases := releases
          reqFile :=
            { fileName := overwrite w.reqFile.fileName 0 (srcPath ++ [0])
              numAddresses := 256
              addresses := Mem.pages PAGE_SIZE (w.env.residentPages w.tick) 256 ++
                w.reqFile.addresses.drop 256 } } := by
  obtain ⟨errno, mem, live, locked, releases, hrun⟩ := mallocResidentPages_total w 256
  refine ⟨errno, mem, live, locked, releases, ?_⟩
  simp only [hgetFile, Prog.run_bind_ok hrun, Prog.run_bind, Prog.run_modify, if_pos hlen]
  rfl

/-- A destination that cannot be created is left alone. -/
theorem hgetFile_uncreated {e : Errno} (fuel flags : Nat) (hlen : srcPath.length < 256)
    (hcreat : w.env.creatErr w.lookups (basename srcPath) = some e) :
    ∃ w', (hgetFile fuel srcPath flags).run w = (.ok (e.val : Int), w') ∧
      w'.files = w.files ∧ w'.trace = w.trace := by
  obtain ⟨errno, mem, live, locked, releases, hrun⟩ := hgetFile_asks (w := w) fuel flags hlen
  exact ⟨_, hrun.trans (DownloadLemmas.hgetCopy_run_error _ _ _ hcreat), rfl, rfl⟩

end

/-! ## 2. After the destination is created -/

namespace FailedLemmas

variable {w : World} {srcPath dst : Bytes} {fd mode : Nat}

/-- Writing nothing to a file changes no file. -/
theorem writeAt_nil_files (fd : Nat) {f : File} (hfile : w.files dst = some f) :
    (w.writeAt fd ⟨dst, 0⟩ []).files = w.files := by
  simp only [World.writeAt, hfile, Option.getD_some]
  rw [show overwrite f.content 0 [] = f.content from overwrite_zero _ _]
  funext path
  by_cases hpath : path = dst
  · rw [hpath, Function.update_self, hfile]
  · rw [Function.update_of_ne hpath]

/-- A `write` of no bytes. -/
theorem writeCall_nothing (buf : Nat) (hfd : w.fds fd = some ⟨dst, 0⟩)
    (hfile : w.files dst = some ⟨[], mode⟩) :
    (w.writeCall fd buf 0).2.files = w.files ∧
      (((w.writeCall fd buf 0).1 = -1 ∧ w.env.WriteFails w.tick) ∨
        ((w.writeCall fd buf 0).1 = 0 ∧ ¬w.env.WriteFails w.tick)) := by
  have hnothing : w.mem.load buf 0 = [] := rfl
  have hfiles := writeAt_nil_files fd hfile
  cases hwrite : w.env.write w.tick with
  | error e => exact ⟨by simp [World.writeCall, hfd, hwrite], .inl
      ⟨by simp [World.writeCall, hfd, hwrite], e, hwrite⟩⟩
  | full =>
    have hok : ¬w.env.WriteFails w.tick := by
      rintro ⟨e, he⟩
      simp [hwrite] at he
    simpa [World.writeCall, hfd, hwrite, WriteOutcome.amount, hnothing, hok] using hfiles
  | short limit =>
    have hok : ¬w.env.WriteFails w.tick := by
      rintro ⟨e, he⟩
      simp [hwrite] at he
    simpa [World.writeCall, hfd, hwrite, WriteOutcome.amount, hnothing, hok] using hfiles

/-- The only round of a download that gets nothing. -/
theorem hgetRound_nothing (fuel buf : Nat) (hfd : w.fds fd = some ⟨dst, 0⟩)
    (hfile : w.files dst = some ⟨[], mode⟩)
    (hnone : (w.nyxCpuType = .nyxCpuV1 ∧ w.host.bulkData w.reqFile = none) ∨
      (w.nyxCpuType = .nyxCpuV2 ∨ w.nyxCpuType = .nyxCpuNone)) :
    ∃ ret w', (hgetRound fuel fd buf CHUNK ()).run w = (.ok (.inr ret), w') ∧
      w'.files = w.files ∧
      ((ret = - EIO ∧ NoticedLate w w.tick) ∨ (ret = 0 ∧ ¬NoticedLate w w.tick)) := by
  rcases hnone with ⟨hcpu, hdata⟩ | hcpu
  · have hcall : (hypercall fuel (.reqStreamDataBulk w.reqFile)).run w =
        (.ok BULK_ERROR, (w.vmcall (.reqStreamDataBulk w.reqFile)).2) := by
      rw [hypercall_run_v1 hcpu, kAFLHypercall_run (by simp)]
      simp [World.vmcall, World.react, hdata]
    refine ⟨- EIO, (w.vmcall (.reqStreamDataBulk w.reqFile)).2, ?_, ?_, .inl ⟨rfl, .inl hcpu⟩⟩
    · simp [hgetRound, Prog.run_bind, hcall]
    · simp [World.vmcall, World.react, hdata]
  · obtain ⟨w1, hw1⟩ : ∃ w1, w1 = { w with
        trace := w.trace ++ [Event.skipped (.reqStreamDataBulk w.reqFile)] } := ⟨_, rfl⟩
    have hcall : (hypercall fuel (.reqStreamDataBulk w.reqFile)).run w = (.ok 0, w1) := by
      rw [hypercall_run_skipped hcpu, hw1]
    have hnot1 : w.nyxCpuType ≠ .nyxCpuV1 := by
      rcases hcpu with h | h <;> rw [h] <;> decide
    have hfd1 : w1.fds fd = some ⟨dst, 0⟩ := by rw [hw1]; exact hfd
    have hfile1 : w1.files dst = some ⟨[], mode⟩ := by rw [hw1]; exact hfile
    obtain ⟨hfiles, hret⟩ := writeCall_nothing buf hfd1 hfile1
    have hrun {ret : Int} (h : (w1.writeCall fd buf 0).1 = ret) :
        (hgetRound fuel fd buf CHUNK ()).run w =
          (.ok (.inr (if ((0 : Nat) : Int) ≠ ret % 2 ^ 64 then - EIO else 0)),
            ((write fd buf 0).run w1).2) := by
      have hzero : ¬(0 : Nat) = BULK_ERROR := by decide
      have hchunk : ¬(0 : Nat) = CHUNK := by decide
      simp only [hgetRound, Prog.run_bind, Prog.run_gets, hcall, if_neg hzero, write_run, h,
        if_neg hchunk]
      split <;> rfl
    have hfiles' : ((write fd buf 0).run w1).2.files = w.files := by
      rw [write_run]
      exact hfiles.trans (by rw [hw1])
    rcases hret with ⟨hret, hfails⟩ | ⟨hret, hworks⟩
    · exact ⟨_, _, hrun hret, hfiles', .inl ⟨rfl, .inr (by rw [hw1] at hfails; exact hfails)⟩⟩
    · refine ⟨_, _, hrun hret, hfiles', .inr ⟨rfl, ?_⟩⟩
      rintro (h | h)
      · exact hnot1 h
      · exact hworks (by rw [hw1]; exact h)

/-- A download that gets nothing, from `creat` on. -/
theorem hgetCopy_nothing {dstPath : Bytes} {fuel : Nat} (flags buf : Nat) (hfuel : 0 < fuel)
    (hcreat : w.env.creatErr w.lookups dstPath = none)
    (hnone : (w.nyxCpuType = .nyxCpuV1 ∧ w.host.bulkData w.reqFile = none) ∨
      (w.nyxCpuType = .nyxCpuV2 ∨ w.nyxCpuType = .nyxCpuNone)) :
    ∃ ret w', (hgetCopy fuel dstPath flags buf CHUNK).run w = (.ok ret, w') ∧
      w'.files = Function.update w.files (w.resolve dstPath)
        (some (w.emptied (w.resolve dstPath) flags)) ∧
      ((ret = - EIO ∧ NoticedLate w w.tick) ∨ (ret = 0 ∧ ¬NoticedLate w w.tick)) := by
  obtain ⟨w1, hw1⟩ : ∃ w1, w1 = ({ w.called with
      files := Function.update w.files (w.resolve dstPath)
        (some (w.emptied (w.resolve dstPath) flags)) } : World).install
      ⟨w.resolve dstPath, 0⟩ := ⟨_, rfl⟩
  have hrunCreat : (creat dstPath flags).run w = (.ok (some w.nextFd), w1) := by
    simp [creat, hcreat, hw1, World.emptied]
  obtain ⟨n, rfl⟩ : ∃ n, fuel = n + 1 := Nat.exists_eq_succ_of_ne_zero (by omega)
  have hfd : w1.fds w.nextFd = some ⟨w.resolve dstPath, 0⟩ := by
    simp [hw1, World.install, World.called]
  have hfile : w1.files (w.resolve dstPath) =
      some ⟨[], (w.emptied (w.resolve dstPath) flags).mode⟩ := by
    simp [hw1, World.install, World.emptied]
  obtain ⟨ret, w2, hround, hfiles, hret⟩ := hgetRound_nothing (n + 1) buf hfd hfile
    (by rw [hw1]; exact hnone)
  refine ⟨ret, w2.released w.nextFd buf, ?_, hfiles.trans (by rw [hw1]; rfl),
    by rw [hw1] at hret; exact hret⟩
  rw [hgetCopy, Prog.run_bind_ok hrunCreat]
  exact Prog.run_bind_ok (Prog.run_iter_done hround)

end FailedLemmas

open FailedLemmas

/-- A download that gets nothing leaves an empty destination, if the name fits
and the destination can be created. -/
theorem hgetFile_empty {w : World} {srcPath : Bytes} {fuel : Nat} (flags : Nat) (hfuel : 0 < fuel)
    (hnul : 0 ∉ srcPath) (hlen : srcPath.length < 256)
    (hcreat : w.env.creatErr w.lookups (basename srcPath) = none) (hnone : NoData w srcPath) :
    ∃ ret w', (hgetFile fuel srcPath flags).run w = (.ok ret, w') ∧
      w'.files = Function.update w.files (w.destination srcPath)
        (some (w.emptied (w.destination srcPath) flags)) ∧
      ((ret = - EIO ∧ NoticedLate w (w.tick + w.env.residentTicks w.tick)) ∨
        (ret = 0 ∧ ¬NoticedLate w (w.tick + w.env.residentTicks w.tick))) := by
  obtain ⟨errno, mem, live, locked, releases, hrun⟩ := hgetFile_asks (w := w) fuel flags hlen
  have hname : cstr (overwrite w.reqFile.fileName 0 (srcPath ++ [0])) = srcPath := by
    have hsplit : overwrite w.reqFile.fileName 0 (srcPath ++ [0]) =
        srcPath ++ 0 :: w.reqFile.fileName.drop (srcPath.length + 1) := by
      simp [overwrite_zero]
    exact (congrArg cstr hsplit).trans (cstr_terminated hnul _)
  rw [hrun]
  refine hgetCopy_nothing flags _ hfuel hcreat ?_
  cases hnone with
  | tooLong hlong => omega
  | refused hcpu hrefuses =>
    refine .inl ⟨hcpu, ?_⟩
    rcases hrefuses with hfails | hshare
    · simp [Host.bulkData, hfails]
    · simp [Host.bulkData, hname, hshare]
  | skipped hcpu => exact .inr hcpu

/-! ## 3. When the destination is left alone -/

/-- A download for which the host delivers nothing ends, whatever became of its
buffer, and changes no file but its destination. It returns an error and leaves
the destination as it was exactly if the name does not fit, or the destination
cannot be created, or it existed and was empty and the failure is noticed. -/
theorem hgetFile_untouched_iff {w : World} {srcPath : Bytes} {fuel : Nat} (flags : Nat)
    (hfuel : 0 < fuel) (hnul : 0 ∉ srcPath) (hnone : NoData w srcPath) :
    ∃ ret w', (hgetFile fuel srcPath flags).run w = (.ok ret, w') ∧
      (∀ path, path ≠ w.destination srcPath → w'.files path = w.files path) ∧
      ((ret ≠ 0 ∧ w'.files (w.destination srcPath) = w.files (w.destination srcPath)) ↔
        256 ≤ srcPath.length ∨ (w.env.creatErr w.lookups (basename srcPath)).isSome ∨
          ((w.files (w.destination srcPath)).map File.content = some [] ∧
            NoticedLate w (w.tick + w.env.residentTicks w.tick))) := by
  by_cases hlen : 256 ≤ srcPath.length
  · obtain ⟨w', hrun, hfiles, -⟩ := hgetFile_long (w := w) fuel flags hlen
    refine ⟨_, w', hrun, fun path _ => by rw [hfiles], fun _ => .inl hlen, fun _ => ?_⟩
    exact ⟨by decide, by rw [hfiles]⟩
  have hfits : srcPath.length < 256 := Nat.lt_of_not_le hlen
  cases hcreat : w.env.creatErr w.lookups (basename srcPath) with
  | some e =>
    obtain ⟨w', hrun, hfiles, -⟩ := hgetFile_uncreated fuel flags hfits hcreat
    have hpos : (e.val : Int) ≠ 0 := by
      have := e.property
      omega
    exact ⟨_, w', hrun, fun path _ => by rw [hfiles], fun _ => .inr (.inl rfl),
      fun _ => ⟨hpos, by rw [hfiles]⟩⟩
  | none =>
    obtain ⟨ret, w', hrun, hfiles, hret⟩ := hgetFile_empty flags hfuel hnul hfits hcreat hnone
    refine ⟨ret, w', hrun, fun path hne => by rw [hfiles, Function.update_of_ne hne], ?_⟩
    have hret' : ret ≠ 0 ↔ NoticedLate w (w.tick + w.env.residentTicks w.tick) := by
      rcases hret with ⟨rfl, hlate⟩ | ⟨rfl, hlate⟩
      · exact ⟨fun _ => hlate, fun _ => by decide⟩
      · exact ⟨fun h => absurd rfl h, fun h => absurd h hlate⟩
    have hsame : w'.files (w.destination srcPath) = w.files (w.destination srcPath) ↔
        (w.files (w.destination srcPath)).map File.content = some [] := by
      rw [hfiles, Function.update_self, World.emptied]
      cases w.files (w.destination srcPath) with
      | none => simp
      | some file =>
        cases file
        simp [eq_comm]
    rw [hret', hsame]
    constructor
    · rintro ⟨hlate, hempty⟩
      exact .inr (.inr ⟨hempty, hlate⟩)
    · rintro (h | h | ⟨hempty, hlate⟩)
      · exact absurd h hlen
      · simp at h
      · exact ⟨hlate, hempty⟩

/-- An empty local file and a file the host does not share. -/
theorem hgetFile_untouched_empty :
    ∃ ret w', (hgetFile 1 (ascii "foo") 0o664).run (oneFileWorld (ascii "/foo") []) =
        (.ok ret, w') ∧ ret ≠ 0 ∧ w'.files (ascii "/foo") = some ⟨[], 0o644⟩ := by
  obtain ⟨ret, w', hrun, _, hiff⟩ := @hgetFile_untouched_iff (oneFileWorld (ascii "/foo") [])
    (ascii "foo") 1 0o664 Nat.one_pos (by decide) (.refused rfl (.inr rfl))
  obtain ⟨hne, hfile⟩ := hiff.mpr (.inr (.inr ⟨rfl, .inl rfl⟩))
  exact ⟨ret, w', hrun, hne, hfile⟩

/-- A refused download of `foo` truncates a local file of two bytes, and on a
CPU without Nyx it even returns 0. -/
theorem hgetFile_truncates :
    NoData (oneFileWorld (ascii "/foo") [1, 2]) (ascii "foo") ∧
      ((hgetFile 1 (ascii "foo") 0o664).run (oneFileWorld (ascii "/foo") [1, 2])).2.files
        (ascii "/foo") = some ⟨[], 0o644⟩ ∧
      ((hgetFile 1 (ascii "foo") 0o664).run
        { oneFileWorld (ascii "/foo") [1, 2] with nyxCpuType := .nyxCpuNone }).1 = .ok 0 :=
  ⟨.refused rfl (.inr rfl), by decide +kernel⟩

end KaflTargets
