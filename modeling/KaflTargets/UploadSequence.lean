import KaflTargets.Upload

/-!
# Pushing several files to one dump

With `append = 1` a source is added to what the dump file holds. A push leaves
the local files alone, so a sequence of pushes adds the sources one after the
other, in however many chunks `read` returns each of them. A push that fails
returns an error and adds nothing.

Results:
1. `hpushFile_appends`: one push with `append = 1`.
2. `pushAll_run`: a sequence of pushes, some of which may fail.
3. `pushAll_appends`: a sequence of pushes that all get their source and their
   buffer, and its independence of the chunks.
-/

namespace KaflTargets

open CString Prog

/-! ## Definitions -/

/-- The calls of `hpush_file` with `append = 1`, and what they return. -/
def pushAll (fuel : Nat) (dst : Bytes) : List Bytes → Guest (List Int)
  | [] => pure []
  | srcPath :: srcPaths => do
    let ret ← hpushFile fuel srcPath dst 1
    let rets ← pushAll fuel dst srcPaths
    pure (ret :: rets)

/-- The content of a local file. -/
def World.content (w : World) (path : Bytes) : Option Bytes :=
  (w.files (w.resolve path)).map File.content

/-- The sources whose push returned 0, one after the other. -/
def added (w : World) (srcPaths : List Bytes) (rets : List Int) : Bytes :=
  ((srcPaths.zip rets).filter fun p => p.2 = 0).flatMap fun p => (w.content p.1).getD []

/-- What a dump file holds; nothing if there is none. -/
def World.dumped (w : World) (dst : Bytes) : Bytes := (w.host.dump dst).getD []

/-- The local files are the same, and the world outside answers in the same
way. -/
structure SameSources (w w' : World) : Prop where
  env : w'.env = w.env
  files : w'.files = w.files
  cwd : w'.cwd = w.cwd

/-- Every buffer is allocated and locked, and every one of these files opens. -/
structure Served (w : World) (srcPaths : List Bytes) : Prop where
  alloc : ∀ t, ∃ page, w.env.alignedAlloc t = .ok page
  mlock : ∀ t, w.env.mlock t = none
  opens : ∀ k, ∀ p ∈ srcPaths, w.env.openErr k p = none
  present : ∀ p ∈ srcPaths, (w.content p).isSome

theorem SameSources.refl (w : World) : SameSources w w := ⟨rfl, rfl, rfl⟩

theorem SameSources.content {w w' : World} (h : SameSources w w') : w'.content = w.content := by
  funext path
  simp only [World.content, World.resolve, h.files, h.cwd]

theorem Served.rest {w w' : World} {p : Bytes} {ps : List Bytes} (h : Served w (p :: ps))
    (hsame : SameSources w w') : Served w' ps where
  alloc := by rw [hsame.env]; exact h.alloc
  mlock := by rw [hsame.env]; exact h.mlock
  opens k q hq := by rw [hsame.env]; exact h.opens k q (List.mem_cons_of_mem p hq)
  present q hq := by rw [hsame.content]; exact h.present q (List.mem_cons_of_mem p hq)

namespace SequenceLemmas

variable {w₀ : World}

/-! ### A push leaves the sources alone -/

theorem keeps_call (call : Hypercall) : Keeps (SameSources w₀) (kAFLHypercall call) := by
  refine Keeps.of_step fun w ⟨henv, hfiles, hcwd⟩ => ?_
  cases call
  case userAbort msg =>
    rw [kAFLHypercall_abort_run]
    exact ⟨henv, hfiles, hcwd⟩
  case reqStreamDataBulk req =>
    simp only [kAFLHypercall, World.vmcall, World.react]
    split <;> exact ⟨henv, hfiles, hcwd⟩
  all_goals exact ⟨henv, hfiles, hcwd⟩

theorem keeps_hprintf (text : Bytes) : Keeps (SameSources w₀) (hprintf text) :=
  Keeps.bind (keeps_call _) fun _ => Keeps.pure ()

theorem keeps_habort (msg : String) : Keeps (SameSources w₀) (habort msg) :=
  Keeps.bind (keeps_call _) fun _ => Keeps.pure ()

theorem keeps_openRead (path : Bytes) : Keeps (SameSources w₀) (openRead path) := by
  refine Keeps.of_step fun w ⟨henv, hfiles, hcwd⟩ => ?_
  simp only [openRead]
  split <;> exact ⟨henv, hfiles, hcwd⟩

theorem keeps_mallocResidentPages (numPages : Nat) :
    Keeps (SameSources w₀) (mallocResidentPages numPages) := by
  have hfree (ptr : Nat) : Keeps (SameSources w₀) (free ptr) :=
    Keeps.modify fun _ h => ⟨h.env, h.files, h.cwd⟩
  unfold mallocResidentPages
  refine Keeps.bind ?_ fun ptr => Keeps.ite (Keeps.bind (hfree ptr) fun _ => Keeps.pure 0) ?_
  · refine Keeps.of_step fun w ⟨henv, hfiles, hcwd⟩ => ?_
    simp only [alignedAlloc]
    split <;> exact ⟨henv, hfiles, hcwd⟩
  refine Keeps.bind (Keeps.modify fun _ h => ⟨h.env, h.files, h.cwd⟩) fun _ => ?_
  refine Keeps.bind ?_ fun locked => ?_
  · refine Keeps.of_step fun w ⟨henv, hfiles, hcwd⟩ => ?_
    simp only [mlock]
    split <;> exact ⟨henv, hfiles, hcwd⟩
  refine Keeps.ite (Keeps.bind (hfree ptr) fun _ => Keeps.pure 0) ?_
  exact Keeps.ite (Keeps.pure _) (Keeps.stop _)

theorem keeps_hpushRound (fd buf size : Nat) (srcPath dst : Bytes) (b : UInt8 × Nat) :
    Keeps (SameSources w₀) (hpushRound fd buf size srcPath dst b) := by
  unfold hpushRound
  refine Keeps.bind ?_ fun bytes => Keeps.bind (keeps_hprintf _) fun _ => ?_
  · refine Keeps.of_step fun w ⟨henv, hfiles, hcwd⟩ => ?_
    simp only [read]
    split
    · exact ⟨henv, hfiles, hcwd⟩
    · split <;> exact ⟨henv, hfiles, hcwd⟩
  refine Keeps.ite (Keeps.bind (keeps_habort _) fun _ => Keeps.pure _) ?_
  refine Keeps.ite (Keeps.pure _) ?_
  exact Keeps.bind (keeps_call _) fun _ => Keeps.pure _

theorem keeps_freeResidentPages (buf numPages : Nat) :
    Keeps (SameSources w₀) (freeResidentPages buf numPages) :=
  Keeps.ite (Keeps.pure ()) (Keeps.bind (Keeps.modify fun _ h => ⟨h.env, h.files, h.cwd⟩) fun _ =>
    Keeps.modify fun _ h => ⟨h.env, h.files, h.cwd⟩)

theorem keeps_hpushFile (fuel : Nat) (srcPath dst : Bytes) (append : Nat) :
    Keeps (SameSources w₀) (hpushFile fuel srcPath dst append) := by
  unfold hpushFile
  refine Keeps.bind (keeps_openRead srcPath) fun fd => ?_
  cases fd with
  | none => exact Keeps.bind (Keeps.gets _) fun _ => Keeps.pure _
  | some fd =>
    refine Keeps.bind (keeps_mallocResidentPages _) fun buf => ?_
    have hend (ret : Int) : Keeps (SameSources w₀)
        (freeResidentPages buf (1024 * 1024 / PAGE_SIZE) >>= fun _ =>
          close fd >>= fun _ => pure ret) :=
      Keeps.bind (keeps_freeResidentPages _ _) fun _ =>
        Keeps.bind (Keeps.modify fun _ h => ⟨h.env, h.files, h.cwd⟩) fun _ => Keeps.pure _
    refine Keeps.ite (Keeps.bind (Keeps.gets _) fun _ => hend _) ?_
    refine Keeps.bind (Keeps.iter (keeps_hpushRound _ _ _ _ _) _ _) fun _ => ?_
    exact Keeps.bind (keeps_hprintf _) fun _ => hend _

/-! ### What a push adds -/

/-- Adding two parts is adding the two as one. -/
theorem dumpAfter_append (prev : Option Bytes) (xs ys : Bytes) :
    dumpAfter 1 (dumpAfter 1 prev xs) ys = dumpAfter 1 prev (xs ++ ys) := by
  by_cases hxs : xs = []
  · subst hxs
    rfl
  · have hne : xs ++ ys ≠ [] := by simp [hxs]
    by_cases hys : ys = []
    · subst hys
      simp [dumpAfter]
    · simp [dumpAfter, hxs, hys, keptContent, List.append_assoc]

theorem dumpAfter_nil (prev : Option Bytes) : dumpAfter 1 prev [] = prev := rfl

theorem dumpAfter_getD (prev : Option Bytes) (content : Bytes) :
    (dumpAfter 1 prev content).getD [] = prev.getD [] ++ content := by
  by_cases hnil : content = []
  · subst hnil
    simp [dumpAfter]
  · rw [dumpAfter, if_neg hnil]
    rfl

end SequenceLemmas

open SequenceLemmas

/-! ## 1. One push -/

/-- A push that returns 0 adds its source to the dump file, any other push
nothing. It leaves the sources alone. -/
theorem hpushFile_appends {w : World} {srcPath : Bytes} {fuel : Nat} (dst : Bytes)
    (hreads : ReadsSucceed w.env)
    (hfuel : ∀ content, w.content srcPath = some content → content.length + 1 ≤ fuel) :
    ∃ ret w', (hpushFile fuel srcPath dst 1).run w = (.ok ret, w') ∧ SameSources w w' ∧
      (Obtained srcPath w → (w.content srcPath).isSome → ret = 0) ∧
      w'.host.dump = Function.update w.host.dump dst (dumpAfter 1 (w.host.dump dst)
        (if ret = 0 then (w.content srcPath).getD [] else [])) := by
  have hsame : ∀ {ret w'}, (hpushFile fuel srcPath dst 1).run w = (.ok ret, w') →
      SameSources w w' := by
    intro ret w' hrun
    have hkeeps := (keeps_hpushFile fuel srcPath dst 1).run (SameSources.refl w)
    rwa [hrun] at hkeeps
  have hfailed : ∀ {ret : Int} {w' : World}, ret ≠ 0 → w'.host = w.host →
      w'.host.dump = Function.update w.host.dump dst
        (dumpAfter 1 (w.host.dump dst) (if ret = 0 then (w.content srcPath).getD [] else [])) := by
    intro ret w' hne hhost
    rw [if_neg hne, dumpAfter_nil, hhost, Function.update_eq_self]
  by_cases hget : Obtained srcPath w
  · cases hfile : w.files (w.resolve srcPath) with
    | none =>
      have hrun : (hpushFile fuel srcPath dst 1).run w = (.ok 2, { w.called with errno := 2 }) := by
        simp [hpushFile, Prog.run_bind, openRead, hget.1, hfile]
      refine ⟨2, _, hrun, hsame hrun, fun _ hpresent => ?_, hfailed (by decide) rfl⟩
      simp [World.content, hfile] at hpresent
    | some file =>
      have hcontent : w.content srcPath = some file.content := by simp [World.content, hfile]
      obtain ⟨w', hrun, hdump⟩ := hpushFile_run dst 1 hfile hreads hget (hfuel _ hcontent)
      refine ⟨0, w', hrun, hsame hrun, fun _ _ => rfl, ?_⟩
      rw [hdump, if_pos rfl, hcontent]
      rfl
  · obtain ⟨ret, w', hrun, hne, hhost⟩ := hpushFile_fails fuel dst 1 hget
    exact ⟨ret, w', hrun, hsame hrun, fun h => absurd h hget, hfailed hne hhost⟩

/-! ## 2. A sequence of pushes -/

/-- A sequence of pushes adds the sources of those that return 0, in order. -/
theorem pushAll_run {fuel : Nat} (dst : Bytes) : ∀ (srcPaths : List Bytes) {w : World},
    ReadsSucceed w.env →
    (∀ p ∈ srcPaths, ∀ content, w.content p = some content → content.length + 1 ≤ fuel) →
    ∃ rets w', (pushAll fuel dst srcPaths).run w = (.ok rets, w') ∧
      (Served w srcPaths → rets = List.replicate srcPaths.length 0) ∧
      w'.host.dump = Function.update w.host.dump dst
        (dumpAfter 1 (w.host.dump dst) (added w srcPaths rets))
  | [], w, _, _ => ⟨[], w, rfl, fun _ => rfl, by simp [added, dumpAfter]⟩
  | p :: ps, w, hreads, hfuel => by
    obtain ⟨ret, w₁, hrun, hsame, hserved, hdump⟩ :=
      hpushFile_appends dst hreads (hfuel p List.mem_cons_self)
    have hfuel₁ : ∀ q ∈ ps, ∀ content, w₁.content q = some content → content.length + 1 ≤ fuel := by
      intro q hq content hcontent
      rw [hsame.content] at hcontent
      exact hfuel q (List.mem_cons_of_mem p hq) content hcontent
    obtain ⟨rets, w', hrest, hservedRest, hdumps⟩ :=
      pushAll_run dst ps (hsame.env ▸ hreads) hfuel₁
    have hadded : added w (p :: ps) (ret :: rets) =
        (if ret = 0 then (w.content p).getD [] else []) ++ added w₁ ps rets := by
      simp only [added, List.zip_cons_cons, hsame.content]
      by_cases hret : ret = 0
      · rw [List.filter_cons_of_pos (by simp [hret]), if_pos hret, List.flatMap_cons]
      · rw [List.filter_cons_of_neg (by simp [hret]), if_neg hret, List.nil_append]
    refine ⟨ret :: rets, w', ?_, fun h => ?_, ?_⟩
    · rw [pushAll, Prog.run_bind_ok hrun, Prog.run_bind_ok hrest, Prog.run_pure]
    · have hfirst : ret = 0 := hserved ⟨h.opens _ p List.mem_cons_self, h.alloc _, h.mlock _⟩
        (h.present p List.mem_cons_self)
      rw [hfirst, hservedRest (h.rest hsame)]
      rfl
    · rw [hdumps, hdump, Function.update_self, Function.update_idem, dumpAfter_append, hadded]

/-! ## 3. Whatever the chunks are -/

theorem added_all (w : World) (srcPaths : List Bytes) :
    added w srcPaths (List.replicate srcPaths.length 0) =
      srcPaths.flatMap fun p => (w.content p).getD [] := by
  induction srcPaths with
  | nil => rfl
  | cons p ps ih =>
    rw [List.flatMap_cons, ← ih]
    simp [added, List.replicate_succ]

/-- For every way `read` splits the sources, the dump file ends as what it held
before, followed by the sources of the pushes that returned 0; that are all of
them if every file opens and every buffer is allocated. Nothing but what the
pushes return depends on the chunks. -/
theorem pushAll_appends {w : World} {srcPaths : List Bytes} {fuel : Nat} (dst : Bytes)
    (hfuel : ∀ p ∈ srcPaths, ∀ content, w.content p = some content → content.length + 1 ≤ fuel)
    (reads : Nat → ReadOutcome) (hreads : ∀ t, ∃ limit, reads t = .chunk limit) :
    ∃ rets w', (pushAll fuel dst srcPaths).run { w with env.read := reads } = (.ok rets, w') ∧
      w'.dumped dst = w.dumped dst ++ added w srcPaths rets ∧
      w'.host.dump = Function.update w.host.dump dst
        (dumpAfter 1 (w.host.dump dst) (added w srcPaths rets)) ∧
      (Served w srcPaths → rets = List.replicate srcPaths.length 0 ∧
        added w srcPaths rets = srcPaths.flatMap fun p => (w.content p).getD []) := by
  obtain ⟨rets, w', hrun, hserved, hdump⟩ :=
    pushAll_run (w := { w with env.read := reads }) dst srcPaths hreads hfuel
  refine ⟨rets, w', hrun, ?_, hdump, fun h => ?_⟩
  · rw [World.dumped, hdump, Function.update_self, dumpAfter_getD]
    rfl
  · have hrets := hserved ⟨h.alloc, h.mlock, h.opens, h.present⟩
    exact ⟨hrets, by rw [hrets, added_all]⟩

/-- A file of two bytes, pushed twice byte by byte to a dump file of one byte. -/
theorem pushAll_appends_twice :
    ∃ w', (pushAll 3 (ascii "d") [ascii "/a", ascii "/a"]).run
        { oneFileWorld (ascii "/a") [1, 2] with
          env.read := fun _ => .chunk 1
          host.dump := fun _ => some [7] } = (.ok [0, 0], w') ∧
      w'.dumped (ascii "d") = [7, 1, 2, 1, 2] := by
  obtain ⟨w, hw⟩ : ∃ w : World, w =
    { oneFileWorld (ascii "/a") [1, 2] with host.dump := fun _ => some [7] } := ⟨_, rfl⟩
  have hall : ∀ p ∈ [ascii "/a", ascii "/a"], p = ascii "/a" := by simp
  have hcontent : w.content (ascii "/a") = some [1, 2] := by
    rw [hw]
    rfl
  have hdump : w.dumped (ascii "d") = [7] := by
    rw [hw]
    rfl
  have hfuel : ∀ p ∈ [ascii "/a", ascii "/a"], ∀ content,
      w.content p = some content → content.length + 1 ≤ 3 := by
    intro p hp content h
    rw [hall p hp, hcontent] at h
    obtain rfl := Option.some.inj h
    decide
  have hserve : Served w [ascii "/a", ascii "/a"] := by
    refine ⟨fun _ => ⟨⟨1, Nat.one_pos⟩, ?_⟩, fun _ => ?_, fun _ _ _ => ?_, fun p hp => ?_⟩
    · rw [hw]
      rfl
    · rw [hw]
      rfl
    · rw [hw]
      rfl
    · rw [hall p hp, hcontent]
      rfl
  obtain ⟨rets, w', hrun, hdumped, _, hserved⟩ :=
    pushAll_appends (ascii "d") hfuel (fun _ => .chunk 1) fun _ => ⟨1, rfl⟩
  obtain ⟨hrets, hadded⟩ := hserved hserve
  obtain rfl : rets = [0, 0] := hrets
  have hworld : ({ oneFileWorld (ascii "/a") [1, 2] with
      env.read := fun _ => .chunk 1
      host.dump := fun _ => some [7] } : World) = { w with env.read := fun _ => .chunk 1 } := by
    rw [hw]
  rw [hworld]
  refine ⟨w', hrun, ?_⟩
  rw [hdumped, hadded, hdump, List.flatMap_cons, List.flatMap_cons, hcontent]
  rfl

end KaflTargets
