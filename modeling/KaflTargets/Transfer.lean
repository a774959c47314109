import KaflTargets.FailedDownload
import KaflTargets.Lib.Total
import KaflTargets.UploadSequence
import KaflTargets.Vmcall

/-!
# Transfers

What stays of a transfer are the local files, the dump files and the streams of the host. `Store`
holds these three, and `Job` says what there is to do with them: fetch files, push a file, or
nothing. `Job.Effect` relates how a transfer ends to what it made of the store: the whole job, a
part of it that its status gives away, or a part at a `USER_ABORT`.

Results:
1. `hgetFiles_meets`: fetching files.
2. `hpushFile_meets`: pushing a file.
-/

namespace KaflTargets

open CString Prog

/-! ## The store -/

/-- What transfers are about: the content of the local files, the dump files of the host, and what
the host has still to stream of each shared file. -/
structure Store where
  files : Bytes → Option Bytes
  dumps : Bytes → Option Bytes
  streams : Bytes → Option Bytes

namespace Store

/-- The file `dst` holds the first `kept` bytes of the `sent` ones the host streamed. -/
def streamed (s : Store) (name dst : Bytes) (kept sent : Nat) : Store :=
  { s with
    files := Function.update s.files dst (some (((s.streams name).getD []).take kept))
    streams := Function.update s.streams name ((s.streams name).map (·.drop sent)) }

/-- The whole stream of a shared file goes to a local file. -/
def get (s : Store) (f : Bytes × Bytes) : Store :=
  { s with
    files := Function.update s.files f.2 (s.streams f.1)
    streams := Function.update s.streams f.1 ((s.streams f.1).map fun _ => []) }

/-- The content goes to a dump file. -/
def push (s : Store) (dst : Bytes) (append : Bool) (content : Bytes) : Store :=
  { s with
    dumps :=
      Function.update s.dumps dst (dumpAfter append.toNat.toUInt8 (s.dumps dst) content) }

/-- A bound on what a transfer moves. -/
structure Bounded (bound : Nat) (s : Store) : Prop where
  file : ∀ path content, s.files path = some content → content.length ≤ bound
  stream : ∀ name data, s.streams name = some data → data.length ≤ bound

end Store

/-- What an invocation is to do: fetch shared files to local paths, push a local file to a dump
file, or leave the store alone. -/
inductive Job
  | get (files : List (Bytes × Bytes))
  | push (src dst : Bytes) (append : Bool)
  | other

/-- What a process that ends like this makes of its job. -/
inductive Job.Effect : Job → Except Stop Int → Store → Store → Prop
  | got (files : List (Bytes × Bytes)) {s : Store}
      (hstreams : ∀ f ∈ files, (s.streams f.1).isSome) :
      Effect (.get files) (.ok 0) s (files.foldl Store.get s)
  | partly (done : List (Bytes × Bytes)) {rest : List (Bytes × Bytes)} {name dst : Bytes}
      {kept sent : Nat} {ret : Int} {s : Store}
      (hstreams : ∀ f ∈ done, (s.streams f.1).isSome) (hle : kept ≤ sent) (hret : ret ≠ 0) :
      Effect (.get (done ++ (name, dst) :: rest)) (.ok ret) s
        ((done.foldl Store.get s).streamed name dst kept sent)
  | refused (done : List (Bytes × Bytes)) {rest : List (Bytes × Bytes)} {f : Bytes × Bytes}
      {ret : Int} {s : Store} (hstreams : ∀ f ∈ done, (s.streams f.1).isSome) (hret : ret ≠ 0) :
      Effect (.get (done ++ f :: rest)) (.ok ret) s (done.foldl Store.get s)
  | sent {src dst content : Bytes} {append : Bool} {s : Store}
      (hsrc : s.files src = some content) :
      Effect (.push src dst append) (.ok 0) s (s.push dst append content)
  | unsent {src dst : Bytes} {append : Bool} {ret : Int} {s : Store} (hret : ret ≠ 0) :
      Effect (.push src dst append) (.ok ret) s s
  | cut {src dst content : Bytes} {append : Bool} {k : Nat} {s : Store}
      (hsrc : s.files src = some content) :
      Effect (.push src dst append) (.error .aborted) s (s.push dst append (content.take k))
  | other {r : Except Stop Int} {s : Store} : Effect .other r s s

/-- One process after the other. -/
inductive Job.Effects : List (Job × Except Stop Int) → Store → Store → Prop
  | nil {s : Store} : Effects [] s s
  | cons {job : Job} {r : Except Stop Int} {rest : List (Job × Except Stop Int)} {s t u : Store}
      (h : job.Effect r s t) (hrest : Effects rest t u) : Effects ((job, r) :: rest) s u

/-! ## The store of a world -/

def World.store (w : World) : Store where
  files path := (w.files path).map File.content
  dumps := w.host.dump
  streams name := (w.host.share name).map fun content => content.drop (w.host.cursor name)

/-- A path in a directory. -/
def resolveIn (cwd path : Bytes) : Bytes :=
  if path.head? = some 47 then path else cwd ++ ascii "/" ++ path

/-- The shared file that a name asks for, and the local one it goes to. -/
def fetchedTo (cwd name : Bytes) : Bytes × Bytes := (cstr name, resolveIn cwd (basename name))

/-! ## Jobs -/

namespace Store

theorem get_streams (s : Store) (f : Bytes × Bytes) (name : Bytes) :
    ((s.get f).streams name).isSome = (s.streams name).isSome := by
  show (Function.update s.streams f.1 ((s.streams f.1).map fun _ => []) name).isSome = _
  rcases eq_or_ne name f.1 with rfl | hne
  · rw [Function.update_self, Option.isSome_map]
  · rw [Function.update_of_ne hne]

theorem streamed_whole {s : Store} {name data : Bytes} (h : s.streams name = some data)
    (dst : Bytes) : s.streamed name dst data.length data.length = s.get (name, dst) := by
  simp only [streamed, get, h, Option.getD_some, List.take_length, Option.map_some,
    List.drop_length]

theorem streamed_nothing (s : Store) (name dst : Bytes) :
    s.streamed name dst 0 0 = { s with files := Function.update s.files dst (some []) } := by
  simp only [streamed, List.take_zero, List.drop_zero, Option.map_id', Function.update_eq_self]

end Store

/-- A job that begins with a file that was fetched. -/
theorem Job.Effect.get_cons {f : Bytes × Bytes} {files : List (Bytes × Bytes)}
    {r : Except Stop Int} {s t : Store} (hf : (s.streams f.1).isSome)
    (h : Job.Effect (.get files) r (s.get f) t) : Job.Effect (.get (f :: files)) r s t := by
  have hall {done : List (Bytes × Bytes)} (hdone : ∀ g ∈ done, ((s.get f).streams g.1).isSome) :
      ∀ g ∈ f :: done, (s.streams g.1).isSome := by
    intro g hg
    rcases List.mem_cons.mp hg with rfl | hg
    · exact hf
    · rw [← s.get_streams f g.1]
      exact hdone g hg
  cases h with
  | got files hstreams => exact .got (f :: files) (hall hstreams)
  | partly done hstreams hle hret => exact .partly (f :: done) (hall hstreams) hle hret
  | refused done hstreams hret => exact .refused (f :: done) (hall hstreams) hret

/-! ## Programs over a store -/

/-- A process on a Nyx CPU, in this environment and this directory, over this store. The host ends
the machine at a `USER_ABORT`. -/
structure At (env : Env) (cwd : Bytes) (s : Store) (w : World) : Prop where
  env_eq : w.env = env
  cwd_eq : w.cwd = cwd
  store_eq : w.store = s
  cpu : w.nyxCpuType = .nyxCpuV1
  abort : w.host.abortReturns = false

/-- The machine ended at a `USER_ABORT`. -/
def AbortedAt (s : Store) (e : Stop) (w : World) : Prop := e = .aborted ∧ w.store = s

/-- The program leaves the store alone. -/
def Calm {α : Type} (x : Guest α) : Prop :=
  ∀ env cwd s, Meets (At env cwd s) x (fun _ => At env cwd s) (AbortedAt s)

namespace Calm

variable {α β : Type} {x y : Guest α}

theorem pure (a : α) : Calm (pure a : Guest α) := fun _ _ _ => Meets.pure fun _ h => h

theorem gets (f : World → α) : Calm (Prog.gets f : Guest α) := fun _ _ _ => Meets.gets fun _ h => h

theorem modify {f : World → World} (h : ∀ {env cwd s w}, At env cwd s w → At env cwd s (f w)) :
    Calm (Prog.modify f : Guest Unit) := fun _ _ _ => Meets.modify fun _ hw => h hw

theorem bind {k : α → Guest β} (hx : Calm x) (hk : ∀ a, Calm (k a)) : Calm (x >>= k) :=
  fun env cwd s => Meets.bind (hx env cwd s) fun a => hk a env cwd s

theorem ite {c : Prop} [Decidable c] (hx : Calm x) (hy : Calm y) : Calm (if c then x else y) :=
  fun env cwd s => Meets.ite (fun _ => hx env cwd s) fun _ => hy env cwd s

end Calm

namespace TransferLemmas

variable {env : Env} {cwd : Bytes} {s : Store} {w : World}

theorem calm_call {call : Hypercall} (hdump : ∀ req, call ≠ .dumpFile req)
    (hbulk : ∀ req, call ≠ .reqStreamDataBulk req) : Calm (kAFLHypercall call) := by
  rintro env cwd s w ⟨henv, hcwd, hstore, hcpu, habort⟩
  cases call
  case dumpFile req => exact absurd rfl (hdump req)
  case reqStreamDataBulk req => exact absurd rfl (hbulk req)
  case userAbort msg =>
    rw [kAFLHypercall_abort_run, habort]
    exact ⟨rfl, hstore⟩
  all_goals exact ⟨henv, hcwd, hstore, hcpu, habort⟩

theorem calm_hypercall (fuel : Nat) {call : Hypercall} (hdump : ∀ req, call ≠ .dumpFile req)
    (hbulk : ∀ req, call ≠ .reqStreamDataBulk req) : Calm (hypercall fuel call) := by
  intro env cwd s w hw
  rw [hypercall_run_v1 hw.cpu]
  exact calm_call hdump hbulk env cwd s w hw

theorem calm_hprintf (text : Bytes) : Calm (hprintf text) :=
  Calm.bind (calm_call (by simp) (by simp)) fun _ => Calm.pure ()

theorem calm_habortMsg (fuel : Nat) (msg : Bytes) : Calm (habortMsg fuel msg) :=
  Calm.bind (calm_hypercall fuel (by simp) (by simp)) fun _ => Calm.pure ()

theorem calm_freeResidentPages (buf numPages : Nat) : Calm (freeResidentPages buf numPages) := by
  refine Calm.ite (Calm.pure ()) (Calm.bind ?_ fun _ => ?_)
  all_goals exact Calm.modify fun h => ⟨h.env_eq, h.cwd_eq, h.store_eq, h.cpu, h.abort⟩

theorem calm_close (fd : Nat) : Calm (close fd) :=
  Calm.modify fun h => ⟨h.env_eq, h.cwd_eq, h.store_eq, h.cpu, h.abort⟩

/-! ## 1. Fetching -/

theorem cstr_append_nul (a b : Bytes) : cstr (a ++ 0 :: b) = cstr a := by
  induction a with
  | nil => rfl
  | cons x xs ih =>
    show (x :: (xs ++ 0 :: b)).takeWhile _ = (x :: xs).takeWhile _
    rw [List.takeWhile_cons, List.takeWhile_cons]
    split
    · exact congrArg (x :: ·) ih
    · rfl

/-- Streaming moves the stream of the file and nothing else. -/
theorem store_advance (w : World) (req : ReqDataBulk) (n : Nat) :
    ({ w with host := w.host.advance req n } : World).store =
      { w.store with
        streams := Function.update w.store.streams (cstr req.fileName)
          ((w.store.streams (cstr req.fileName)).map (·.drop n)) } := by
  refine congrArg (Store.mk _ _) (funext fun name => ?_)
  rcases eq_or_ne name (cstr req.fileName) with rfl | hne
  · simp only [World.store, Host.advance, Function.update_self, Option.map_map]
    refine congrArg (Option.map · _) (funext fun content => ?_)
    exact List.drop_drop.symm
  · simp only [World.store, Host.advance, Function.update_of_ne hne]

/-- The loop of `hget_file` after `k` bytes. -/
structure Streaming (env : Env) (cwd : Bytes) (s : Store) (name dst : Bytes) (fd buf k : Nat)
    (w : World) : Prop where
  at_store : At env cwd (s.streamed name dst k k) w
  name_eq : cstr w.reqFile.fileName = name
  pages : w.reqFile.addresses.take w.reqFile.numAddresses = Mem.pages PAGE_SIZE buf 256
  num : w.reqFile.numAddresses = 256
  fd_eq : w.fds fd = some ⟨dst, k⟩
  le : k ≤ ((s.streams name).getD []).length

/-- How `hget_file` ends. -/
def FetchEnd (env : Env) (cwd : Bytes) (s : Store) (name dst : Bytes) (ret : Int) (w : World) :
    Prop :=
  (ret = 0 ∧ (s.streams name).isSome ∧ At env cwd (s.get (name, dst)) w) ∨
    ret ≠ 0 ∧ (At env cwd s w ∨
      ∃ kept sent, kept ≤ sent ∧ At env cwd (s.streamed name dst kept sent) w)

variable {name dst : Bytes} {fd buf k : Nat}

/-- The host answers a request with the next bytes of the stream, or with an error. -/
theorem bulk_run (h : Streaming env cwd s name dst fd buf k w) :
    ((w.vmcall (.reqStreamDataBulk w.reqFile)).1 = BULK_ERROR ∧
      At env cwd (s.streamed name dst k k) (w.vmcall (.reqStreamDataBulk w.reqFile)).2) ∨
    ∃ data host, s.streams name = some data ∧
      w.vmcall (.reqStreamDataBulk w.reqFile) = (nextChunk data k,
        { w with
          host := host
          mem := w.mem.store buf ((data.drop k).take CHUNK)
          trace := w.trace ++ [.vmcall (.reqStreamDataBulk w.reqFile) (nextChunk data k)] }) ∧
      host.abortReturns = false ∧
      ({ w with host := host } : World).store = s.streamed name dst k (k + nextChunk data k) := by
  have hstream : w.store.streams name = (s.streams name).map (·.drop k) := by
    rw [h.at_store.store_eq]
    exact Function.update_self ..
  have hdata : w.host.bulkData w.reqFile =
      if w.host.bulkFails w.host.bulkCount then none
      else (s.streams name).map fun data => (data.drop k).take CHUNK := by
    have hshare : (w.host.share name).map (fun content => (content.drop (w.host.cursor name)).take
        CHUNK) = (w.store.streams name).map (·.take CHUNK) := by
      simp only [World.store, Option.map_map]
      rfl
    simp only [Host.bulkData, h.name_eq, h.num, ← CHUNK.eq_def, hshare, hstream, Option.map_map]
    rfl
  have hrefused (hnone : w.host.bulkData w.reqFile = none) :
      (w.vmcall (.reqStreamDataBulk w.reqFile)).1 = BULK_ERROR ∧
        At env cwd (s.streamed name dst k k) (w.vmcall (.reqStreamDataBulk w.reqFile)).2 := by
    have hcall : w.vmcall (.reqStreamDataBulk w.reqFile) = (BULK_ERROR,
        { w with
          host := w.host.advance w.reqFile 0
          trace := w.trace ++ [.vmcall (.reqStreamDataBulk w.reqFile) BULK_ERROR] }) := by
      simp only [World.vmcall, World.react, hnone]
    rw [hcall]
    refine ⟨rfl, h.at_store.env_eq, h.at_store.cwd_eq, ?_, h.at_store.cpu, h.at_store.abort⟩
    refine (store_advance w w.reqFile 0).trans ?_
    simp only [List.drop_zero, Option.map_id', Function.update_eq_self]
    exact h.at_store.store_eq
  rw [hdata] at hrefused
  split at hrefused
  · exact .inl (hrefused rfl)
  · next hserve =>
    rw [if_neg hserve] at hdata
    cases hdata' : s.streams name with
    | none => exact .inl (hrefused (by rw [hdata']; rfl))
    | some data =>
      refine .inr ⟨data, w.host.advance w.reqFile (nextChunk data k), rfl, ?_, h.at_store.abort, ?_⟩
      · have hlen : ((data.drop k).take CHUNK).length = nextChunk data k := by
          rw [List.length_take, List.length_drop]
          rfl
        rw [hdata'] at hdata
        simp only [World.vmcall, World.react, hdata, Option.map_some, hlen, h.pages,
          Mem.scatter_contiguous]
        rw [← CHUNK, List.take_take, Nat.min_self]
      · rw [store_advance, h.name_eq, h.at_store.store_eq]
        simp only [Store.streamed, Function.update_self, Function.update_idem, Option.map_map,
          Function.comp_def, List.drop_drop]

/-- The `write` added the first `n` of `count` bytes to a file that held `c`. Only if it added all
of them does it return their number. -/
def Appended (w : World) (fd buf count : Nat) (path c : Bytes) (r : Int × World) : Prop :=
  ∃ n errno tick files, n ≤ count ∧ (r.1 % 2 ^ 64 = count → n = count) ∧
    r.2 = { w with
      errno := errno
      tick := tick
      files := files
      fds := Function.update w.fds fd (some ⟨path, c.length + n⟩) } ∧
    ({ w with files := files } : World).store =
      { w.store with files := Function.update w.store.files path (some (c ++ w.mem.load buf n)) }

variable {path c : Bytes} {count : Nat}

theorem appended_nothing (buf errno tick : Nat) (hfd : w.fds fd = some ⟨path, c.length⟩)
    (hfile : w.store.files path = some c) (hcount : count < 2 ^ 64 - 1) :
    Appended w fd buf count path c (-1, { w with errno := errno, tick := tick }) := by
  refine ⟨0, errno, tick, w.files, Nat.zero_le _, fun hret => ?_, ?_, ?_⟩
  · have hmax : (-1 : Int) % 2 ^ 64 = 2 ^ 64 - 1 := by decide
    rw [hmax] at hret
    omega
  · rw [Nat.add_zero, ← hfd, Function.update_eq_self]
  · rw [show c ++ w.mem.load buf 0 = c from List.append_nil c, ← hfile, Function.update_eq_self]

theorem appended_bytes (buf : Nat) {n : Nat} (hle : n ≤ count)
    (hfile : w.store.files path = some c) (hcount : count < 2 ^ 64 - 1) :
    Appended w fd buf count path c
      ((n : Int),
        { w.writeAt fd ⟨path, c.length⟩ (w.mem.load buf n) with tick := w.tick + 1 }) := by
  obtain ⟨file, hpath, hcontent⟩ := Option.map_eq_some_iff.mp hfile
  subst hcontent
  refine ⟨n, w.errno, w.tick + 1,
    (w.writeAt fd ⟨path, file.content.length⟩ (w.mem.load buf n)).files, hle, fun hret => ?_, ?_,
    ?_⟩
  · have hmod : (n : Int) % 2 ^ 64 = n := by omega
    exact Int.ofNat.inj (hmod.symm.trans hret)
  · simp only [World.writeAt, Mem.load_length]
  · refine congrArg (Store.mk · _ _) (funext fun p => ?_)
    simp only [World.writeAt, hpath, Option.getD_some, overwrite_length_end]
    rcases eq_or_ne p path with rfl | hne
    · simp only [Function.update_self, Option.map_some]
    · simp only [World.store, Function.update_of_ne hne]

/-- A `write` at the end of a file. -/
theorem writeCall_appends (buf : Nat) (hfd : w.fds fd = some ⟨path, c.length⟩)
    (hfile : w.store.files path = some c) (hcount : count < 2 ^ 64 - 1) :
    Appended w fd buf count path c (w.writeCall fd buf count) := by
  by_cases hlarge : SSIZE_MAX < count
  · rw [writeCall_large buf hfd hlarge]
    exact appended_nothing buf 22 w.tick hfd hfile hcount
  cases hout : w.env.write w.tick with
  | full =>
    simp only [World.writeCall, hfd, if_neg hlarge, hout]
    exact appended_bytes buf (Nat.le_refl count) hfile hcount
  | short limit =>
    simp only [World.writeCall, hfd, if_neg hlarge, hout]
    exact appended_bytes buf (Nat.min_le_right limit count) hfile hcount
  | error e =>
    simp only [World.writeCall, hfd, if_neg hlarge, hout]
    exact appended_nothing buf e.val (w.tick + 1) hfd hfile hcount

/-- What `write` leaves of a chunk: the bytes the file has got, of those that were streamed. -/
theorem chunk_kept {data : Bytes} {n : Nat} (hle : n ≤ nextChunk data k) (m : Mem) (buf : Nat) :
    data.take k ++ (m.store buf ((data.drop k).take CHUNK)).load buf n = data.take (k + n) := by
  have hlen : ((data.drop k).take CHUNK).length = nextChunk data k := by
    rw [List.length_take, List.length_drop]
    rfl
  have hchunk : n ≤ CHUNK := Nat.le_trans hle (Nat.min_le_left _ _)
  rw [Mem.load_store (hlen ▸ hle), List.take_take, Nat.min_eq_left hchunk, List.take_add]

/-- A chunk was streamed behind the first `k` bytes, and `n` of its bytes are in the file. -/
structure Received (env : Env) (cwd : Bytes) (s : Store) (name dst : Bytes) (fd buf k : Nat)
    (data : Bytes) (n : Nat) (w : World) : Prop where
  at_store : At env cwd (s.streamed name dst (k + n) (k + nextChunk data k)) w
  name_eq : cstr w.reqFile.fileName = name
  pages : w.reqFile.addresses.take w.reqFile.numAddresses = Mem.pages PAGE_SIZE buf 256
  num : w.reqFile.numAddresses = 256
  fd_eq : w.fds fd = some ⟨dst, k + n⟩
  stream : s.streams name = some data
  le : k ≤ data.length

/-- The request is refused, or its chunk is in the buffer. -/
theorem bulk_meets {R : Stop → World → Prop} (fuel : Nat) (req : ReqDataBulk) :
    Meets (fun w => Streaming env cwd s name dst fd buf k w ∧ w.reqFile = req)
      (hypercall fuel (.reqStreamDataBulk req))
      (fun read w => read = BULK_ERROR ∧ At env cwd (s.streamed name dst k k) w ∨
        ∃ data, read = nextChunk data k ∧ Received env cwd s name dst fd buf k data 0 w ∧
          ∀ n ≤ nextChunk data k, data.take k ++ w.mem.load buf n = data.take (k + n)) R := by
  refine Meets.of_run fun w ⟨h, hreq⟩ => ?_
  subst hreq
  have hcall : (hypercall fuel (.reqStreamDataBulk w.reqFile)).run w =
      (.ok (w.vmcall (.reqStreamDataBulk w.reqFile)).1,
        (w.vmcall (.reqStreamDataBulk w.reqFile)).2) := by
    rw [hypercall_run_v1 h.at_store.cpu, kAFLHypercall_run (by simp)]
  refine ⟨_, _, hcall, ?_⟩
  rcases bulk_run h with hrefused | ⟨data, host, hdata, hvm, habort, hstore⟩
  · exact .inl hrefused
  · have hle := h.le
    rw [hdata, Option.getD_some] at hle
    rw [hvm]
    refine .inr ⟨data, rfl, ⟨?_, h.name_eq, h.pages, h.num, h.fd_eq, hdata, hle⟩, ?_⟩
    · exact ⟨h.at_store.env_eq, h.at_store.cwd_eq, hstore, h.at_store.cpu, habort⟩
    · exact fun n hn => chunk_kept hn w.mem buf

/-- The `write` of a chunk. -/
theorem chunk_meets {R : Stop → World → Prop} {data : Bytes} :
    Meets (fun w => Received env cwd s name dst fd buf k data 0 w ∧
        ∀ n ≤ nextChunk data k, data.take k ++ w.mem.load buf n = data.take (k + n))
      (write fd buf (nextChunk data k))
      (fun ret w => ∃ n ≤ nextChunk data k,
        (ret % 2 ^ 64 = nextChunk data k → n = nextChunk data k) ∧
          Received env cwd s name dst fd buf k data n w) R := by
  refine Meets.of_run fun w ⟨h, hbuffer⟩ => ?_
  have hlen : (data.take k).length = k := List.length_take_of_le h.le
  have hfd : w.fds fd = some ⟨dst, (data.take k).length⟩ := by
    rw [hlen]
    exact h.fd_eq
  have hfile : w.store.files dst = some (data.take k) := by
    rw [h.at_store.store_eq]
    refine (Function.update_self ..).trans ?_
    rw [h.stream, Option.getD_some, Nat.add_zero]
  have hcount : nextChunk data k < 2 ^ 64 - 1 :=
    Nat.lt_of_le_of_lt (Nat.min_le_left _ _) (by decide)
  obtain ⟨n, errno, tick, files, hn, hall, hwrite, hstore⟩ :=
    writeCall_appends buf hfd hfile hcount
  refine ⟨_, _, write_run w fd buf _, n, hn, hall, ?_⟩
  rw [hwrite]
  refine ⟨⟨h.at_store.env_eq, h.at_store.cwd_eq, ?_, h.at_store.cpu, h.at_store.abort⟩,
    h.name_eq, h.pages, h.num, ?_, h.stream, h.le⟩
  · refine hstore.trans ?_
    rw [hbuffer n hn, h.at_store.store_eq]
    simp only [Store.streamed, Function.update_idem, h.stream, Option.getD_some]
  · rw [hlen]
    exact Function.update_self ..

/-- A whole chunk in the file: the loop goes on behind it. -/
theorem Received.streaming {data : Bytes}
    (h : Received env cwd s name dst fd buf k data (nextChunk data k) w) :
    Streaming env cwd s name dst fd buf (k + nextChunk data k) w := by
  refine ⟨h.at_store, h.name_eq, h.pages, h.num, h.fd_eq, ?_⟩
  have hchunk : nextChunk data k ≤ data.length - k := Nat.min_le_right _ _
  rw [h.stream, Option.getD_some]
  exact Nat.add_le_of_le_sub' h.le hchunk

/-- A chunk that is not full is the last one. -/
theorem Received.fetched {data : Bytes} (hfull : nextChunk data k ≠ CHUNK)
    (h : Received env cwd s name dst fd buf k data (nextChunk data k) w) :
    At env cwd (s.get (name, dst)) w := by
  have hat := h.at_store
  rwa [DownloadLemmas.nextChunk_last hfull h.le, Store.streamed_whole h.stream] at hat

/-- A round of `hget_file`: it goes on behind a chunk of full size, or ends the download. -/
theorem hgetRound_meets {R : Stop → World → Prop} (fuel : Nat) :
    Meets (Streaming env cwd s name dst fd buf k) (hgetRound fuel fd buf CHUNK ())
      (fun r v => Sum.elim (fun _ => ∃ k', k < k' ∧ Streaming env cwd s name dst fd buf k' v)
        (fun ret => FetchEnd env cwd s name dst ret v) r) R := by
  refine Meets.bind (Meets.gets fun w h => ⟨h, rfl⟩) fun req =>
    Meets.bind (bulk_meets fuel req) fun read => ?_
  rintro w (⟨hrefused, hat⟩ | ⟨data, rfl, hreceived⟩)
  · rw [if_pos hrefused]
    exact .inr ⟨by decide, .inr ⟨k, k, Nat.le_refl k, hat⟩⟩
  rw [if_neg DownloadLemmas.nextChunk_ne_error]
  refine Meets.bind chunk_meets (fun ret => ?_) w hreceived
  refine Meets.ite (fun _ => Meets.pure ?_) fun hret =>
    Meets.ite (fun hfull => Meets.pure ?_) fun hfull => Meets.pure ?_
  · rintro v ⟨n, hn, -, h⟩
    exact .inr ⟨by decide, .inr ⟨k + n, _, Nat.add_le_add_left hn k, h.at_store⟩⟩
  · rintro v ⟨n, -, hall, h⟩
    obtain rfl := hall (not_not.mp hret).symm
    refine ⟨k + nextChunk data k, ?_, h.streaming⟩
    rw [hfull]
    exact Nat.lt_add_of_pos_right (Nat.succ_pos _)
  · rintro v ⟨n, -, hall, h⟩
    obtain rfl := hall (not_not.mp hret).symm
    exact .inl ⟨rfl, by rw [h.stream]; rfl, h.fetched hfull⟩

/-- The request of `hget_file` is made, and its destination is not open yet. -/
structure Requested (env : Env) (cwd : Bytes) (s : Store) (name : Bytes) (buf : Nat) (w : World) :
    Prop where
  at_store : At env cwd s w
  name_eq : cstr w.reqFile.fileName = name
  pages : w.reqFile.addresses.take w.reqFile.numAddresses = Mem.pages PAGE_SIZE buf 256
  num : w.reqFile.numAddresses = 256

/-- What `creat` returns. -/
def Opened (env : Env) (cwd : Bytes) (s : Store) (name dst : Bytes) (buf : Nat) :
    Option Nat → World → Prop
  | none, w => At env cwd s w ∧ w.errno ≠ 0
  | some fd, w => Streaming env cwd s name dst fd buf 0 w

theorem creat_meets {R : Stop → World → Prop} (dstPath : Bytes) (flags : Nat) :
    Meets (Requested env cwd s name buf) (creat dstPath flags)
      (Opened env cwd s name (resolveIn cwd dstPath) buf) R := by
  refine Meets.of_run fun w h => ?_
  cases hcreat : w.env.creatErr w.lookups dstPath with
  | some e =>
    refine ⟨none, { w.called with errno := e.val }, by simp [creat, hcreat], ?_,
      Nat.ne_of_gt e.property⟩
    exact ⟨h.at_store.env_eq, h.at_store.cwd_eq, h.at_store.store_eq, h.at_store.cpu,
      h.at_store.abort⟩
  | none =>
    obtain ⟨mode, hrun⟩ := DownloadLemmas.creat_run flags hcreat
    have hpath : w.resolve dstPath = resolveIn cwd dstPath := by
      rw [← h.at_store.cwd_eq]
      rfl
    rw [hpath] at hrun
    refine ⟨some w.nextFd, _, hrun, ⟨h.at_store.env_eq, h.at_store.cwd_eq, ?_, h.at_store.cpu,
      h.at_store.abort⟩, h.name_eq, h.pages, h.num, Function.update_self .., Nat.zero_le _⟩
    rw [Store.streamed_nothing, ← h.at_store.store_eq]
    refine congrArg (Store.mk · _ _) (funext fun p => ?_)
    rcases eq_or_ne p (resolveIn cwd dstPath) with rfl | hne
    · simp only [World.install, Function.update_self, Option.map_some]
    · simp only [World.install, World.store, Function.update_of_ne hne]

/-- `close` and `free` do not matter for a download. -/
theorem FetchEnd.released {dst : Bytes} {ret : Int} (h : FetchEnd env cwd s name dst ret w)
    (fd buf : Nat) : FetchEnd env cwd s name dst ret (w.released fd buf) := by
  have hat {t : Store} (h : At env cwd t w) : At env cwd t (w.released fd buf) :=
    ⟨h.env_eq, h.cwd_eq, h.store_eq, h.cpu, h.abort⟩
  rcases h with ⟨hret, hstream, h⟩ | ⟨hret, h | ⟨kept, sent, hle, h⟩⟩
  · exact .inl ⟨hret, hstream, hat h⟩
  · exact .inr ⟨hret, .inl (hat h)⟩
  · exact .inr ⟨hret, .inr ⟨kept, sent, hle, hat h⟩⟩

theorem hgetCopy_meets {R : Stop → World → Prop} {bound : Nat} (fuel flags : Nat)
    (dstPath : Bytes) (hbound : s.Bounded bound) (hfuel : bound < fuel) :
    Meets (Requested env cwd s name buf) (hgetCopy fuel dstPath flags buf CHUNK)
      (FetchEnd env cwd s name (resolveIn cwd dstPath)) R := by
  refine Meets.bind (creat_meets dstPath flags) fun fd => ?_
  cases fd with
  | none =>
    refine Meets.of_run fun w h => ⟨w.errno, w, rfl, .inr ⟨?_, .inl h.1⟩⟩
    exact Nat.cast_ne_zero.mpr h.2
  | some fd =>
    have hloop : Meets (Streaming env cwd s name (resolveIn cwd dstPath) fd buf 0)
        (Prog.iter .timeout (hgetRound fuel fd buf CHUNK) fuel ())
        (FetchEnd env cwd s name (resolveIn cwd dstPath)) R := by
      have hlen : ((s.streams name).getD []).length < fuel := by
        refine Nat.lt_of_le_of_lt ?_ hfuel
        cases hstream : s.streams name with
        | none => exact Nat.zero_le _
        | some data => exact hbound.stream name data hstream
      refine (Meets.iter (I := fun n _ v => ∃ k, n = ((s.streams name).getD []).length - k ∧
        Streaming env cwd s name (resolveIn cwd dstPath) fd buf k v) (fun n u => ?_) fuel ()
          hlen).weaken (fun w h => ⟨0, rfl, h⟩) (fun _ _ h => h) fun _ _ h => h
      refine Meets.exists fun k => ?_
      rintro v ⟨rfl, h⟩
      refine (hgetRound_meets fuel).weaken (fun _ h => h) (fun r v hr => ?_) (fun _ _ h => h) v h
      cases r with
      | inr ret => exact hr
      | inl u =>
        obtain ⟨k', hlt, hnext⟩ := hr
        have hle := hnext.le
        exact ⟨_, by omega, k', rfl, hnext⟩
    refine Meets.bind hloop fun ret => Meets.of_run fun w h => ?_
    exact ⟨ret, w.released fd buf, rfl, h.released fd buf⟩

theorem hgetFile_meets {R : Stop → World → Prop} {bound : Nat} (fuel flags : Nat)
    (srcPath : Bytes) (hbound : s.Bounded bound) (hfuel : bound < fuel) :
    Meets (At env cwd s) (hgetFile fuel srcPath flags)
      (FetchEnd env cwd s (cstr srcPath) (resolveIn cwd (basename srcPath))) R := by
  intro w h
  by_cases hlen : srcPath.length < 256
  · obtain ⟨errno, mem, live, locked, releases, hrun⟩ :=
      hgetFile_asks (w := w) fuel flags hlen
    rw [hrun]
    refine hgetCopy_meets fuel flags (basename srcPath) hbound hfuel _ ⟨⟨h.env_eq, h.cwd_eq,
      h.store_eq, h.cpu, h.abort⟩, ?_, ?_, rfl⟩
    · show cstr (overwrite w.reqFile.fileName 0 (srcPath ++ [0])) = cstr srcPath
      rw [overwrite_zero, List.append_assoc]
      exact cstr_append_nul srcPath _
    · have hpages : (Mem.pages PAGE_SIZE (w.env.residentPages w.tick) 256).length = 256 := by
        simp [Mem.pages]
      exact List.take_left' hpages
  · obtain ⟨errno, mem, live, locked, releases, hrun⟩ := mallocResidentPages_total w 256
    simp only [hgetFile, Prog.run_bind_ok hrun, Prog.run_bind, Prog.run_modify, if_neg hlen,
      Prog.run_pure]
    exact .inr ⟨by decide, .inl ⟨h.env_eq, h.cwd_eq, h.store_eq, h.cpu, h.abort⟩⟩

theorem get_bounded {bound : Nat} (f : Bytes × Bytes) (h : s.Bounded bound) :
    (s.get f).Bounded bound := by
  refine ⟨fun path content hcontent => ?_, fun name data hdata => ?_⟩
  · change Function.update s.files f.2 (s.streams f.1) path = some content at hcontent
    rcases eq_or_ne path f.2 with rfl | hne
    · rw [Function.update_self] at hcontent
      exact h.stream f.1 content hcontent
    · rw [Function.update_of_ne hne] at hcontent
      exact h.file path content hcontent
  · change Function.update s.streams f.1 ((s.streams f.1).map fun _ => []) name = some data at hdata
    rcases eq_or_ne name f.1 with rfl | hne
    · rw [Function.update_self] at hdata
      obtain ⟨_, -, rfl⟩ := Option.map_eq_some_iff.mp hdata
      exact Nat.zero_le bound
    · rw [Function.update_of_ne hne] at hdata
      exact h.stream name data hdata

/-- The files of `cmd_hget`, one after the other. -/
theorem hgetFiles_meets {R : Stop → World → Prop} {bound : Nat} (fuel fmode : Nat)
    (hfuel : bound < fuel) : ∀ (names : List Bytes) {s : Store}, s.Bounded bound →
    Meets (At env cwd s) (hgetFiles fuel fmode names)
      (fun ret w => ∃ t, Job.Effect (.get (names.map (fetchedTo cwd))) (.ok ret) s t ∧
        At env cwd t w) R
  | [], s, _ => Meets.pure fun w h => ⟨s, .got [] (by simp), h⟩
  | a :: as, s, hbound => by
    refine Meets.bind (hgetFile_meets fuel fmode a hbound hfuel) fun ret =>
      Meets.ite (fun hret => Meets.pure fun w h => ?_) fun hret => ?_
    · rcases h with ⟨h, -⟩ | ⟨-, h | ⟨kept, sent, hle, h⟩⟩
      · exact absurd h hret
      · exact ⟨s, .refused [] (by simp) hret, h⟩
      · exact ⟨_, .partly [] (by simp) hle hret, h⟩
    · intro w h
      rcases h with ⟨-, hstream, h⟩ | ⟨h, -⟩
      · refine (hgetFiles_meets fuel fmode hfuel as (get_bounded _ hbound)).weaken (fun _ h => h)
          ?_ (fun _ _ h => h) w h
        rintro ret v ⟨t, heffect, hat⟩
        exact ⟨t, heffect.get_cons hstream, hat⟩
      · exact absurd h hret

/-! ## 2. Pushing -/

/-- The loop of `hpush_file` after `k` bytes. -/
structure Pushing (env : Env) (cwd : Bytes) (s : Store) (content path dst : Bytes) (fd : Nat)
    (append : Bool) (k : Nat) (acc : UInt8) (w : World) : Prop where
  at_store : At env cwd (s.push dst append (content.take k)) w
  fd_eq : w.fds fd = some ⟨path, k⟩
  le : k ≤ content.length
  acc_eq : acc = if k = 0 then append.toNat.toUInt8 else 1

/-- A `USER_ABORT` in the middle of a push. -/
def CutOff (s : Store) (content dst : Bytes) (append : Bool) (e : Stop) (w : World) : Prop :=
  e = .aborted ∧ ∃ k, w.store = s.push dst append (content.take k)

variable {content : Bytes} {append : Bool} {acc : UInt8}

/-- A chunk was read behind the first `k` bytes, and the host does not have it yet. -/
structure Sending (env : Env) (cwd : Bytes) (s : Store) (content path dst : Bytes) (fd buf : Nat)
    (append : Bool) (k : Nat) (acc : UInt8) (data : Bytes) (w : World) : Prop where
  at_store : At env cwd (s.push dst append (content.take k)) w
  fd_eq : w.fds fd = some ⟨path, k + data.length⟩
  buffer : w.mem.load buf data.length = data
  chunk : data <+: content.drop k
  last : data = [] → content.drop k = []
  le : k ≤ content.length
  acc_eq : acc = if k = 0 then append.toNat.toUInt8 else 1

/-- What `read` returns: -1, or the length of the chunk that is in the buffer. -/
def Chunk (env : Env) (cwd : Bytes) (s : Store) (content path dst : Bytes) (fd buf : Nat)
    (append : Bool) (k : Nat) (acc : UInt8) (bytes : Int) (w : World) : Prop :=
  bytes = -1 ∧ At env cwd (s.push dst append (content.take k)) w ∨
    ∃ data : Bytes, bytes = data.length ∧
      Sending env cwd s content path dst fd buf append k acc data w

theorem read_meets {R : Stop → World → Prop} (hfile : s.files path = some content) :
    Meets (Pushing env cwd s content path dst fd append k acc) (read fd buf (1024 * 1024))
      (Chunk env cwd s content path dst fd buf append k acc) R := by
  refine Meets.of_run fun w h => ?_
  have hat := h.at_store
  have hfiles : (w.files path).map File.content = some content := by
    rw [← hfile]
    exact congrFun (congrArg Store.files hat.store_eq) path
  cases hread : w.env.read w.tick with
  | error e =>
    refine ⟨-1, { w with tick := w.tick + 1, errno := e.val }, ?_, .inl ⟨rfl, ?_⟩⟩
    · simp [read, h.fd_eq, hread]
    · exact ⟨hat.env_eq, hat.cwd_eq, hat.store_eq, hat.cpu, hat.abort⟩
  | chunk limit =>
    obtain ⟨data, hdata⟩ : ∃ data, data = readChunk limit (1024 * 1024) (content.drop k) :=
      ⟨_, rfl⟩
    refine ⟨data.length, { w with
      tick := w.tick + 1
      mem := w.mem.store buf data
      fds := Function.update w.fds fd (some ⟨path, k + data.length⟩) }, ?_, .inr ⟨data, rfl, ?_⟩⟩
    · simp [read, h.fd_eq, hread, hfiles, hdata]
    refine ⟨⟨hat.env_eq, hat.cwd_eq, hat.store_eq, hat.cpu, hat.abort⟩, Function.update_self ..,
      ?_, ?_, fun hnil => ?_, h.le, h.acc_eq⟩
    · exact (Mem.load_store (Nat.le_refl _)).trans (List.take_length ..)
    · rw [hdata]
      exact UploadLemmas.readChunk_prefix _ _ _
    · exact UploadLemmas.rest_nil_of_readChunk (by decide) (hdata.symm.trans hnil)

/-- The progress line. -/
theorem chunk_hprintf {R : Stop → World → Prop} (text : Bytes) (bytes : Int) :
    Meets (Chunk env cwd s content path dst fd buf append k acc bytes) (hprintf text)
      (fun _ => Chunk env cwd s content path dst fd buf append k acc bytes) R := by
  refine Meets.of_run fun w h => ⟨(), _, hprintf_run text w, ?_⟩
  have hsame {t : Store} (hat : At env cwd t w) : At env cwd t
      (w.vmcall (.printf (text.take (HPRINTF_MAX_SIZE - 1) ++ [0]))).2 :=
    ⟨hat.env_eq, hat.cwd_eq, hat.store_eq, hat.cpu, hat.abort⟩
  rcases h with ⟨hbytes, hat⟩ | ⟨data, hbytes, h⟩
  · exact .inl ⟨hbytes, hsame hat⟩
  · exact .inr ⟨data, hbytes, hsame h.at_store, h.fd_eq, h.buffer, h.chunk, h.last, h.le,
      h.acc_eq⟩

/-- The request with a chunk. -/
theorem dump_run {data : Bytes} (hne : data ≠ [])
    (h : Sending env cwd s content path dst fd buf append k acc data w) :
    ∃ v, (kAFLHypercall (.dumpFile ⟨dst, buf, data.length, acc⟩)).run w = (.ok 0, v) ∧
      Pushing env cwd s content path dst fd append (k + data.length) 1 v := by
  have hat := h.at_store
  have hcall : (kAFLHypercall (.dumpFile ⟨dst, buf, data.length, acc⟩)).run w =
      (.ok 0, (w.vmcall (.dumpFile ⟨dst, buf, data.length, acc⟩)).2) := by
    rw [kAFLHypercall_run (by simp)]
    rfl
  have hdump := UploadLemmas.dump_next (congrArg Store.dumps hat.store_eq) h.le h.acc_eq
    (List.prefix_iff_eq_take.mp h.chunk) hne
  have hlen := h.chunk.length_le
  rw [List.length_drop] at hlen
  refine ⟨_, hcall, ⟨hat.env_eq, hat.cwd_eq, ?_, hat.cpu, hat.abort⟩, h.fd_eq,
    Nat.add_le_of_le_sub' h.le hlen, ?_⟩
  · refine congr (congr (congrArg Store.mk (congrArg Store.files hat.store_eq)) ?_)
      (congrArg Store.streams hat.store_eq)
    refine Eq.trans ?_ hdump
    simp only [World.vmcall, World.react, Host.putFile, h.buffer]
    rfl
  · have hpos := List.length_pos_iff.mpr hne
    exact (if_neg (Nat.ne_of_gt (Nat.add_pos_right k hpos))).symm

theorem habort_ends (h : w.host.abortReturns = false) (msg : String) :
    (habort msg).run w = (.error .aborted,
      { w with trace := w.trace ++ [.vmcall (.userAbort (ascii msg)) 0] }) := by
  rw [habort_run, World.abortEnd, h]
  rfl

/-- A round of `hpush_file`: the next chunk is sent, the file has ended, or the machine ends. -/
theorem hpushRound_meets (srcPath : Bytes) (total : Nat) (hfile : s.files path = some content) :
    Meets (Pushing env cwd s content path dst fd append k acc)
      (hpushRound fd buf (1024 * 1024) srcPath dst (acc, total))
      (fun r w => Sum.elim
        (fun b => ∃ k', k < k' ∧ Pushing env cwd s content path dst fd append k' b.1 w)
        (fun _ => At env cwd (s.push dst append content) w) r)
      (CutOff s content dst append) := by
  refine Meets.bind (read_meets hfile) fun bytes => Meets.bind (chunk_hprintf _ bytes) fun _ => ?_
  refine Meets.ite (fun hfailed => ?_) fun hread =>
    Meets.ite (fun hzero => Meets.pure ?_) fun hzero => ?_
  · rintro w (⟨-, hat⟩ | ⟨data, hdata, -⟩)
    · rw [Prog.run_bind_error (habort_ends hat.abort _)]
      exact ⟨rfl, k, hat.store_eq⟩
    · omega
  · rintro w (⟨hfailed, -⟩ | ⟨data, rfl, h⟩)
    · exact absurd hfailed hread
    · have hnil := List.length_eq_zero_iff.mp (Int.natCast_eq_zero.mp hzero)
      have hat := h.at_store
      rwa [List.take_of_length_le (List.drop_eq_nil_iff.mp (h.last hnil))] at hat
  · rintro w (⟨hfailed, -⟩ | ⟨data, rfl, h⟩)
    · exact absurd hfailed hread
    · have hne : data ≠ [] := by
        rintro rfl
        exact hzero rfl
      obtain ⟨v, hcall, hnext⟩ := dump_run hne h
      rw [Int.toNat_natCast, Prog.run_bind_ok hcall]
      exact ⟨k + data.length, Nat.lt_add_of_pos_right (List.length_pos_iff.mpr hne), hnext⟩

theorem push_nothing (s : Store) (dst : Bytes) (append : Bool) : s.push dst append [] = s := by
  show Store.mk _ (Function.update s.dumps dst (s.dumps dst)) _ = s
  rw [Function.update_eq_self]

/-- `hpush_file` from its loop on. -/
theorem hpushLoop_meets {bound fuel : Nat} (srcPath : Bytes) (hfile : s.files path = some content)
    (hbound : s.Bounded bound) (hfuel : bound < fuel) :
    Meets (Pushing env cwd s content path dst fd append 0 append.toNat.toUInt8)
      (do
        let totalSent ← Prog.iter .timeout (hpushRound fd buf (1024 * 1024) srcPath dst) fuel
          (append.toNat.toUInt8, 0)
        hprintf (hpushMessage srcPath dst totalSent)
        freeResidentPages buf 256
        close fd
        pure 0 : Guest Int)
      (fun ret w => ret = 0 ∧ At env cwd (s.push dst append content) w)
      (CutOff s content dst append) := by
  have hlen : content.length < fuel := Nat.lt_of_le_of_lt (hbound.file path content hfile) hfuel
  refine Meets.bind (Q := fun _ => At env cwd (s.push dst append content)) ?_ fun total => ?_
  · refine (Meets.iter (I := fun n b v => ∃ k, n = content.length - k ∧
      Pushing env cwd s content path dst fd append k b.1 v) (fun n b => ?_) fuel _ hlen).weaken
      (fun w h => ⟨0, rfl, h⟩) (fun _ _ h => h) fun _ _ h => h
    refine Meets.exists fun k => ?_
    rintro v ⟨rfl, h⟩
    refine (hpushRound_meets srcPath b.2 hfile).weaken (fun _ h => h) (fun r v hr => ?_)
      (fun _ _ h => h) v h
    cases r with
    | inr total => exact hr
    | inl b' =>
      obtain ⟨k', hlt, hnext⟩ := hr
      have hle := hnext.le
      exact ⟨_, by omega, k', rfl, hnext⟩
  · refine (Meets.bind (calm_hprintf _ env cwd _) fun _ =>
      Meets.bind (calm_freeResidentPages buf 256 env cwd _) fun _ =>
      Meets.bind (calm_close fd env cwd _) fun _ => Meets.pure fun w h => ⟨rfl, h⟩).weaken
      (fun _ h => h) (fun _ _ h => h) ?_
    rintro e w ⟨he, hstore⟩
    exact ⟨he, content.length, by rw [List.take_length, hstore]⟩

theorem hpushFile_meets {bound fuel : Nat} (srcPath dst : Bytes) (append : Bool)
    (hbound : s.Bounded bound) (hfuel : bound < fuel) :
    Meets (At env cwd s) (hpushFile fuel srcPath dst append.toNat)
      (fun ret w => ∃ t, Job.Effect (.push (resolveIn cwd srcPath) dst append) (.ok ret) s t ∧
        At env cwd t w)
      (fun e w => Job.Effect (.push (resolveIn cwd srcPath) dst append) (.error e) s w.store) := by
  intro w h
  have hpath : w.resolve srcPath = resolveIn cwd srcPath := by
    rw [← h.cwd_eq]
    rfl
  by_cases hget : (w.files (w.resolve srcPath)).isSome ∧ Obtained srcPath w
  · obtain ⟨hsome, hopen, ⟨page, halloc⟩, hlock⟩ := hget
    obtain ⟨file, hfile⟩ := Option.isSome_iff_exists.mp hsome
    have hcontent : s.files (resolveIn cwd srcPath) = some file.content := by
      rw [← h.store_eq, ← hpath]
      exact congrArg (Option.map File.content) hfile
    have hstart : Pushing env cwd s file.content (resolveIn cwd srcPath) dst w.nextFd append 0
        append.toNat.toUInt8
        ((w.called.install ⟨w.resolve srcPath, 0⟩).withPages page.val 256) := by
      refine ⟨?_, ?_, Nat.zero_le _, rfl⟩
      · rw [List.take_zero, push_nothing]
        exact ⟨h.env_eq, h.cwd_eq, h.store_eq, h.cpu, h.abort⟩
      · rw [← hpath]
        exact Function.update_self ..
    rw [hpushFile_obtained fuel dst append.toNat hfile hopen halloc hlock]
    refine (hpushLoop_meets srcPath hcontent hbound hfuel).weaken (fun _ h => h) ?_ ?_ _ hstart
    · rintro ret v ⟨rfl, hat⟩
      exact ⟨_, .sent hcontent, hat⟩
    · rintro e v ⟨rfl, k, hstore⟩
      rw [hstore]
      exact .cut hcontent
  · obtain ⟨ret, v, hrun, hret, hhost, -, hcpu⟩ := hpushFile_unstarted fuel dst append.toNat hget
    have hsame : SameSources w v := by
      have hkeeps := (SequenceLemmas.keeps_hpushFile fuel srcPath dst append.toNat).run
        (SameSources.refl w)
      rwa [hrun] at hkeeps
    rw [hrun]
    refine ⟨s, .unsent hret, hsame.env.trans h.env_eq, hsame.cwd.trans h.cwd_eq, ?_,
      hcpu.trans h.cpu, (congrArg Host.abortReturns hhost).trans h.abort⟩
    have hstore : v.store = w.store := by
      simp only [World.store, hsame.files, hhost]
    exact hstore.trans h.store_eq

end TransferLemmas

end KaflTargets
