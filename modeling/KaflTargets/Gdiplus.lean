import KaflTargets.Lib.Overwrite
import KaflTargets.DropVA

/-!
# The payload file of the GDI+ agent (`windows_x86_64/src/userspace/gdiplus.cpp`)

Every iteration writes its payload to a file in the temporary directory and has
GDI+ open that file as an image. The file is opened with `OPEN_ALWAYS`, which
keeps what an existing file holds, and it is never cut: behind a short payload
the image has the rest of a longer one before it.

Results:
1. `writePayloadFile_splices`: what one call makes of the file.
2. `mainLoop_presents`: the images of any sequence of payloads;
   `images_isolated_iff`: when each of them is its payload alone.
-/

namespace KaflTargets.Gdiplus

open CString Prog

def PAYLOAD_FILENAME : Bytes := ascii "payload.emf"

/-- `payload_file`: the name behind the temporary directory and a backslash. -/
def payloadFile (tempPath : Bytes) : Bytes := tempPath ++ [0x5c] ++ PAYLOAD_FILENAME

/-- `CreateFileA(name, .., OPEN_ALWAYS, ..)`: a handle, or none for
`INVALID_HANDLE_VALUE`. A file that exists keeps its content. -/
def createFile (name : Bytes) : Guest (Option Nat) :=
  ⟨fun w =>
    match w.env.sysErr w.tick with
    | some e => (.ok none, { w with tick := w.tick + 1, errno := e.val })
    | none =>
      let file := (w.files name).getD ⟨[], 0⟩
      (.ok (some w.nextFd),
        { w with
          tick := w.tick + 1
          files := Function.update w.files name (some file) }.install ⟨name, 0⟩)⟩

/-- `WriteFile`. Neither its result nor the number of bytes it wrote is used. -/
def writeFile (handle : Option Nat) (addr count : Nat) : Guest Unit :=
  match handle with
  | some handle => do
    let _ ← write handle addr count
  | none => setErrno ⟨6, by decide⟩

/-- `CloseHandle`. -/
def closeHandle (handle : Option Nat) : Guest Unit :=
  match handle with
  | some handle => close handle
  | none => setErrno ⟨6, by decide⟩

/-- The conversion to a `DWORD`. -/
def dword (n : Int) : Nat := (n % 2 ^ 32).toNat

/-- `write_payload_file`. -/
def writePayloadFile (targetFile : Bytes) (kaflPayload : Nat) : Guest Unit := do
  let payloadFileHandle ← createFile targetFile
  if payloadFileHandle.isNone then
    let _ ← kAFLHypercall (.userAbort [])
  let size ← Prog.gets fun w => payloadSize w.mem kaflPayload
  writeFile payloadFileHandle (kaflPayload + 4) (dword size)
  closeHandle payloadFileHandle

/-- `Image::FromFile`: what the file it opens holds. -/
def fromFile (name : Bytes) : Guest (Option Bytes) :=
  Prog.gets fun w => (w.files name).map File.content

/-- An iteration of the `while (1)`. The host answers `FAST_ACQUIRE` with a payload:
the memory is `mem` from then on. Decoding and drawing the image leave the file
alone. -/
def mainRound (file : Bytes) (payloadBuffer : Nat) (mem : Mem) : Guest (Option Bytes) := do
  let _ ← kAFLHypercall .userFastAcquire
  Prog.modify fun w => { w with mem := mem }
  writePayloadFile file payloadBuffer
  let image ← fromFile file
  let _ ← kAFLHypercall .release
  pure image

/-- The loop, for the payloads the host has: the images that are opened. -/
def mainLoop (file : Bytes) (payloadBuffer : Nat) : List Mem → Guest (List (Option Bytes))
  | [] => pure []
  | mem :: mems => do
    let image ← mainRound file payloadBuffer mem
    let images ← mainLoop file payloadBuffer mems
    pure (image :: images)

/-! ## Definitions -/

/-- The bytes of a payload. -/
def payload (payloadBuffer : Nat) (mem : Mem) : Bytes :=
  mem.load (payloadBuffer + 4) (payloadSize mem payloadBuffer).toNat

/-- What the file holds. A file that does not exist holds nothing. -/
def content (file : Bytes) (w : World) : Bytes := ((w.files file).map File.content).getD []

/-- `CreateFile` succeeds, and `WriteFile` in full. -/
structure Succeeds (w : World) : Prop where
  create : ∀ t, w.env.sysErr t = none
  write : ∀ t, w.env.write t = .full

/-! ## 1. One call -/

namespace GdiplusLemmas

variable {w v : World} {file : Bytes} {buf : Nat} {mem : Mem}

theorem dword_size (h : 0 ≤ payloadSize mem buf) :
    dword (payloadSize mem buf) = (payloadSize mem buf).toNat ∧
      dword (payloadSize mem buf) ≤ SSIZE_MAX := by
  have hhigh : payloadSize mem buf < 2 ^ 31 := by
    unfold payloadSize
    have hlt := Int.bmod_lt (x := (mem.word32 buf : Int)) (m := 2 ^ 32) (by decide)
    omega
  unfold dword SSIZE_MAX
  omega

theorem payload_length (buf : Nat) (mem : Mem) :
    (payload buf mem).length = (payloadSize mem buf).toNat := by
  rw [payload, Mem.load_length]

theorem payload_lengths (buf : Nat) (mems : List Mem) :
    (mems.map (payload buf)).map List.length =
      mems.map fun mem => (payloadSize mem buf).toNat := by
  rw [List.map_map]
  refine List.map_congr_left fun mem _ => ?_
  rw [Function.comp_apply, payload_length]

/-- The world with the file open. -/
def created (w : World) (file : Bytes) : World :=
  { w with
    tick := w.tick + 1
    files := Function.update w.files file (some ((w.files file).getD ⟨[], 0⟩)) }.install ⟨file, 0⟩

theorem createFile_run (h : Succeeds w) (file : Bytes) :
    (createFile file).run w = (.ok (some w.nextFd), created w file) := by
  unfold createFile
  dsimp only
  rw [h.create]
  rfl

theorem created_fds (w : World) (file : Bytes) :
    (created w file).fds w.nextFd = some ⟨file, 0⟩ :=
  Function.update_self w.nextFd _ w.fds

theorem created_files (w : World) (file : Bytes) :
    (created w file).files file = some ((w.files file).getD ⟨[], 0⟩) :=
  Function.update_self file _ w.files

theorem content_getD (file : Bytes) (w : World) :
    ((w.files file).getD ⟨[], 0⟩).content = content file w := by
  unfold content
  cases w.files file <;> rfl

/-- The file holds exactly these bytes. -/
def Holds (file data : Bytes) (w : World) : Prop := (w.files file).map File.content = some data

theorem Holds.content_eq {data : Bytes} (h : Holds file data w) : content file w = data := by
  unfold content
  rw [h]
  rfl

/-- A write in full goes over the start of the file. -/
theorem write_splices (h : Succeeds w) (file : Bytes) (addr : Nat) {count : Nat}
    (hcount : count ≤ SSIZE_MAX) :
    ∃ v, (write w.nextFd addr count).run (created w file) = (.ok count, v) ∧ v.env = w.env ∧
      Holds file (splice (content file w) (w.mem.load addr count)) v := by
  have hcall : (created w file).writeCall w.nextFd addr count =
      ((count : Int), { (created w file).writeAt w.nextFd ⟨file, 0⟩ (w.mem.load addr count) with
        tick := (created w file).tick + 1 }) := by
    unfold World.writeCall
    rw [created_fds]
    dsimp only
    rw [if_neg (Nat.not_lt.mpr hcount)]
    have hfull : (created w file).env.write (created w file).tick = .full := h.write _
    rw [hfull]
    rfl
  rw [write_run, hcall]
  refine ⟨_, rfl, rfl, ?_⟩
  unfold Holds World.writeAt
  dsimp only
  rw [created_files, Function.update_self, Option.getD_some, content_getD, overwrite_zero]
  rfl

end GdiplusLemmas

open GdiplusLemmas

/-- The payload goes over what the file held. What was longer stays behind it. -/
theorem writePayloadFile_splices {w : World} (h : Succeeds w) (file : Bytes) {buf : Nat}
    (hsize : 0 ≤ payloadSize w.mem buf) :
    ∃ v, (writePayloadFile file buf).run w = (.ok (), v) ∧ v.env = w.env ∧
      Holds file (splice (content file w) (payload buf w.mem)) v := by
  obtain ⟨hcount, hmax⟩ := dword_size hsize
  obtain ⟨v, hwrite, henv, hholds⟩ := write_splices h file (buf + 4) hmax
  rw [hcount] at hholds hwrite
  refine ⟨((close w.nextFd).run v).2, ?_, henv, hholds⟩
  unfold writePayloadFile
  rw [Prog.run_bind_ok (createFile_run h file), if_neg (by simp),
    Prog.run_bind_ok (Prog.run_gets _ _)]
  show (writeFile (some w.nextFd) (buf + 4) (dword (payloadSize w.mem buf)) >>= fun _ =>
    closeHandle (some w.nextFd)).run (created w file) = _
  have hwritten : (writeFile (some w.nextFd) (buf + 4) (payloadSize w.mem buf).toNat).run
      (created w file) = (.ok (), v) := Prog.run_bind_ok hwrite
  rw [hcount, Prog.run_bind_ok hwritten]
  rfl

/-! ## 2. The images -/

namespace GdiplusLemmas

/-- An iteration opens what the call has made of the file. -/
theorem mainRound_run (h : Succeeds w) (file : Bytes) (hsize : 0 ≤ payloadSize mem buf) :
    ∃ v, (mainRound file buf mem).run w =
        (.ok (some (splice (content file w) (payload buf mem))), v) ∧ Succeeds v ∧
      content file v = splice (content file w) (payload buf mem) := by
  let u := { w with trace := w.trace ++ [Event.vmcall .userFastAcquire 0], mem := mem }
  have hu : Succeeds u := ⟨h.create, h.write⟩
  have husize : 0 ≤ payloadSize u.mem buf := hsize
  obtain ⟨v, hrun, henv, hholds⟩ := writePayloadFile_splices hu file husize
  have hv : Succeeds v := ⟨by rw [henv]; exact h.create, by rw [henv]; exact h.write⟩
  refine ⟨{ v with trace := v.trace ++ [.vmcall .release 0] }, ?_, ⟨hv.create, hv.write⟩,
    hholds.content_eq⟩
  unfold mainRound
  have hacquire : (kAFLHypercall .userFastAcquire).run w =
      (.ok 0, { w with trace := w.trace ++ [Event.vmcall .userFastAcquire 0] }) := rfl
  have hpayload : (Prog.modify (ε := Stop) fun w : World => { w with mem := mem }).run
      { w with trace := w.trace ++ [Event.vmcall .userFastAcquire 0] } = (.ok (), u) := rfl
  have himage : (fromFile file).run v =
      (.ok (some (splice (content file w) (payload buf mem))), v) := congrArg (·, v)
        (congrArg Except.ok hholds)
  have hrelease : (kAFLHypercall .release).run v =
      (.ok 0, { v with trace := v.trace ++ [Event.vmcall .release 0] }) := rfl
  rw [Prog.run_bind_ok hacquire, Prog.run_bind_ok hpayload, Prog.run_bind_ok hrun,
    Prog.run_bind_ok himage, Prog.run_bind_ok hrelease]
  rfl

end GdiplusLemmas

/-- The images of a run are the payloads, each over what the file held. -/
theorem mainLoop_presents (file : Bytes) (buf : Nat) : ∀ {mems : List Mem} {w : World},
    Succeeds w → (∀ mem ∈ mems, 0 ≤ payloadSize mem buf) →
    ∃ images v, (mainLoop file buf mems).run w = (.ok (images.map some), v) ∧
      Presents (content file w) (mems.map (payload buf)) images := by
  intro mems
  induction mems with
  | nil => exact fun _ _ => ⟨[], _, rfl, .nil _⟩
  | cons mem mems ih =>
    intro w h hsizes
    obtain ⟨hsize, hsizes⟩ := List.forall_mem_cons.mp hsizes
    obtain ⟨u, hround, hu, hcontent⟩ := mainRound_run h file hsize
    obtain ⟨images, v, hrun, hpresents⟩ := ih hu hsizes
    refine ⟨splice (content file w) (payload buf mem) :: images, v, ?_,
      .write (congrArg List.length hcontent) hpresents⟩
    unfold mainLoop
    rw [Prog.run_bind_ok hround, Prog.run_bind_ok hrun]
    rfl

/-- Every image is its payload alone exactly if no payload is shorter than the file
was at the start or than a payload before it. -/
theorem images_isolated_iff {w : World} (h : Succeeds w) (file : Bytes) {buf : Nat}
    {mems : List Mem} (hsizes : ∀ mem ∈ mems, 0 ≤ payloadSize mem buf) :
    ((mainLoop file buf mems).run w).1 = .ok (mems.map fun mem => some (payload buf mem)) ↔
      ((content file w).length ::
        mems.map fun mem => (payloadSize mem buf).toNat).Pairwise (· ≤ ·) := by
  obtain ⟨images, v, hrun, hpresents⟩ := mainLoop_presents file buf h hsizes
  have hsome : mems.map (fun mem => some (payload buf mem)) =
      (mems.map (payload buf)).map some := by
    rw [List.map_map]
    rfl
  rw [hrun, hsome, ← payload_lengths, ← hpresents.isolated_iff, Except.ok.injEq]
  exact (List.map_injective_iff.mpr fun _ _ => Option.some.inj).eq_iff

namespace GdiplusLemmas

/-- The memory with this payload at 4096. -/
def laden (data : Bytes) : Mem := Mem.store (fun _ => 0) 4096 (Mem.le32 data.length ++ data)

theorem payloadSize_laden {data : Bytes} (h : data.length < 2 ^ 31) :
    payloadSize (laden data) 4096 = data.length := by
  unfold payloadSize laden
  rw [Mem.word32_store (Nat.lt_trans h (by decide))]
  exact Int.bmod_eq_of_le_mul_two (by omega) (by omega)

theorem laden_nonneg {data : Bytes} (h : data.length < 2 ^ 31) :
    0 ≤ payloadSize (laden data) 4096 := by
  rw [payloadSize_laden h]
  exact Int.natCast_nonneg _

theorem fresh_succeeds : Succeeds freshNyxWorld := ⟨fun _ => rfl, fun _ => rfl⟩

/-- Two payloads, which the loop shows to be isolated or not by their lengths. -/
theorem laden_pair {a b : Bytes} (ha : a.length < 2 ^ 31) (hb : b.length < 2 ^ 31) :
    (∀ mem ∈ [laden a, laden b], 0 ≤ payloadSize mem 4096) ∧
      ([laden a, laden b].map fun mem => (payloadSize mem 4096).toNat) = [a.length, b.length] := by
  refine ⟨?_, ?_⟩
  · refine List.forall_mem_cons.mpr ⟨laden_nonneg ha, ?_⟩
    exact List.forall_mem_cons.mpr ⟨laden_nonneg hb, fun _ h => absurd h List.not_mem_nil⟩
  · simp only [List.map_cons, List.map_nil, payloadSize_laden ha, payloadSize_laden hb,
      Int.toNat_natCast]

end GdiplusLemmas

/-- A payload of one byte, and then one of two. -/
theorem images_isolated_growing :
    ((mainLoop (payloadFile (ascii "C:")) 4096 [laden [1], laden [2, 3]]).run freshNyxWorld).1 =
      .ok ([laden [1], laden [2, 3]].map fun mem => some (payload 4096 mem)) := by
  obtain ⟨hsizes, hlengths⟩ := laden_pair (a := [1]) (b := [2, 3]) (by decide) (by decide)
  refine (images_isolated_iff fresh_succeeds _ hsizes).mpr ?_
  rw [hlengths]
  decide

/-- The other way round, the second image ends with a byte of the first payload. -/
theorem images_leftover :
    ((mainLoop (payloadFile (ascii "C:")) 4096 [laden [1, 2], laden [3]]).run freshNyxWorld).1 ≠
      .ok ([laden [1, 2], laden [3]].map fun mem => some (payload 4096 mem)) := by
  intro h
  obtain ⟨hsizes, hlengths⟩ := laden_pair (a := [1, 2]) (b := [3]) (by decide) (by decide)
  obtain ⟨images, v, hrun, hpresents⟩ :=
    mainLoop_presents (payloadFile (ascii "C:")) 4096 fresh_succeeds hsizes
  rw [hrun] at h
  have himages : images = [laden [1, 2], laden [3]].map (payload 4096) :=
    (List.map_injective_iff.mpr fun _ _ => Option.some.inj) (Except.ok.inj h)
  have hsorted := hpresents.isolated_iff.mp himages
  rw [payload_lengths, hlengths] at hsorted
  exact absurd hsorted (by decide)

end KaflTargets.Gdiplus
