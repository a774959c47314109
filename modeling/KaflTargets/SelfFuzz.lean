import Mathlib.Data.List.Find
import KaflTargets.DetectRanges

/-!
# The code range of the self-fuzzing test (`windows_x86_64/src/userspace/selffuzz_test.c`)

The test looks for the section `.text` of its own image and submits its
addresses. It compares the first five bytes of a name of eight, and it takes the
section table to lie behind `IMAGE_NT_HEADERS`, whatever size the header states
for its last part.

Results:
1. `submitIpRanges_cases`: what the function submits.
2. `submitIpRanges_exact_iff`: when this is the `.text` section of the image;
   `submitIpRanges_standard`: it is in an image with a header of the usual size and no
   longer name with that prefix.
-/

namespace KaflTargets.SelfFuzz

open CString Prog
open ForkServer (submitted)
open ForkServer.DetectLemmas (submitted_append)

def PE_CODE_SECTION_NAME : Bytes := ascii ".text"

def IMAGE_NT_SIGNATURE : Nat := 0x00004550

/-- `sizeof(IMAGE_NT_HEADERS)` and `sizeof(IMAGE_SECTION_HEADER)`. -/
def SIZEOF_IMAGE_NT_HEADERS : Nat := 264
def SIZEOF_IMAGE_SECTION_HEADER : Nat := 40

/-! ## The image -/

/-- The fields of an `IMAGE_SECTION_HEADER` that are read. -/
structure SectionHeader where
  name : Bytes
  virtualSize : Nat
  virtualAddress : Nat
  virtualSize_lt : virtualSize < 2 ^ 32
  virtualAddress_lt : virtualAddress < 2 ^ 32

def sectionHeader (mem : Mem) (addr : Nat) : SectionHeader where
  name := mem.load addr 8
  virtualSize := mem.word32 (addr + 8)
  virtualAddress := mem.word32 (addr + 12)
  virtualSize_lt := Mem.word32_lt
  virtualAddress_lt := Mem.word32_lt

/-- `pNtHeaders`: `e_lfanew` is a `LONG`. -/
def ntHeaders (mem : Mem) (hModule : Nat) : Nat :=
  (hModule + (mem.word32 (hModule + 0x3c) : Int).bmod (2 ^ 32)).toNat

def signature (mem : Mem) (hModule : Nat) : Nat := mem.word32 (ntHeaders mem hModule)

def numberOfSections (mem : Mem) (hModule : Nat) : Nat := mem.word16 (ntHeaders mem hModule + 6)

def sizeOfOptionalHeader (mem : Mem) (hModule : Nat) : Nat :=
  mem.word16 (ntHeaders mem hModule + 20)

/-- The address of the section headers, as the code has it. -/
def sectionHeaders (mem : Mem) (hModule : Nat) : Nat :=
  ntHeaders mem hModule + SIZEOF_IMAGE_NT_HEADERS

/-- `memcmp` with the name. -/
def SectionHeader.matches (header : SectionHeader) : Bool :=
  header.name.take PE_CODE_SECTION_NAME.length = PE_CODE_SECTION_NAME

/-- `codeStart`, `codeEnd` and the index of the filter. -/
def SectionHeader.range (header : SectionHeader) (hModule : Nat) : Nat × Nat × Nat :=
  ((hModule + header.virtualAddress) % 2 ^ 64,
    (hModule + header.virtualAddress + header.virtualSize) % 2 ^ 64, 0)

/-! ## The function -/

/-- The body of the `if`, up to its `return`. -/
def submitSection (hModule : Nat) (header : SectionHeader) : Guest Unit := do
  let (codeStart, codeEnd, index) := header.range hModule
  let _ ← kAFLHypercall (.rangeSubmit codeStart codeEnd index)
  let locked ← syscall
  if locked ≠ 0 then
    habort "Failed to lock .text section in resident memory\n"

/-- The `for`, with `left` sections from the header at `addr` on. -/
def scanSections (hModule : Nat) : Nat → Nat → Guest Unit
  | 0, _ => habort "Couldn't locate .text section in PE image\n"
  | left + 1, addr => do
    let header ← Prog.gets fun w => sectionHeader w.mem addr
    if header.matches then submitSection hModule header
    else scanSections hModule left (addr + SIZEOF_IMAGE_SECTION_HEADER)

/-- `submit_ip_ranges`; `hModule` is what `GetModuleHandle` returns. -/
def submitIpRanges (hModule : Nat) : Guest Unit := do
  if hModule = 0 then
    habort "Cannot get module handle\n"
    Prog.stop .invalidPointer
  let mem ← Prog.gets World.mem
  if signature mem hModule ≠ IMAGE_NT_SIGNATURE then
    habort "Invalid PE signature\n"
  scanSections hModule (numberOfSections mem hModule) (sectionHeaders mem hModule)

/-! ## Definitions -/

/-- The section headers from an address on. -/
def headersFrom (mem : Mem) : Nat → Nat → List SectionHeader
  | 0, _ => []
  | left + 1, addr =>
    sectionHeader mem addr :: headersFrom mem left (addr + SIZEOF_IMAGE_SECTION_HEADER)

/-- A name of eight bytes that is exactly `.text`. -/
def SectionHeader.isText (header : SectionHeader) : Bool :=
  header.name = PE_CODE_SECTION_NAME ++ [0, 0, 0]

/-- The first section the code takes for `.text`. -/
def foundSection (mem : Mem) (hModule : Nat) : Option SectionHeader :=
  (headersFrom mem (numberOfSections mem hModule) (sectionHeaders mem hModule)).find?
    SectionHeader.matches

/-- The first section that is `.text`, in the table where the header says it starts:
behind the signature, the file header and the optional header. -/
def textSection (mem : Mem) (hModule : Nat) : Option SectionHeader :=
  (headersFrom mem (numberOfSections mem hModule)
    (ntHeaders mem hModule + 24 + sizeOfOptionalHeader mem hModule)).find? SectionHeader.isText

/-- A loaded image with a PE header. -/
structure Image (mem : Mem) (hModule : Nat) : Prop where
  loaded : hModule ≠ 0
  signature : signature mem hModule = IMAGE_NT_SIGNATURE

/-- Exactly the range of the section was submitted; without one, none, and the
program aborted. -/
def Submits (text : Option SectionHeader) (hModule : Nat) (w v : World) : Prop :=
  match text with
  | some header => submitted v.trace = submitted w.trace ++ [header.range hModule]
  | none => submitted v.trace = submitted w.trace ∧ Aborts w v

/-- Where a section is. -/
def SectionHeader.extent (header : SectionHeader) : Nat × Nat :=
  (header.virtualAddress, header.virtualSize)

/-! ## 1. What is submitted -/

namespace SelfFuzzLemmas

variable {w v : World} {mem : Mem} {hModule : Nat} {header : SectionHeader}

/-- An abort submits nothing. -/
theorem habort_submits (w : World) (msg : String) :
    submitted ((habort msg).run w).2.trace = submitted w.trace ∧
      Aborts w ((habort msg).run w).2 := by
  rw [habort_run]
  refine ⟨(submitted_append _ _).trans (List.append_nil _), ?_⟩
  exact ⟨_, rfl, ascii msg, 0, List.mem_singleton_self _⟩

theorem syscall_submits (w : World) :
    ∃ ret v, syscall.run w = (.ok ret, v) ∧ v.trace = w.trace := by
  unfold syscall
  dsimp only
  split
  · exact ⟨_, _, rfl, rfl⟩
  · exact ⟨_, _, rfl, rfl⟩

/-- The range is submitted before the pages are locked. -/
theorem submitSection_submits (hModule : Nat) (header : SectionHeader) (w : World) :
    submitted ((submitSection hModule header).run w).2.trace =
      submitted w.trace ++ [header.range hModule] := by
  obtain ⟨codeStart, codeEnd, index, hrange⟩ :
      ∃ start stop index, header.range hModule = (start, stop, index) := ⟨_, _, _, rfl⟩
  let u := { w with trace := w.trace ++
    [Event.vmcall (.rangeSubmit codeStart codeEnd index) 0] }
  have hsubmit : (kAFLHypercall (.rangeSubmit codeStart codeEnd index)).run w = (.ok 0, u) := rfl
  obtain ⟨ret, t, hlock, htrace⟩ := syscall_submits u
  have ht : submitted t.trace = submitted w.trace ++ [(codeStart, codeEnd, index)] := by
    rw [htrace]
    exact submitted_append _ _
  unfold submitSection
  rw [hrange]
  dsimp only
  rw [Prog.run_bind_ok hsubmit, Prog.run_bind_ok hlock]
  split
  · exact (habort_submits t _).1.trans ht
  · exact ht

theorem scanSections_submits (hModule : Nat) : ∀ (left addr : Nat) (w : World),
    Submits ((headersFrom w.mem left addr).find? SectionHeader.matches) hModule w
      ((scanSections hModule left addr).run w).2 := by
  intro left
  induction left with
  | zero => exact fun addr w => habort_submits w _
  | succ left ih =>
    intro addr w
    unfold scanSections headersFrom
    rw [Prog.run_bind_ok (Prog.run_gets _ _)]
    cases hmatch : (sectionHeader w.mem addr).matches with
    | true =>
      rw [List.find?_cons_of_pos hmatch, if_pos rfl]
      exact submitSection_submits hModule _ w
    | false =>
      rw [List.find?_cons_of_neg (by simp [hmatch]), if_neg (by simp)]
      exact ih _ w

end SelfFuzzLemmas

open SelfFuzzLemmas

/-- The first section with the prefix, in the table behind `IMAGE_NT_HEADERS`. -/
theorem submitIpRanges_cases {w : World} {hModule : Nat} (h : Image w.mem hModule) :
    Submits (foundSection w.mem hModule) hModule w ((submitIpRanges hModule).run w).2 := by
  unfold submitIpRanges
  rw [if_neg h.loaded, Prog.run_bind_ok (Prog.run_gets _ _), if_neg (not_not.mpr h.signature)]
  exact scanSections_submits hModule _ _ w

/-! ## 2. The `.text` section -/

namespace SelfFuzzLemmas

variable {a b : SectionHeader}

/-- Two sections have one range only where they are. -/
theorem range_eq_iff (hModule : Nat) :
    a.range hModule = b.range hModule ↔ a.extent = b.extent := by
  have hstart := a.virtualAddress_lt
  have hsize := a.virtualSize_lt
  have hstart' := b.virtualAddress_lt
  have hsize' := b.virtualSize_lt
  unfold SectionHeader.range SectionHeader.extent
  simp only [Prod.mk.injEq, and_true]
  omega

theorem submits_iff {found text : Option SectionHeader} {hModule : Nat} {w v : World}
    (h : Submits found hModule w v) :
    Submits text hModule w v ↔
      found.map SectionHeader.extent = text.map SectionHeader.extent := by
  cases found with
  | none =>
    cases text with
    | none => exact ⟨fun _ => rfl, fun _ => h⟩
    | some header =>
      refine ⟨fun htext => ?_, fun hmap => nomatch hmap⟩
      have hboth := h.1.symm.trans htext
      exact absurd hboth (by simp)
  | some found =>
    cases text with
    | none =>
      refine ⟨fun htext => ?_, fun hmap => nomatch hmap⟩
      have hboth := htext.1.symm.trans h
      exact absurd hboth (by simp)
    | some header =>
      rw [Option.map_some, Option.map_some, Option.some.injEq, ← range_eq_iff hModule]
      constructor
      · intro htext
        have hboth := List.append_cancel_left (h.symm.trans htext)
        exact List.singleton_inj.mp hboth
      · intro hrange
        show submitted v.trace = _
        rw [← hrange]
        exact h

end SelfFuzzLemmas

/-- The function submits the `.text` section exactly if the first section it finds is
where the first `.text` section is, and finds none if there is none. -/
theorem submitIpRanges_exact_iff {w : World} {hModule : Nat} (h : Image w.mem hModule) :
    Submits (textSection w.mem hModule) hModule w ((submitIpRanges hModule).run w).2 ↔
      (foundSection w.mem hModule).map SectionHeader.extent =
        (textSection w.mem hModule).map SectionHeader.extent :=
  submits_iff (submitIpRanges_cases h)

/-- With an optional header of 240 bytes, the tables are the same. -/
theorem submitIpRanges_standard {w : World} {hModule : Nat} (h : Image w.mem hModule)
    (hsize : sizeOfOptionalHeader w.mem hModule = 240)
    (hnames : ∀ header ∈ headersFrom w.mem (numberOfSections w.mem hModule)
      (sectionHeaders w.mem hModule), header.matches = header.isText) :
    Submits (textSection w.mem hModule) hModule w ((submitIpRanges hModule).run w).2 := by
  have htables : foundSection w.mem hModule = textSection w.mem hModule := by
    have htable : ntHeaders w.mem hModule + 24 + 240 = sectionHeaders w.mem hModule :=
      Nat.add_assoc _ 24 240
    unfold foundSection textSection
    rw [hsize, htable]
    exact List.find?_congr hnames
  rw [← htables]
  exact submitIpRanges_cases h

/-! ### Two images -/

namespace SelfFuzzLemmas

/-- The bytes of a section header. -/
def headerBytes (name : Bytes) (virtualSize virtualAddress : Nat) : Bytes :=
  name ++ Mem.le32 virtualSize ++ Mem.le32 virtualAddress ++ List.replicate 24 0

/-- An image at 0x1000 with an optional header of 240 bytes. -/
def imageAt (headers : List Bytes) : Mem :=
  Mem.store (fun _ => 0) 0x1000
    (List.replicate 60 0 ++ Mem.le32 64 ++ Mem.le32 IMAGE_NT_SIGNATURE ++
      [0x64, 0x86, headers.length.toUInt8, 0] ++ List.replicate 12 0 ++ [240, 0] ++
      List.replicate 242 0 ++ headers.flatten)

def plainImage : Mem := imageAt [headerBytes (ascii ".text" ++ [0, 0, 0]) 0x20 0x1000]

/-- What a linker leaves that links incrementally. -/
def incrementalImage : Mem :=
  imageAt [headerBytes (ascii ".textbss") 0x10 0x1000,
    headerBytes (ascii ".text" ++ [0, 0, 0]) 0x20 0x2000]

/-- A process with this image. -/
def running (mem : Mem) : World := { freshNyxWorld with mem }

theorem image_plain : Image (running plainImage).mem 0x1000 := ⟨by decide, by decide⟩

theorem image_incremental : Image (running incrementalImage).mem 0x1000 :=
  ⟨by decide, by decide⟩

end SelfFuzzLemmas

theorem submitIpRanges_exact_plain :
    Submits (textSection plainImage 0x1000) 0x1000 (running plainImage)
      ((submitIpRanges 0x1000).run (running plainImage)).2 :=
  (submitIpRanges_exact_iff image_plain).mpr (by decide)

/-- The section `.textbss` is submitted. -/
theorem submitIpRanges_textbss :
    ¬Submits (textSection incrementalImage 0x1000) 0x1000 (running incrementalImage)
      ((submitIpRanges 0x1000).run (running incrementalImage)).2 := by
  intro h
  have hcases := submitIpRanges_cases image_incremental
  have hsame := (submits_iff hcases).mp h
  have hdiffer : (foundSection incrementalImage 0x1000).map SectionHeader.extent ≠
      (textSection incrementalImage 0x1000).map SectionHeader.extent := by
    decide
  exact hdiffer hsame

end KaflTargets.SelfFuzz
