import Mathlib.Data.Nat.Digits.Defs
import KaflTargets.DetectRanges

/-!
# The driver test on Windows (`windows_x86_64/src/driver/vuln_test.c`)

Before it fuzzes its driver, the test submits the addresses of two bug check
handlers and the code range of the driver. The handlers are looked up in a copy of
the kernel in user mode and moved to the kernel's base. The range takes its
start from the list of load addresses and its size from the list of modules, at one
index; the text it prints of both goes to a buffer of fixed size, and nothing checks whether
it fits.

Results:
1. `resolveKeBugCheck_run`: how a lookup ends; `panicHandlers_real_iff`: when only real
   handlers are submitted.
2. `driverLoop_sound`, `driverLoop_unsound`: the walk over both lists, where they agree and
   where they do not; `setIpRange_sound_iff`: when the range is that of the named driver,
   whatever lies behind the buffer.
-/

namespace KaflTargets.VulnTest

open CString Prog
open ForkServer (submitted)
open ForkServer.DetectLemmas (submitted_append)

def ARRAY_SIZE : Nat := 1024

def INFO_SIZE : Nat := 128 * 1024

def VULN_DRIVER_NAME : Bytes := ascii "kAFLvulnerabledriver.sys"

/-! ## The system -/

/-- The fields of an `RTL_PROCESS_MODULE_INFORMATION` that are read. The path ends
with a NUL, and the name of the file lies in front of it. -/
structure Module where
  imageBase : UInt64
  imageSize : UInt32
  offsetToFileName : Nat
  fullPathName : Bytes
  terminated : 0 ∈ fullPathName.drop offsetToFileName

/-- What the buffer holds behind the last module. -/
def Module.zero : Module where
  imageBase := 0
  imageSize := 0
  offsetToFileName := 0
  fullPathName := List.replicate 256 0
  terminated := by decide

/-- The calls of `set_ip_range` and how they end. -/
structure RangeQueries where
  /-- Whether `VirtualAlloc` gives the buffer of the text, and that of the modules. -/
  infoBuffer : Bool
  moduleBuffer : Bool
  enumDeviceDrivers : Option (List UInt64)
  ntQuerySystemInformation : Option (List Module)
  /-- The conversion `%p`. -/
  pointer : UInt64 → Bytes
  /-- A write behind the buffer of the text, for the end of the text: it faults, or it changes
  what is read of the list of modules from there on. -/
  behind : Nat → List Module → Option (List Module)

/-- The calls of `resolve_KeBugCheck` and how they end. A null pointer is 0. -/
structure Lookup where
  enumDeviceDrivers : Option (List UInt64)
  /-- Whether a driver, by its index, has a file name. -/
  getDeviceDriverFileName : Nat → Bool
  loadLibrary : UInt64
  getProcAddress : UInt64

/-- `EnumDeviceDrivers(drivers, sizeof(drivers), &cbNeeded) && cbNeeded < sizeof(drivers)`. -/
def listed (drivers : Option (List UInt64)) : Option (List UInt64) :=
  drivers.filter fun drivers => drivers.length * 8 < ARRAY_SIZE * 8

/-! ## Handlers -/

/-- `KernGetProcAddress`: the subtraction and the addition wrap. -/
def kernGetProcAddress (lookup : Lookup) (kernBase : UInt64) : UInt64 :=
  lookup.getProcAddress - lookup.loadLibrary + kernBase

/-- The `for` of `resolve_KeBugCheck` from the driver `i` on. -/
def resolveLoop (lookup : Lookup) : Nat → List UInt64 → Guest UInt64
  | _, [] => pure 0
  | i, driver :: drivers =>
    if lookup.getDeviceDriverFileName i then
      if i = 0 then do
        let keBugCheck := kernGetProcAddress lookup driver
        if keBugCheck = 0 then
          Prog.stop (.exit 0)
        pure keBugCheck
      else resolveLoop lookup (i + 1) drivers
    else resolveLoop lookup (i + 1) drivers

/-- `resolve_KeBugCheck`. -/
def resolveKeBugCheck (lookup : Lookup) : Guest UInt64 :=
  match listed lookup.enumDeviceDrivers with
  | some drivers => resolveLoop lookup 0 drivers
  | none => Prog.stop (.exit 0)

/-- `init_panic_handlers`. The lookups are those of the two functions. -/
def initPanicHandlers (lookup1 lookup2 : Lookup) : Guest Unit := do
  let panicKebugcheck ← resolveKeBugCheck lookup1
  let panicKebugcheck2 ← resolveKeBugCheck lookup2
  hprintf (ascii "Submitting bug check handlers\n")
  let _ ← kAFLHypercall (.submitPanic panicKebugcheck.toNat)
  let _ ← kAFLHypercall (.submitPanic panicKebugcheck2.toNat)

/-! ## The range -/

/-- The label `fail`. -/
def noMatch : Guest Unit := do
  habort "FAIL! NO MATCH!\n"
  Prog.stop (.exit 1)

/-- `pos += sprintf(info_buffer + pos, ..)`, and the list of modules after it. -/
def sprintfInfo (sys : RangeQueries) (modules : List Module) (pos : Nat) (text : Bytes) :
    Guest (Nat × List Module) :=
  if pos + text.length < INFO_SIZE then pure (pos + text.length, modules)
  else
    match sys.behind (pos + text.length) modules with
    | some modules => pure (pos + text.length, modules)
    | none => Prog.stop .overflow

/-- `%lld` of a `UINT64`. -/
def lld (n : UInt64) : Bytes :=
  if n.toNat < 2 ^ 63 then dec n.toNat else ascii "-" ++ dec (2 ^ 64 - n.toNat)

/-- The lines above the list. -/
def infoTitle (cDrivers : Nat) : Bytes :=
  ascii "kAFL Windows x86-64 Kernel Addresses (" ++ dec cDrivers ++ ascii " Drivers)\n\n"

def infoColumns : Bytes := ascii "START-ADDRESS\t\tEND-ADDRESS\t\tDRIVER\n"

/-- The line of a driver. -/
def infoLine (pointer : UInt64 → Bytes) (driver : UInt64) (entry : Module) : Bytes :=
  ascii "0x" ++ pointer driver ++ ascii "\t0x" ++ lld (driver + entry.imageSize.toUInt64) ++
    ascii "\t" ++ cstr (entry.fullPathName.drop entry.offsetToFileName) ++ ascii "\n"

/-- `strstr(FullPathName, VULN_DRIVER_NAME) > 0`. -/
def Module.isNamed (entry : Module) : Bool := strstr (cstr entry.fullPathName) VULN_DRIVER_NAME

/-- `ModuleInfo->Modules[i]`, where `modules` are those from `i` on. -/
def moduleAt (modules : List Module) : Module := modules.head?.getD Module.zero

/-- The first read of it in a round. -/
def moduleEntry (i : Nat) (modules : List Module) : Guest Module :=
  ⟨fun w => (.ok (moduleAt modules), { w with trace := w.trace ++ [.moduleEntry i] })⟩

/-- The `for` over the drivers from `i` on. The entry is read again behind the `sprintf`. -/
def driverLoop (sys : RangeQueries) : Nat → Nat → List UInt64 → List Module → Guest Unit
  | _, _, [], _ => noMatch
  | i, pos, driver :: drivers, modules => do
    let entry ← moduleEntry i modules
    let (pos, modules) ← sprintfInfo sys modules pos (infoLine sys.pointer driver entry)
    if (moduleAt modules).isNamed then
      let _ ← kAFLHypercall (.rangeSubmit driver.toNat
        (driver + (moduleAt modules).imageSize.toUInt64).toNat 0)
    else driverLoop sys (i + 1) pos drivers modules.tail

/-- `set_ip_range`. -/
def setIpRange (sys : RangeQueries) : Guest Unit := do
  if !sys.infoBuffer then
    -- `memset` on it
    Prog.stop .invalidPointer
  match listed sys.enumDeviceDrivers with
  | none => do
    hprintf (ascii "set_ip_range: EnumDeviceDrivers failed\n")
    noMatch
  | some drivers =>
    if !sys.moduleBuffer then do
      habort "set_ip_range: VirtualAlloc failed\n"
      noMatch
    else
      match sys.ntQuerySystemInformation with
      | none => do
        habort "set_ip_range: NtQuerySystemInformation failed\n"
        noMatch
      | some modules => do
        let (pos, modules) ← sprintfInfo sys modules 0 (infoTitle drivers.length)
        let (pos, modules) ← sprintfInfo sys modules pos infoColumns
        driverLoop sys 0 pos drivers modules

/-! ## Definitions -/

/-- The handlers a trace submits. -/
def submittedPanics (trace : List Event) : List Nat :=
  trace.filterMap fun
    | .vmcall (.submitPanic addr) _ => some addr
    | _ => none

/-- The address of the export in the kernel, if every step of its lookup succeeds. -/
def Lookup.real (lookup : Lookup) : Option UInt64 :=
  match listed lookup.enumDeviceDrivers with
  | some (kernBase :: _) =>
    if lookup.getDeviceDriverFileName 0 && lookup.loadLibrary ≠ 0 && lookup.getProcAddress ≠ 0 then
      some (kernBase + (lookup.getProcAddress - lookup.loadLibrary))
    else none
  | _ => none

/-- The lookup ends the program: there is no list, or the address is 0 after all. -/
def Lookup.exits (lookup : Lookup) : Bool :=
  match listed lookup.enumDeviceDrivers with
  | none => true
  | some [] => false
  | some (kernBase :: _) =>
    lookup.getDeviceDriverFileName 0 && kernGetProcAddress lookup kernBase = 0

/-- Every handler that was submitted is the real one, and a lookup that failed ended
the program. -/
structure OnlyReal (lookup1 lookup2 : Lookup) (w : World) (r : Except Stop Unit × World) :
    Prop where
  handlers : ∃ addrs, submittedPanics r.2.trace = submittedPanics w.trace ++ addrs ∧
    ∀ i addr : Nat, addrs[i]? = some addr →
      ∃ lookup : Lookup, [lookup1, lookup2][i]? = some lookup ∧
        lookup.real.map UInt64.toNat = some addr
  exits : lookup1.real = none ∨ lookup2.real = none → r.1 = .error (.exit 0)

/-- The range of a module. -/
def Module.range (entry : Module) : Nat × Nat × Nat :=
  (entry.imageBase.toNat, (entry.imageBase + entry.imageSize.toUInt64).toNat, 0)

/-- What happened from `w` to `v`. -/
def emitted (w v : World) : List Event := v.trace.drop w.trace.length

/-- Of the modules, which are those from `i` on, only entries that exist were read. A
range that was submitted is that of the first one with the name; without one, none
was, and the program aborted. -/
structure Sound (i : Nat) (modules : List Module) (es : List Event) : Prop where
  reads : ∀ j, Event.moduleEntry j ∈ es → j < i + modules.length
  range :
    match modules.find? Module.isNamed with
    | some entry => submitted es = [] ∨ submitted es = [entry.range]
    | none => submitted es = [] ∧ ∃ msg ret, Event.vmcall (.userAbort msg) ret ∈ es

/-- Where the text ends that stood at `pos`, with a line for each driver. -/
def textEnd (pointer : UInt64 → Bytes) : Nat → List UInt64 → List Module → Nat
  | pos, [], _ => pos
  | pos, driver :: drivers, modules =>
    textEnd pointer (pos + (infoLine pointer driver (moduleAt modules)).length) drivers
      modules.tail

/-- The lists agree where it matters, at the first module with the name, and the text fits up
to there; without one, no driver is behind the last module, and all of the text fits. -/
def Agree (pointer : UInt64 → Bytes) (pos : Nat) (drivers : List UInt64)
    (modules : List Module) : Prop :=
  match modules.find? Module.isNamed with
  | some entry =>
    textEnd pointer pos (drivers.take (modules.findIdx Module.isNamed + 1)) modules < INFO_SIZE ∧
      ∀ driver, drivers[modules.findIdx Module.isNamed]? = some driver → driver = entry.imageBase
  | none => drivers.length ≤ modules.length ∧ textEnd pointer pos drivers modules < INFO_SIZE

/-- The calls succeed that list the drivers, fewer than the array takes, and the
modules. -/
structure Lists (sys : RangeQueries) (drivers : List UInt64) (modules : List Module) : Prop where
  enumerated : sys.enumDeviceDrivers = some drivers
  count : drivers.length < ARRAY_SIZE
  buffer : sys.moduleBuffer = true
  queried : sys.ntQuerySystemInformation = some modules

/-- The condition on the lists. A test that has no buffer for its text ends at once. -/
def RangeQueries.Agrees (sys : RangeQueries) (drivers : List UInt64) (modules : List Module) :
    Prop :=
  if sys.infoBuffer then
    Agree sys.pointer ((infoTitle drivers.length).length + infoColumns.length) drivers modules
  else (modules.find? Module.isNamed).isSome

/-! ## 1. The handlers -/

namespace VulnTestLemmas

variable {lookup lookup1 lookup2 : Lookup} {w v : World}

/-- What a lookup returns that does not exit. -/
def result (lookup : Lookup) : UInt64 :=
  match listed lookup.enumDeviceDrivers with
  | some (kernBase :: _) =>
    if lookup.getDeviceDriverFileName 0 then kernGetProcAddress lookup kernBase else 0
  | _ => 0

/-- Behind the first driver nothing is looked up. -/
theorem resolveLoop_later (lookup : Lookup) (drivers : List UInt64) (w : World) :
    ∀ i, (resolveLoop lookup (i + 1) drivers).run w = (.ok 0, w) := by
  induction drivers with
  | nil => exact fun _ => rfl
  | cons driver drivers ih =>
    intro i
    unfold resolveLoop
    split
    · rw [if_neg (Nat.succ_ne_zero i)]
      exact ih (i + 1)
    · exact ih (i + 1)

end VulnTestLemmas

open VulnTestLemmas

theorem resolveKeBugCheck_run (lookup : Lookup) (w : World) :
    (resolveKeBugCheck lookup).run w =
      (if lookup.exits then .error (.exit 0) else .ok (result lookup), w) := by
  unfold resolveKeBugCheck Lookup.exits result
  cases listed lookup.enumDeviceDrivers with
  | none => rfl
  | some drivers =>
    cases drivers with
    | nil => rfl
    | cons kernBase drivers =>
      dsimp only
      unfold resolveLoop
      cases lookup.getDeviceDriverFileName 0 with
      | false => exact resolveLoop_later lookup drivers w 0
      | true =>
        rw [if_pos rfl, if_pos rfl]
        by_cases hzero : kernGetProcAddress lookup kernBase = 0
        · have hexit : (true && decide (kernGetProcAddress lookup kernBase = 0)) = true := by
            simp [hzero]
          rw [if_pos hzero, if_pos hexit]
          rfl
        · rw [if_neg hzero]
          simp [hzero]

namespace VulnTestLemmas

variable {lookup lookup1 lookup2 : Lookup} {w v : World}

/-- A lookup that succeeds returns the real address. -/
theorem result_of_real {addr : UInt64} (h : lookup.real = some addr) : result lookup = addr := by
  unfold Lookup.real at h
  unfold result kernGetProcAddress
  cases hlisted : listed lookup.enumDeviceDrivers with
  | none =>
    rw [hlisted] at h
    cases h
  | some drivers =>
    rw [hlisted] at h
    cases drivers with
    | nil => cases h
    | cons kernBase drivers =>
      dsimp only at h ⊢
      split at h
      · next hall =>
        cases h
        simp only [Bool.and_eq_true] at hall
        rw [if_pos hall.1.1, UInt64.add_comm]
      · cases h

theorem initPanicHandlers_run (lookup1 lookup2 : Lookup) (w : World) :
    ∃ v, (initPanicHandlers lookup1 lookup2).run w =
        (if lookup1.exits || lookup2.exits then .error (.exit 0) else .ok (), v) ∧
      submittedPanics v.trace = submittedPanics w.trace ++
        if lookup1.exits || lookup2.exits then [] else
          [(result lookup1).toNat, (result lookup2).toNat] := by
  unfold initPanicHandlers
  have h1 := resolveKeBugCheck_run lookup1 w
  have h2 := resolveKeBugCheck_run lookup2 w
  cases hexits : lookup1.exits with
  | true =>
    rw [hexits] at h1
    exact ⟨w, Prog.run_bind_error h1, (List.append_nil _).symm⟩
  | false =>
    rw [hexits] at h1
    rw [Prog.run_bind_ok h1]
    cases hexits2 : lookup2.exits with
    | true =>
      rw [hexits2] at h2
      exact ⟨w, Prog.run_bind_error h2, (List.append_nil _).symm⟩
    | false =>
      rw [hexits2] at h2
      rw [Prog.run_bind_ok h2, Prog.run_bind_ok (hprintf_run _ w)]
      refine ⟨_, rfl, ?_⟩
      simp [submittedPanics, World.vmcall, World.react]

end VulnTestLemmas

/-- Only real handlers are submitted exactly if a lookup ends the program or every step
of both succeeds. A step that fails leaves an address that is rarely 0. -/
theorem panicHandlers_real_iff (lookup1 lookup2 : Lookup) (w : World) :
    OnlyReal lookup1 lookup2 w ((initPanicHandlers lookup1 lookup2).run w) ↔
      lookup1.exits = true ∨ lookup2.exits = true ∨
        (lookup1.real.isSome ∧ lookup2.real.isSome) := by
  obtain ⟨v, hrun, hpanics⟩ := initPanicHandlers_run lookup1 lookup2 w
  rw [hrun]
  cases hexits : (lookup1.exits || lookup2.exits) with
  | true =>
    rw [hexits] at hpanics
    refine ⟨fun _ => ?_, fun _ => ⟨⟨[], hpanics, fun _ _ h => nomatch h⟩, fun _ => rfl⟩⟩
    rcases Bool.or_eq_true_iff.mp hexits with h | h
    · exact .inl h
    · exact .inr (.inl h)
  | false =>
    rw [hexits] at hpanics
    obtain ⟨h1, h2⟩ := Bool.or_eq_false_iff.mp hexits
    constructor
    · rintro ⟨_, hends⟩
      refine .inr (.inr ⟨?_, ?_⟩)
      · refine Option.isSome_iff_ne_none.mpr fun hnone => ?_
        cases hends (.inl hnone)
      · refine Option.isSome_iff_ne_none.mpr fun hnone => ?_
        cases hends (.inr hnone)
    · rintro (h | h | ⟨hreal1, hreal2⟩)
      · rw [h1] at h
        cases h
      · rw [h2] at h
        cases h
      · obtain ⟨a, ha⟩ := Option.isSome_iff_exists.mp hreal1
        obtain ⟨b, hb⟩ := Option.isSome_iff_exists.mp hreal2
        rw [result_of_real ha, result_of_real hb] at hpanics
        refine ⟨⟨_, hpanics, fun i addr hi => ?_⟩, ?_⟩
        · match i with
          | 0 =>
            cases hi
            exact ⟨lookup1, rfl, by rw [ha]; rfl⟩
          | 1 =>
            cases hi
            exact ⟨lookup2, rfl, by rw [hb]; rfl⟩
          | i + 2 => cases hi
        · rintro (h | h)
          · rw [ha] at h
            cases h
          · rw [hb] at h
            cases h

namespace VulnTestLemmas

/-- The first driver is listed, but its file name is not found. -/
def unnamedKernel : Lookup where
  enumDeviceDrivers := some [0xfffff80000000000]
  getDeviceDriverFileName _ := false
  loadLibrary := 0
  getProcAddress := 0

end VulnTestLemmas

/-- The handler 0 is submitted. -/
theorem panicHandlers_null :
    ¬OnlyReal unnamedKernel unnamedKernel freshNyxWorld
      ((initPanicHandlers unnamedKernel unnamedKernel).run freshNyxWorld) := by
  rintro ⟨_, hends⟩
  cases hends (.inl (by decide))

/-! ## 2. The range -/

namespace VulnTestLemmas

variable {sys : RangeQueries} {pointer : UInt64 → Bytes} {driver : UInt64}
  {drivers : List UInt64} {entry : Module} {modules : List Module} {i pos : Nat}
  {es : List Event}

theorem textEnd_ge (pointer : UInt64 → Bytes) : ∀ (drivers : List UInt64) (pos : Nat)
    (modules : List Module), pos ≤ textEnd pointer pos drivers modules := by
  intro drivers
  induction drivers with
  | nil => exact fun pos _ => Nat.le_refl pos
  | cons driver drivers ih =>
    exact fun pos modules => Nat.le_trans (Nat.le_add_right pos _) (ih _ _)

/-- The lines above the list fit, for as many drivers as the array takes. -/
theorem title_fits (h : drivers.length < ARRAY_SIZE) :
    (infoTitle drivers.length).length + infoColumns.length < INFO_SIZE := by
  have hdigits : (dec drivers.length).length ≤ 4 := by
    rw [dec, List.length_map]
    exact Nat.toDigits_length 10 _ 4 (by decide) (Nat.lt_trans h (by decide))
  have htitle : (infoTitle drivers.length).length = 38 + (dec drivers.length).length + 11 := by
    rw [infoTitle, List.length_append, List.length_append]
    rfl
  have hcolumns : infoColumns.length = 35 := rfl
  rw [htitle, hcolumns, INFO_SIZE]
  omega

/-! ### One more entry -/

theorem agree_nil (h : pos < INFO_SIZE) : Agree pointer pos [] modules := by
  unfold Agree
  cases modules.find? Module.isNamed with
  | none => exact ⟨Nat.zero_le _, h⟩
  | some entry =>
    rw [List.take_nil]
    exact ⟨h, fun driver hdriver => nomatch hdriver⟩

theorem agree_behind : ¬Agree pointer pos (driver :: drivers) [] :=
  fun h => absurd h.1 (Nat.not_succ_le_zero _)

theorem agree_named (hnamed : entry.isNamed = true) :
    Agree pointer pos (driver :: drivers) (entry :: modules) ↔
      pos + (infoLine pointer driver entry).length < INFO_SIZE ∧ driver = entry.imageBase := by
  unfold Agree
  rw [List.find?_cons_of_pos hnamed, List.findIdx_cons, hnamed]
  constructor
  · exact fun h => ⟨h.1, h.2 driver rfl⟩
  · rintro ⟨hfits, h⟩
    refine ⟨hfits, ?_⟩
    rintro _ ⟨⟩
    exact h

theorem agree_other (hother : entry.isNamed = false) :
    Agree pointer pos (driver :: drivers) (entry :: modules) ↔
      Agree pointer (pos + (infoLine pointer driver entry).length) drivers modules := by
  unfold Agree
  rw [List.find?_cons_of_neg (by simp [hother]), List.findIdx_cons, hother]
  cases modules.find? Module.isNamed with
  | none =>
    show _ + 1 ≤ _ + 1 ∧ _ ↔ _
    rw [Nat.succ_le_succ_iff]
    rfl
  | some found => exact Iff.rfl

/-- The text of lists that agree fits up to the next line. -/
theorem fits_of_agree (h : Agree pointer pos (driver :: drivers) (entry :: modules)) :
    pos + (infoLine pointer driver entry).length < INFO_SIZE := by
  cases hnamed : entry.isNamed with
  | true => exact ((agree_named hnamed).mp h).1
  | false =>
    have hrest := (agree_other hnamed).mp h
    unfold Agree at hrest
    split at hrest
    · exact Nat.lt_of_le_of_lt (textEnd_ge _ _ _ _) hrest.1
    · exact Nat.lt_of_le_of_lt (textEnd_ge _ _ _ _) hrest.2

/-- An entry without the name is passed by. -/
theorem sound_other (hother : entry.isNamed = false) :
    Sound i (entry :: modules) (.moduleEntry i :: es) ↔ Sound (i + 1) modules es := by
  have hfind : (entry :: modules).find? Module.isNamed = modules.find? Module.isNamed :=
    List.find?_cons_of_neg (by simp [hother])
  have hlength : i + (entry :: modules).length = i + 1 + modules.length := by
    rw [List.length_cons]
    omega
  have habort : (∃ msg ret, Event.vmcall (.userAbort msg) ret ∈ Event.moduleEntry i :: es) ↔
      ∃ msg ret, Event.vmcall (.userAbort msg) ret ∈ es := by
    simp
  constructor
  · rintro ⟨hreads, hrange⟩
    rw [hlength] at hreads
    rw [hfind, habort] at hrange
    exact ⟨fun j hj => hreads j (List.mem_cons_of_mem _ hj), hrange⟩
  · rintro ⟨hreads, hrange⟩
    refine ⟨fun j hj => ?_, by rw [hfind, habort]; exact hrange⟩
    rw [hlength]
    rcases List.mem_cons.mp hj with h | h
    · cases h
      omega
    · exact hreads j h

theorem sound_behind : ¬Sound i [] (.moduleEntry i :: es) :=
  fun h => Nat.lt_irrefl i (h.reads i List.mem_cons_self)

theorem sound_abort (i : Nat) (modules : List Module) (msg : Bytes) (ret : Nat) :
    Sound i modules [.vmcall (.userAbort msg) ret] := by
  refine ⟨fun j hj => ?_, ?_⟩
  · cases List.mem_singleton.mp hj
  · cases modules.find? Module.isNamed with
    | none => exact ⟨rfl, msg, ret, List.mem_singleton_self _⟩
    | some entry => exact .inl rfl

/-- A program that ends before it has read an entry has not aborted. -/
theorem sound_nothing :
    Sound i modules [] ↔ (modules.find? Module.isNamed).isSome := by
  constructor
  · intro h
    have hrange := h.range
    cases hfind : modules.find? Module.isNamed with
    | some entry => rfl
    | none =>
      rw [hfind] at hrange
      obtain ⟨_, _, _, hmem⟩ := hrange
      cases hmem
  · intro h
    obtain ⟨entry, hfind⟩ := Option.isSome_iff_exists.mp h
    refine ⟨fun j hj => absurd hj List.not_mem_nil, ?_⟩
    rw [hfind]
    exact .inl rfl

/-- The events of a round that submits a range. -/
def submits (i : Nat) (driver : UInt64) (imageSize : UInt32) : List Event :=
  [.moduleEntry i, .vmcall (.rangeSubmit driver.toNat (driver + imageSize.toUInt64).toNat 0) 0]

theorem submitted_submits (i : Nat) (driver : UInt64) (imageSize : UInt32) :
    submitted (submits i driver imageSize) =
      [(driver.toNat, (driver + imageSize.toUInt64).toNat, 0)] := rfl

/-- The range of the entry is submitted with the driver's address. -/
theorem sound_named (hnamed : entry.isNamed = true) :
    Sound i (entry :: modules) (submits i driver entry.imageSize) ↔
      driver = entry.imageBase := by
  have hfind : (entry :: modules).find? Module.isNamed = some entry :=
    List.find?_cons_of_pos hnamed
  constructor
  · intro h
    have hrange := h.range
    rw [hfind, submitted_submits] at hrange
    rcases hrange with hnone | hsome
    · cases hnone
    · exact UInt64.toNat_inj.mp (congrArg Prod.fst (List.singleton_inj.mp hsome))
  · rintro rfl
    refine ⟨fun j hj => ?_, by rw [hfind]; exact .inr rfl⟩
    rcases List.mem_cons.mp hj with h | h
    · cases h
      rw [List.length_cons]
      omega
    · cases List.mem_singleton.mp h

/-- An entry of the driver under test. -/
def vulnDriver (imageBase : UInt64) (imageSize : UInt32) : Module where
  imageBase
  imageSize
  offsetToFileName := 0
  fullPathName := VULN_DRIVER_NAME ++ [0]
  terminated := by decide

theorem vulnDriver_named (imageBase : UInt64) (imageSize : UInt32) :
    (vulnDriver imageBase imageSize).isNamed = true := by
  show strstr (cstr (VULN_DRIVER_NAME ++ [0])) VULN_DRIVER_NAME = true
  decide

/-- One of two sizes makes it the wrong range. -/
theorem exists_unsound (i : Nat) (driver : UInt64) (modules : List Module) :
    ∃ imageSize, ¬Sound i modules (submits i driver imageSize) := by
  have hends : (driver + (0 : UInt32).toUInt64).toNat ≠ (driver + (1 : UInt32).toUInt64).toNat := by
    intro h
    have hzero : (0 : UInt32).toUInt64 = (1 : UInt32).toUInt64 :=
      (UInt64.add_right_inj driver).mp (UInt64.toNat_inj.mp h)
    exact absurd hzero (by decide)
  have hrange {imageSize : UInt32} (h : Sound i modules (submits i driver imageSize)) :
      ∃ entry : Module, modules.find? Module.isNamed = some entry ∧
        (driver.toNat, (driver + imageSize.toUInt64).toNat, 0) = entry.range := by
    have hrange := h.range
    rw [submitted_submits] at hrange
    cases hfind : modules.find? Module.isNamed with
    | none =>
      rw [hfind] at hrange
      cases hrange.1
    | some entry =>
      rw [hfind] at hrange
      rcases hrange with hnone | hsome
      · cases hnone
      · exact ⟨entry, rfl, List.singleton_inj.mp hsome⟩
  by_contra hall
  simp only [not_exists, not_not] at hall
  obtain ⟨entry, hentry, hzero⟩ := hrange (hall 0)
  obtain ⟨found, hfound, hone⟩ := hrange (hall 1)
  rw [hentry] at hfound
  obtain rfl := Option.some.inj hfound
  exact hends (congrArg (fun range => range.2.1) (hzero.trans hone.symm))

/-! ### The loop -/

theorem sprintfInfo_run {text : Bytes} (sys : RangeQueries) (modules : List Module)
    (h : pos + text.length < INFO_SIZE) (w : World) :
    (sprintfInfo sys modules pos text).run w = (.ok (pos + text.length, modules), w) := by
  rw [sprintfInfo, if_pos h]
  rfl

/-- Behind the line of an entry. -/
def afterLine (sys : RangeQueries) (i pos : Nat) (driver : UInt64) (drivers : List UInt64)
    (modules : List Module) : Guest Unit :=
  if (moduleAt modules).isNamed then do
    let _ ← kAFLHypercall (.rangeSubmit driver.toNat
      (driver + (moduleAt modules).imageSize.toUInt64).toNat 0)
  else driverLoop sys (i + 1) pos drivers modules.tail

/-- A round whose line fits. -/
theorem driverLoop_fits (sys : RangeQueries) (drivers : List UInt64) (modules : List Module)
    (h : pos + (infoLine sys.pointer driver (moduleAt modules)).length < INFO_SIZE) (w : World) :
    (driverLoop sys i pos (driver :: drivers) modules).run w =
      (afterLine sys i (pos + (infoLine sys.pointer driver (moduleAt modules)).length) driver
        drivers modules).run { w with trace := w.trace ++ [.moduleEntry i] } := by
  have hentry : (moduleEntry i modules).run w =
      (.ok (moduleAt modules), { w with trace := w.trace ++ [.moduleEntry i] }) := rfl
  rw [driverLoop, Prog.run_bind_ok hentry, Prog.run_bind_ok (sprintfInfo_run sys modules h _)]
  rfl

/-- A round whose line runs over. -/
theorem driverLoop_over (sys : RangeQueries) (drivers : List UInt64) (modules : List Module)
    (h : ¬pos + (infoLine sys.pointer driver (moduleAt modules)).length < INFO_SIZE) (w : World) :
    (driverLoop sys i pos (driver :: drivers) modules).run w =
      match sys.behind (pos + (infoLine sys.pointer driver (moduleAt modules)).length) modules with
      | some found =>
        (afterLine sys i (pos + (infoLine sys.pointer driver (moduleAt modules)).length) driver
          drivers found).run { w with trace := w.trace ++ [.moduleEntry i] }
      | none => (.error .overflow, { w with trace := w.trace ++ [.moduleEntry i] }) := by
  have hentry : (moduleEntry i modules).run w =
      (.ok (moduleAt modules), { w with trace := w.trace ++ [.moduleEntry i] }) := rfl
  rw [driverLoop, Prog.run_bind_ok hentry, Prog.run_bind, sprintfInfo, if_neg h]
  cases sys.behind (pos + (infoLine sys.pointer driver (moduleAt modules)).length) modules with
  | none => rfl
  | some found => rfl

theorem noMatch_run (w : World) :
    ∃ r, noMatch.run w = (r,
      { w with trace := w.trace ++ [.vmcall (.userAbort (ascii "FAIL! NO MATCH!\n")) 0] }) := by
  unfold noMatch
  rw [Prog.run_bind, habort_run]
  unfold World.abortEnd
  cases w.host.abortReturns with
  | true => exact ⟨_, rfl⟩
  | false => exact ⟨_, rfl⟩

/-- The module has the name. -/
theorem afterLine_named (sys : RangeQueries) (drivers : List UInt64) (modules : List Module)
    (h : (moduleAt modules).isNamed = true) (w : World) :
    ((afterLine sys i pos driver drivers modules).run
      { w with trace := w.trace ++ [.moduleEntry i] }).2.trace =
        w.trace ++ submits i driver (moduleAt modules).imageSize := by
  rw [afterLine, if_pos h]
  exact List.append_assoc _ [_] [_]

/-- The module has another name. -/
theorem afterLine_other (sys : RangeQueries) {drivers : List UInt64} {w : World}
    (h : (moduleAt modules).isNamed = false)
    (hrest : ((driverLoop sys (i + 1) pos drivers modules.tail).run
      { w with trace := w.trace ++ [.moduleEntry i] }).2.trace =
        w.trace ++ [.moduleEntry i] ++ es) :
    ((afterLine sys i pos driver drivers modules).run
      { w with trace := w.trace ++ [.moduleEntry i] }).2.trace =
        w.trace ++ (.moduleEntry i :: es) := by
  rw [afterLine, if_neg (by simp [h]), hrest, List.append_assoc]
  rfl

end VulnTestLemmas

/-- Where both lists agree, what the walk reads and submits is right. -/
theorem driverLoop_sound (sys : RangeQueries) : ∀ (drivers : List UInt64) (i : Nat) {pos : Nat}
    {modules : List Module} (w : World), Agree sys.pointer pos drivers modules →
    ∃ es, ((driverLoop sys i pos drivers modules).run w).2.trace = w.trace ++ es ∧
      Sound i modules es := by
  intro drivers
  induction drivers with
  | nil =>
    intro i pos modules w _
    obtain ⟨r, hrun⟩ := noMatch_run w
    unfold driverLoop
    rw [hrun]
    exact ⟨_, rfl, sound_abort i modules _ 0⟩
  | cons driver drivers ih =>
    intro i pos modules w hagree
    cases modules with
    | nil => exact absurd hagree agree_behind
    | cons entry modules =>
      have hfits : pos + (infoLine sys.pointer driver (moduleAt (entry :: modules))).length <
          INFO_SIZE := fits_of_agree hagree
      rw [driverLoop_fits sys drivers _ hfits]
      cases hnamed : entry.isNamed with
      | true =>
        have hbase := ((agree_named hnamed).mp hagree).2
        exact ⟨_, afterLine_named sys drivers (entry :: modules) hnamed w,
          (sound_named hnamed).mpr hbase⟩
      | false =>
        obtain ⟨es, htrace, hsound⟩ := ih (i + 1) { w with trace := w.trace ++ [.moduleEntry i] }
          ((agree_other hnamed).mp hagree)
        exact ⟨_, afterLine_other sys hnamed htrace, (sound_other hnamed).mpr hsound⟩

namespace VulnTestLemmas

variable {sys : RangeQueries} {drivers : List UInt64} {modules : List Module} {w v : World}
  {i pos : Nat} {driver : UInt64}

/-- A walk whose overruns fault only adds to the trace. -/
theorem driverLoop_appends (sys : RangeQueries) : ∀ (drivers : List UInt64) (i pos : Nat)
    (modules : List Module) (w : World), (∀ textEnd modules, sys.behind textEnd modules = none) →
    ∃ es, ((driverLoop sys i pos drivers modules).run w).2.trace = w.trace ++ es := by
  intro drivers
  induction drivers with
  | nil =>
    intro i pos modules w _
    obtain ⟨r, hrun⟩ := noMatch_run w
    unfold driverLoop
    rw [hrun]
    exact ⟨_, rfl⟩
  | cons driver drivers ih =>
    intro i pos modules w hbehind
    by_cases hfits : pos + (infoLine sys.pointer driver (moduleAt modules)).length < INFO_SIZE
    · rw [driverLoop_fits sys drivers modules hfits]
      cases hnamed : (moduleAt modules).isNamed with
      | true => exact ⟨_, afterLine_named sys drivers modules hnamed w⟩
      | false =>
        obtain ⟨es, htrace⟩ := ih (i + 1) _ modules.tail
          { w with trace := w.trace ++ [.moduleEntry i] } hbehind
        exact ⟨_, afterLine_other sys hnamed htrace⟩
    · rw [driverLoop_over sys drivers modules hfits, hbehind]
      exact ⟨_, rfl⟩

/-- A driver behind the last module has its entry read all the same. -/
theorem unsound_behind (sys : RangeQueries) (i pos : Nat) (driver : UInt64)
    (drivers : List UInt64) :
    ∃ behind, ∀ w, ∃ es, ((driverLoop { sys with behind } i pos (driver :: drivers) []).run
      w).2.trace = w.trace ++ es ∧ ¬Sound i [] es := by
  refine ⟨fun _ _ => none, fun w => ?_⟩
  by_cases hfits : pos + (infoLine sys.pointer driver Module.zero).length < INFO_SIZE
  · have hrun := driverLoop_fits (i := i) { sys with behind := fun _ _ => none } drivers [] hfits w
    obtain ⟨es, htrace⟩ := driverLoop_appends { sys with behind := fun _ _ => none } drivers
      (i + 1) (pos + (infoLine sys.pointer driver Module.zero).length) []
      { w with trace := w.trace ++ [.moduleEntry i] } fun _ _ => rfl
    have hother : (moduleAt []).isNamed = false := by decide
    rw [hrun]
    exact ⟨_, afterLine_other _ hother htrace, sound_behind⟩
  · have hrun := driverLoop_over (i := i) { sys with behind := fun _ _ => none } drivers [] hfits w
    rw [hrun]
    exact ⟨[.moduleEntry i], rfl, sound_behind⟩

/-- A line that runs over leaves everything behind it to chance. -/
theorem unsound_over (sys : RangeQueries) (i : Nat) (drivers : List UInt64)
    (hover : ¬pos + (infoLine sys.pointer driver (moduleAt modules)).length < INFO_SIZE) :
    ∃ behind, ∀ w, ∃ es, ((driverLoop { sys with behind } i pos (driver :: drivers) modules).run
      w).2.trace = w.trace ++ es ∧ ¬Sound i modules es := by
  obtain ⟨imageSize, hunsound⟩ := exists_unsound i driver modules
  refine ⟨fun _ _ => some [vulnDriver 0 imageSize], fun w => ?_⟩
  have hrun := driverLoop_over (i := i)
    { sys with behind := fun _ _ => some [vulnDriver 0 imageSize] } drivers modules hover w
  rw [hrun]
  exact ⟨_, afterLine_named _ drivers [vulnDriver 0 imageSize] (vulnDriver_named 0 imageSize) w,
    hunsound⟩

end VulnTestLemmas

/-- Where they do not, something that may lie behind the buffer makes it wrong. -/
theorem driverLoop_unsound (sys : RangeQueries) : ∀ (drivers : List UInt64) (i : Nat) {pos : Nat}
    {modules : List Module}, pos < INFO_SIZE → ¬Agree sys.pointer pos drivers modules →
    ∃ behind, ∀ w, ∃ es, ((driverLoop { sys with behind } i pos drivers modules).run w).2.trace =
      w.trace ++ es ∧ ¬Sound i modules es := by
  intro drivers
  induction drivers with
  | nil => exact fun i pos modules hpos hagree => absurd (agree_nil hpos) hagree
  | cons driver drivers ih =>
    intro i pos modules hpos hagree
    cases modules with
    | nil => exact unsound_behind sys i pos driver drivers
    | cons entry modules =>
      by_cases hfits :
          pos + (infoLine sys.pointer driver (moduleAt (entry :: modules))).length < INFO_SIZE
      · cases hnamed : entry.isNamed with
        | true =>
          have hbase : driver ≠ entry.imageBase :=
            fun hbase => hagree ((agree_named hnamed).mpr ⟨hfits, hbase⟩)
          refine ⟨sys.behind, fun w => ?_⟩
          rw [driverLoop_fits sys drivers _ hfits]
          exact ⟨_, afterLine_named sys drivers (entry :: modules) hnamed w,
            mt (sound_named hnamed).mp hbase⟩
        | false =>
          obtain ⟨behind, hrest⟩ := ih (i + 1) hfits (mt (agree_other hnamed).mpr hagree)
          refine ⟨behind, fun w => ?_⟩
          obtain ⟨es, htrace, hunsound⟩ := hrest { w with trace := w.trace ++ [.moduleEntry i] }
          rw [driverLoop_fits { sys with behind } drivers _ hfits]
          exact ⟨_, afterLine_other _ hnamed htrace, mt (sound_other hnamed).mp hunsound⟩
      · exact unsound_over sys i drivers hfits

namespace VulnTestLemmas

variable {sys : RangeQueries} {drivers : List UInt64} {modules : List Module} {w v : World}

theorem emitted_eq {es : List Event} (h : v.trace = w.trace ++ es) : emitted w v = es := by
  rw [emitted, h, List.drop_left]

/-- Where the text of the lists starts. -/
def listPos (drivers : List UInt64) : Nat := (infoTitle drivers.length).length + infoColumns.length

theorem listed_of_lists (h : Lists sys drivers modules) :
    listed sys.enumDeviceDrivers = some drivers := by
  rw [h.enumerated, listed, Option.filter_some, if_pos]
  exact decide_eq_true (Nat.mul_lt_mul_of_pos_right h.count (by decide))

/-- With its buffers, the function comes to the walk. -/
theorem setIpRange_run (h : Lists sys drivers modules) (hinfo : sys.infoBuffer = true)
    (w : World) :
    (setIpRange sys).run w = (driverLoop sys 0 (listPos drivers) drivers modules).run w := by
  have hfits := title_fits h.count
  have htitle : 0 + (infoTitle drivers.length).length < INFO_SIZE := by omega
  have hcolumns : 0 + (infoTitle drivers.length).length + infoColumns.length < INFO_SIZE := by
    omega
  unfold setIpRange
  rw [hinfo, listed_of_lists h, h.buffer, h.queried]
  show (sprintfInfo sys modules 0 (infoTitle drivers.length) >>= fun text =>
    sprintfInfo sys text.2 text.1 infoColumns >>= fun text =>
      driverLoop sys 0 text.1 drivers text.2).run w = _
  rw [Prog.run_bind_ok (sprintfInfo_run sys modules htitle w),
    Prog.run_bind_ok (sprintfInfo_run sys modules hcolumns w), Nat.zero_add]
  rfl

/-- Without the buffer of the text, it ends at once. -/
theorem setIpRange_unallocated (sys : RangeQueries) (hinfo : ¬sys.infoBuffer = true) (w : World) :
    (setIpRange sys).run w = (.error .invalidPointer, w) := by
  unfold setIpRange
  rw [Bool.eq_false_of_not_eq_true hinfo]
  rfl

/-- What the walk adds is what the function adds. -/
theorem emitted_setIpRange {es : List Event} (h : Lists sys drivers modules)
    (hinfo : sys.infoBuffer = true)
    (htrace : ((driverLoop sys 0 (listPos drivers) drivers modules).run w).2.trace =
      w.trace ++ es) : emitted w ((setIpRange sys).run w).2 = es := by
  rw [setIpRange_run h hinfo]
  exact emitted_eq htrace

/-- The calls end as they did, whatever is behind the buffer. -/
theorem Lists.behind (h : Lists sys drivers modules)
    (behind : Nat → List Module → Option (List Module)) :
    Lists { sys with behind } drivers modules :=
  ⟨h.enumerated, h.count, h.buffer, h.queried⟩

end VulnTestLemmas

/-- Whatever lies behind the buffer of the text, the range that is submitted is that of the
named driver and no entry is read that the list does not have: exactly if the lists agree. -/
theorem setIpRange_sound_iff {sys : RangeQueries} {drivers : List UInt64}
    {modules : List Module} (h : Lists sys drivers modules) (w : World) :
    (∀ behind, Sound 0 modules (emitted w ((setIpRange { sys with behind }).run w).2)) ↔
      sys.Agrees drivers modules := by
  unfold RangeQueries.Agrees
  split
  · next hinfo =>
    constructor
    · intro hall
      by_contra hagree
      obtain ⟨behind, hbad⟩ := driverLoop_unsound sys drivers 0 (title_fits h.count) hagree
      obtain ⟨es, htrace, hunsound⟩ := hbad w
      have hsound := hall behind
      rw [emitted_setIpRange (Lists.behind h behind) hinfo htrace] at hsound
      exact hunsound hsound
    · intro hagree behind
      obtain ⟨es, htrace, hsound⟩ := driverLoop_sound { sys with behind } drivers 0 w hagree
      rw [emitted_setIpRange (Lists.behind h behind) hinfo htrace]
      exact hsound
  · next hinfo =>
    rw [← sound_nothing (i := 0)]
    have hrun (behind : Nat → List Module → Option (List Module)) :
        emitted w ((setIpRange { sys with behind }).run w).2 = [] := by
      rw [setIpRange_unallocated { sys with behind } hinfo]
      exact emitted_eq (List.append_nil _).symm
    constructor
    · intro hall
      have hsound := hall sys.behind
      rwa [hrun] at hsound
    · intro hnone behind
      rwa [hrun]

namespace VulnTestLemmas

/-- One driver is listed, and one module. -/
def oneModule (driver : UInt64) (entry : Module) : RangeQueries where
  infoBuffer := true
  moduleBuffer := true
  enumDeviceDrivers := some [driver]
  ntQuerySystemInformation := some [entry]
  pointer _ := []
  behind _ _ := none

theorem oneModule_lists (driver : UInt64) (entry : Module) :
    Lists (oneModule driver entry) [driver] [entry] :=
  ⟨rfl, show 1 < 1024 by decide, rfl, rfl⟩

/-- The text of one line fits. -/
theorem oneModule_fits (imageBase : UInt64) :
    listPos [0x1000] + (infoLine (fun _ => []) 0x1000 (vulnDriver imageBase 0x8000)).length <
      INFO_SIZE := by
  show listPos [0x1000] + (infoLine (fun _ => []) 0x1000 (vulnDriver 0 0x8000)).length < INFO_SIZE
  decide

/-- So its range is submitted. -/
theorem oneModule_submits (imageBase : UInt64) (w : World) :
    emitted w ((setIpRange (oneModule 0x1000 (vulnDriver imageBase 0x8000))).run w).2 =
      submits 0 0x1000 0x8000 := by
  have hloop : ((driverLoop (oneModule 0x1000 (vulnDriver imageBase 0x8000)) 0 (listPos [0x1000])
      [0x1000] [vulnDriver imageBase 0x8000]).run w).2.trace =
        w.trace ++ submits 0 0x1000 0x8000 := by
    have hline := driverLoop_fits (i := 0) (oneModule 0x1000 (vulnDriver imageBase 0x8000)) []
      [vulnDriver imageBase 0x8000] (oneModule_fits imageBase) w
    rw [hline]
    exact afterLine_named _ [] [vulnDriver imageBase 0x8000] (vulnDriver_named _ _) w
  exact emitted_setIpRange (oneModule_lists _ _) rfl hloop

end VulnTestLemmas

theorem setIpRange_sound_one :
    Sound 0 [vulnDriver 0x1000 0x8000] (emitted freshNyxWorld
      ((setIpRange (oneModule 0x1000 (vulnDriver 0x1000 0x8000))).run freshNyxWorld).2) :=
  (setIpRange_sound_iff (oneModule_lists 0x1000 (vulnDriver 0x1000 0x8000)) freshNyxWorld).mpr
    ((agree_named (vulnDriver_named 0x1000 0x8000)).mpr ⟨oneModule_fits 0x1000, rfl⟩)
    fun _ _ => none

/-- The list of modules was taken after the driver had been loaded again elsewhere. -/
theorem setIpRange_moved :
    ¬Sound 0 [vulnDriver 0x2000 0x8000] (emitted freshNyxWorld
      ((setIpRange (oneModule 0x1000 (vulnDriver 0x2000 0x8000))).run freshNyxWorld).2) := by
  rw [oneModule_submits 0x2000 freshNyxWorld]
  exact mt (sound_named (vulnDriver_named 0x2000 0x8000)).mp (by decide)

end KaflTargets.VulnTest
