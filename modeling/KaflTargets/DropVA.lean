import KaflTargets.World

/-!
# The walk through the address space (`drop_VA` in `gdiplus.cpp` and `gdiplus_loadfont.cpp`)

Two agents print the modules of their process. They query the region at an
address and go on behind it, from the lowest address of an application to the
highest. The structure the query fills is zeroed first, so a query that fails
advances the walk by nothing.

Results:
1. `climbs_iff`: the walk ends and only goes up if and only if the regions the
   queries report cover the address space.
2. `dropVA_climbs_iff`: the same for both agents; `dropVA_spins`: where a query
   keeps failing, the walk never ends.
-/

namespace KaflTargets

open CString Prog

def MEM_COMMIT : Nat := 0x1000
def MEM_IMAGE : Nat := 0x1000000

def PAGE_READONLY : Nat := 0x02
def PAGE_READWRITE : Nat := 0x04
def PAGE_WRITECOPY : Nat := 0x08
def PAGE_EXECUTE : Nat := 0x10
def PAGE_EXECUTE_READ : Nat := 0x20
def PAGE_EXECUTE_READWRITE : Nat := 0x40

/-- The fields of a `MEMORY_BASIC_INFORMATION` that are read. -/
structure MemoryBasicInformation where
  state : Nat
  type : Nat
  protect : Nat
  regionSize : Nat

/-- The structure after `memset`. -/
def MemoryBasicInformation.zero : MemoryBasicInformation := ⟨0, 0, 0, 0⟩

/-- What a successful `VirtualQuery` reports. Its region is not empty. -/
structure Region extends MemoryBasicInformation where
  regionSize_pos : 0 < regionSize
  regionSize_lt : regionSize < 2 ^ 64

structure ModuleInfo where
  baseOfDll : Nat
  sizeOfImage : Nat

/-- The process as the system describes it. What a query returns may change from
call to call; the calls are numbered. -/
structure AddressSpace where
  minimumApplicationAddress : Nat
  maximumApplicationAddress : Nat
  maximum_lt : maximumApplicationAddress < 2 ^ 64
  virtualQuery : Nat → Nat → Option Region
  getModuleInformation : Nat → Nat → Option ModuleInfo
  getModuleFileName : Nat → Nat → Option Bytes
  /-- The conversion `%p`. -/
  pointer : Nat → Bytes
  /-- What `module_info` holds before it is filled. -/
  uninit : ModuleInfo

/-- The variables of the loop, and the number of queries so far. -/
structure Walk where
  calls : Nat
  currAddr : Nat
  moduleInfo : ModuleInfo
  filename : Bytes

namespace AddressSpace

/-- `VirtualQuery` on the zeroed structure. -/
def query (sys : AddressSpace) (calls addr : Nat) : Guest (Bool × MemoryBasicInformation) :=
  ⟨fun w =>
    let mbi :=
      match sys.virtualQuery calls addr with
      | some region => (true, region.toMemoryBasicInformation)
      | none => (false, MemoryBasicInformation.zero)
    (.ok mbi, { w with trace := w.trace ++ [.virtualQuery addr] })⟩

/-- The line of a module. -/
def moduleText (sys : AddressSpace) (addr : Nat) (info : ModuleInfo) (filename : Bytes) : Bytes :=
  ascii "[+] 0x" ++ sys.pointer addr ++ ascii "-0x" ++
    sys.pointer ((addr + info.sizeOfImage) % 2 ^ 64) ++ ascii " " ++ [34] ++ filename ++ [34, 10]

/-- The line of a region inside a module. -/
def regionText (sys : AddressSpace) (addr : Nat) (mbi : MemoryBasicInformation) : Bytes :=
  ascii "    0x" ++ sys.pointer addr ++ ascii "-0x" ++
    sys.pointer ((addr + mbi.regionSize) % 2 ^ 64) ++ ascii " " ++ [27] ++ ascii "[1A"

end AddressSpace

/-- The end of that line. -/
def protectText (protect : Nat) : Option Bytes :=
  let column (text : String) := some ([27] ++ ascii "[42C" ++ ascii text ++ ascii "\n")
  if protect = PAGE_EXECUTE then column "--X"
  else if protect = PAGE_EXECUTE_READ then column "R-X"
  else if protect = PAGE_EXECUTE_READWRITE then column "RWX"
  else if protect = PAGE_READONLY then column "R--"
  else if protect = PAGE_READWRITE then column "RW-"
  else if protect = PAGE_WRITECOPY then column "RW- (cow)"
  else none

/-- Print a committed region of an image. A call that fails leaves its variable as it
was. -/
def showRegion (sys : AddressSpace) (mbi : MemoryBasicInformation) (walk : Walk) :
    Guest Walk := do
  let info := (sys.getModuleInformation walk.calls walk.currAddr).getD walk.moduleInfo
  let filename := (sys.getModuleFileName walk.calls walk.currAddr).getD walk.filename
  if walk.currAddr = info.baseOfDll then
    hprintf (sys.moduleText walk.currAddr info filename)
  else
    hprintf (sys.regionText walk.currAddr mbi)
    match protectText mbi.protect with
    | some text => hprintf text
    | none => pure ()
  pure { walk with moduleInfo := info, filename }

/-- A round of the `while`. -/
def dropRound (sys : AddressSpace) (walk : Walk) : Guest (Walk ⊕ Unit) := do
  if walk.currAddr < sys.maximumApplicationAddress then
    let (ok, mbi) ← sys.query walk.calls walk.currAddr
    let walk ←
      if ok && mbi.state = MEM_COMMIT && mbi.type = MEM_IMAGE then showRegion sys mbi walk
      else pure walk
    -- on both paths
    pure (.inl { walk with
      calls := walk.calls + 1
      currAddr := (walk.currAddr + mbi.regionSize) % 2 ^ 64 })
  else pure (.inr ())

/-- `drop_VA`. -/
def dropVA (fuel : Nat) (sys : AddressSpace) : Guest Unit :=
  Prog.iter .timeout (dropRound sys) fuel
    { calls := 0
      currAddr := sys.minimumApplicationAddress
      moduleInfo := sys.uninit
      filename := [] }

/-- `drop_VA` of `gdiplus.cpp`. -/
def Gdiplus.dropVA : Nat → AddressSpace → Guest Unit := KaflTargets.dropVA

/-- `drop_VA` of `gdiplus_loadfont.cpp`. -/
def GdiplusLoadfont.dropVA : Nat → AddressSpace → Guest Unit := KaflTargets.dropVA

/-! ## Definitions -/

/-- The addresses a trace queries. -/
def queried (trace : List Event) : List Nat :=
  trace.filterMap fun
    | .virtualQuery addr => some addr
    | _ => none

/-- Where the walk gets by regions that are reported: to the minimum with the first call,
and from there always behind the region with the next one. -/
inductive AddressSpace.Reached (sys : AddressSpace) : Nat → Nat → Prop
  | minimum : Reached sys 0 sys.minimumApplicationAddress
  | behind {calls addr : Nat} {region : Region} (h : Reached sys calls addr)
    (hbelow : addr < sys.maximumApplicationAddress)
    (hquery : sys.virtualQuery calls addr = some region) :
    Reached sys (calls + 1) (addr + region.regionSize)

/-- Below the maximum, every query that is reached succeeds, and no region ends behind the
last address. -/
def AddressSpace.Covered (sys : AddressSpace) : Prop :=
  ∀ calls addr, sys.Reached calls addr → addr < sys.maximumApplicationAddress →
    ∃ region, sys.virtualQuery calls addr = some region ∧ addr + region.regionSize < 2 ^ 64

/-- The queries `addrs` go up from `addr` to the maximum. -/
structure Climb (sys : AddressSpace) (calls addr : Nat) (addrs : List Nat) : Prop where
  increasing : addrs.Pairwise (· < ·)
  bounds : ∀ a ∈ addrs, addr ≤ a ∧ a < sys.maximumApplicationAddress
  first : addr < sys.maximumApplicationAddress → addrs.head? = some addr
  last : ∀ a, addrs.getLast? = some a → ∃ region,
    sys.virtualQuery (calls + addrs.length - 1) a = some region ∧
      sys.maximumApplicationAddress ≤ a + region.regionSize

/-- The walk ends, and its queries go up from the minimum to the maximum. -/
def Climbs (drop : Nat → AddressSpace → Guest Unit) (sys : AddressSpace) (w : World) : Prop :=
  ∃ fuel v addrs, (drop fuel sys).run w = (.ok (), v) ∧
    queried v.trace = queried w.trace ++ addrs ∧ Climb sys 0 sys.minimumApplicationAddress addrs

/-! ## 1. The walk -/

namespace DropLemmas

variable {sys : AddressSpace} {walk : Walk} {w v : World} {calls addr : Nat}

theorem queried_append (es fs : List Event) : queried (es ++ fs) = queried es ++ queried fs :=
  List.filterMap_append

/-- A program that ends and queries nothing. -/
def Silent {α : Type} (x : Guest α) (P : α → Prop) : Prop :=
  ∀ w, ∃ a v, x.run w = (.ok a, v) ∧ P a ∧ queried v.trace = queried w.trace

theorem silent_pure {α : Type} {P : α → Prop} {a : α} (h : P a) : Silent (pure a) P :=
  fun w => ⟨a, w, rfl, h, rfl⟩

theorem silent_hprintf (text : Bytes) : Silent (hprintf text) fun _ => True := by
  intro w
  refine ⟨(), _, hprintf_run text w, trivial, ?_⟩
  exact (queried_append _ _).trans (List.append_nil _)

theorem Silent.bind {α β : Type} {x : Guest α} {k : α → Guest β} {P : α → Prop} {Q : β → Prop}
    (hx : Silent x P) (hk : ∀ a, P a → Silent (k a) Q) : Silent (x >>= k) Q := by
  intro w
  obtain ⟨a, u, hrun, ha, htrace⟩ := hx w
  obtain ⟨b, v, hrun', hb, htrace'⟩ := hk a ha u
  exact ⟨b, v, (Prog.run_bind_ok hrun).trans hrun', hb, htrace'.trans htrace⟩

theorem Silent.ite {α : Type} {c : Prop} [Decidable c] {x y : Guest α} {P : α → Prop}
    (hx : Silent x P) (hy : Silent y P) : Silent (if c then x else y) P := by
  split
  · exact hx
  · exact hy

/-- Printing does not move the walk. -/
theorem silent_showRegion (sys : AddressSpace) (mbi : MemoryBasicInformation) (walk : Walk) :
    Silent (showRegion sys mbi walk) fun walk' =>
      walk'.calls = walk.calls ∧ walk'.currAddr = walk.currAddr := by
  unfold showRegion
  refine Silent.ite ((silent_hprintf _).bind fun _ _ => silent_pure ⟨rfl, rfl⟩) ?_
  refine (silent_hprintf _).bind fun _ _ => ?_
  cases protectText mbi.protect with
  | some text => exact (silent_hprintf text).bind fun _ _ => silent_pure ⟨rfl, rfl⟩
  | none => exact silent_pure ⟨rfl, rfl⟩

/-- The size by which a query advances the walk. -/
def advance (sys : AddressSpace) (calls addr : Nat) : Nat :=
  match sys.virtualQuery calls addr with
  | some region => region.regionSize
  | none => 0

/-- A round below the maximum queries the address and advances. -/
theorem dropRound_run (hbelow : walk.currAddr < sys.maximumApplicationAddress) (w : World) :
    ∃ walk' v, (dropRound sys walk).run w = (.ok (.inl walk'), v) ∧
      walk'.calls = walk.calls + 1 ∧
      walk'.currAddr = (walk.currAddr + advance sys walk.calls walk.currAddr) % 2 ^ 64 ∧
      queried v.trace = queried w.trace ++ [walk.currAddr] := by
  let u := { w with trace := w.trace ++ [Event.virtualQuery walk.currAddr] }
  obtain ⟨ok, mbi, hquery, hsize⟩ : ∃ ok mbi,
      (sys.query walk.calls walk.currAddr).run w = (.ok (ok, mbi), u) ∧
        mbi.regionSize = advance sys walk.calls walk.currAddr := by
    unfold AddressSpace.query advance
    cases sys.virtualQuery walk.calls walk.currAddr with
    | some region => exact ⟨true, _, rfl, rfl⟩
    | none => exact ⟨false, _, rfl, rfl⟩
  have hu : queried u.trace = queried w.trace ++ [walk.currAddr] := queried_append _ _
  have hadvance {walk' : Walk} (h : walk'.calls = walk.calls ∧ walk'.currAddr = walk.currAddr) :
      Silent (pure (Sum.inl { walk' with
          calls := walk'.calls + 1
          currAddr := (walk'.currAddr + mbi.regionSize) % 2 ^ 64 }) : Guest (Walk ⊕ Unit))
        fun r => ∃ next : Walk, r = .inl next ∧ next.calls = walk.calls + 1 ∧
          next.currAddr = (walk.currAddr + advance sys walk.calls walk.currAddr) % 2 ^ 64 :=
    silent_pure ⟨_, rfl, by rw [h.1], by rw [h.2, hsize]⟩
  unfold dropRound
  rw [if_pos hbelow, Prog.run_bind_ok hquery]
  obtain ⟨_, v, hrun, ⟨next, rfl, hcalls, haddr⟩, htrace⟩ := Silent.ite
    (c := (ok && mbi.state = MEM_COMMIT && mbi.type = MEM_IMAGE) = true)
    ((silent_showRegion sys mbi walk).bind fun _ h => hadvance h)
    ((silent_pure (a := walk) ⟨rfl, rfl⟩).bind fun _ h => hadvance h) u
  exact ⟨next, v, hrun, hcalls, haddr, htrace.trans hu⟩

theorem dropRound_done (habove : ¬walk.currAddr < sys.maximumApplicationAddress) (w : World) :
    (dropRound sys walk).run w = (.ok (.inr ()), w) := by
  unfold dropRound
  rw [if_neg habove]
  rfl

/-- What a walk that ends has queried. Below the maximum it starts where it stands. -/
theorem queries_of_run {fuel : Nat} : ∀ {walk : Walk} {w v : World},
    (Prog.iter .timeout (dropRound sys) fuel walk).run w = (.ok (), v) →
    ∃ addrs, queried v.trace = queried w.trace ++ addrs ∧
      (walk.currAddr < sys.maximumApplicationAddress → addrs.head? = some walk.currAddr) := by
  induction fuel with
  | zero =>
    intro walk w v hrun
    cases hrun
  | succ fuel ih =>
    intro walk w v hrun
    by_cases hbelow : walk.currAddr < sys.maximumApplicationAddress
    · obtain ⟨next, u, hround, _, _, hu⟩ := dropRound_run hbelow w
      rw [Prog.run_iter_again hround] at hrun
      obtain ⟨addrs, hv, _⟩ := ih hrun
      refine ⟨walk.currAddr :: addrs, ?_, fun _ => rfl⟩
      rw [hv, hu, List.append_assoc]
      rfl
    · rw [Prog.run_iter_done (dropRound_done hbelow w)] at hrun
      cases hrun
      exact ⟨[], (List.append_nil _).symm, fun h => absurd h hbelow⟩

/-- An advance that goes up stays in a region that was reported. -/
theorem region_of_advance {next : Nat} (haddr : addr < 2 ^ 64)
    (hnext : next = (addr + advance sys calls addr) % 2 ^ 64) (hup : addr < next) :
    ∃ region, sys.virtualQuery calls addr = some region ∧
      addr + region.regionSize < 2 ^ 64 ∧ next = addr + region.regionSize := by
  unfold advance at hnext
  cases hquery : sys.virtualQuery calls addr with
  | none =>
    rw [hquery] at hnext
    dsimp only at hnext
    omega
  | some region =>
    rw [hquery] at hnext
    dsimp only at hnext
    have hsize := region.regionSize_lt
    exact ⟨region, rfl, by omega, by omega⟩

/-- A walk that ends from this address on, and goes up. -/
def Ends (sys : AddressSpace) (calls addr : Nat) : Prop :=
  ∃ fuel walk w v addrs, walk.calls = calls ∧ walk.currAddr = addr ∧
    (Prog.iter .timeout (dropRound sys) fuel walk).run w = (.ok (), v) ∧
    queried v.trace = queried w.trace ++ addrs ∧ addrs.Pairwise (· < ·)

/-- Below the maximum it goes on behind a region. -/
theorem Ends.region (h : Ends sys calls addr) (hbelow : addr < sys.maximumApplicationAddress) :
    ∃ region, sys.virtualQuery calls addr = some region ∧ addr + region.regionSize < 2 ^ 64 ∧
      Ends sys (calls + 1) (addr + region.regionSize) := by
  obtain ⟨fuel, walk, w, v, addrs, rfl, rfl, hrun, htrace, hsorted⟩ := h
  cases fuel with
  | zero => cases hrun
  | succ fuel =>
    obtain ⟨next, u, hround, hcalls, hnext, hu⟩ := dropRound_run hbelow w
    rw [Prog.run_iter_again hround] at hrun
    obtain ⟨rest, hv, hhead⟩ := queries_of_run hrun
    have haddrs : addrs = walk.currAddr :: rest := by
      rw [hv, hu, List.append_assoc] at htrace
      exact (List.append_cancel_left htrace).symm
    rw [haddrs, List.pairwise_cons] at hsorted
    have hup : walk.currAddr < next.currAddr := by
      rcases Nat.lt_or_ge next.currAddr sys.maximumApplicationAddress with hagain | habove
      · exact hsorted.1 _ (List.mem_of_mem_head? (hhead hagain))
      · exact Nat.lt_of_lt_of_le hbelow habove
    obtain ⟨region, hquery, hfits, heq⟩ :=
      region_of_advance (Nat.lt_trans hbelow sys.maximum_lt) hnext hup
    exact ⟨region, hquery, hfits, fuel, next, u, v, rest, hcalls, heq, hrun, hv, hsorted.2⟩

/-- So a walk that ends, ends from every address that is reached. -/
theorem Ends.of_reached (h : Ends sys 0 sys.minimumApplicationAddress)
    (hreached : sys.Reached calls addr) : Ends sys calls addr := by
  induction hreached with
  | minimum => exact h
  | behind _ hbelow hquery ih =>
    obtain ⟨found, hfound, _, hends⟩ := ih.region hbelow
    rw [hquery] at hfound
    obtain rfl := Option.some.inj hfound
    exact hends

theorem Ends.covered (h : Ends sys 0 sys.minimumApplicationAddress) : sys.Covered := by
  intro calls addr hreached hbelow
  obtain ⟨region, hquery, hfits, _⟩ := (h.of_reached hreached).region hbelow
  exact ⟨region, hquery, hfits⟩

/-- A round in front of a region that ends in the address space. -/
theorem advance_region {region : Region} (hquery : sys.virtualQuery calls addr = some region)
    (hfits : addr + region.regionSize < 2 ^ 64) :
    (addr + advance sys calls addr) % 2 ^ 64 = addr + region.regionSize := by
  unfold advance
  rw [hquery]
  exact Nat.mod_eq_of_lt hfits

theorem Climb.nil (habove : sys.maximumApplicationAddress ≤ addr) : Climb sys calls addr [] where
  increasing := .nil
  bounds := fun _ ha => absurd ha List.not_mem_nil
  first := fun hbelow => absurd hbelow (Nat.not_lt.mpr habove)
  last := by
    intro a ha
    cases ha

/-- One more region below. -/
theorem Climb.cons {addrs : List Nat} {region : Region}
    (hbelow : addr < sys.maximumApplicationAddress)
    (hquery : sys.virtualQuery calls addr = some region)
    (h : Climb sys (calls + 1) (addr + region.regionSize) addrs) :
    Climb sys calls addr (addr :: addrs) where
  increasing := by
    refine List.pairwise_cons.mpr ⟨fun a ha => ?_, h.increasing⟩
    have hle := (h.bounds a ha).1
    have hpos := region.regionSize_pos
    omega
  bounds := by
    refine List.forall_mem_cons.mpr ⟨⟨Nat.le_refl addr, hbelow⟩, fun a ha => ?_⟩
    obtain ⟨hle, hlt⟩ := h.bounds a ha
    exact ⟨Nat.le_trans (Nat.le_add_right addr _) hle, hlt⟩
  first _ := rfl
  last := by
    cases addrs with
    | nil =>
      intro a ha
      cases ha
      refine ⟨region, hquery, Nat.not_lt.mp fun hagain => ?_⟩
      cases h.first hagain
    | cons b bs =>
      intro a ha
      rw [List.getLast?_cons_cons] at ha
      obtain ⟨last, hlast, hreach⟩ := h.last a ha
      refine ⟨last, ?_, hreach⟩
      rw [← hlast]
      congr 1
      simp only [List.length_cons]
      omega

/-- What is left of the address space shrinks with every region. -/
theorem left_decreases (region : Region) (hbelow : addr < sys.maximumApplicationAddress) :
    sys.maximumApplicationAddress - (addr + region.regionSize) <
      sys.maximumApplicationAddress - addr := by
  have hpos := region.regionSize_pos
  omega

/-- Over a covered address space the walk ends within as many rounds as addresses are left,
and one. -/
theorem run_of_covered (h : sys.Covered) : ∀ (left : Nat) {walk : Walk} {w : World},
    sys.Reached walk.calls walk.currAddr →
    sys.maximumApplicationAddress - walk.currAddr ≤ left → ∃ v addrs,
      (Prog.iter .timeout (dropRound sys) (left + 1) walk).run w = (.ok (), v) ∧
        queried v.trace = queried w.trace ++ addrs ∧
        Climb sys walk.calls walk.currAddr addrs := by
  intro left
  induction left with
  | zero =>
    intro walk w _ hleft
    have habove : sys.maximumApplicationAddress ≤ walk.currAddr :=
      Nat.sub_eq_zero_iff_le.mp (Nat.le_zero.mp hleft)
    refine ⟨w, [], ?_, (List.append_nil _).symm, Climb.nil habove⟩
    exact Prog.run_iter_done (dropRound_done (Nat.not_lt.mpr habove) w)
  | succ left ih =>
    intro walk w hreached hleft
    rcases Nat.lt_or_ge walk.currAddr sys.maximumApplicationAddress with hbelow | habove
    · obtain ⟨region, hquery, hfits⟩ := h _ _ hreached hbelow
      obtain ⟨next, u, hround, hcalls, hnext, hu⟩ := dropRound_run hbelow w
      rw [advance_region hquery hfits] at hnext
      have hagain : sys.Reached next.calls next.currAddr := by
        rw [hcalls, hnext]
        exact .behind hreached hbelow hquery
      have hless : sys.maximumApplicationAddress - next.currAddr ≤ left := by
        rw [hnext]
        exact Nat.le_of_lt_succ (Nat.lt_of_lt_of_le (left_decreases region hbelow) hleft)
      obtain ⟨v, addrs, hrun, hv, hclimb⟩ := ih (w := u) hagain hless
      rw [hcalls, hnext] at hclimb
      refine ⟨v, walk.currAddr :: addrs, (Prog.run_iter_again hround).trans hrun, ?_, ?_⟩
      · rw [hv, hu, List.append_assoc]
        rfl
      · exact Climb.cons hbelow hquery hclimb
    · refine ⟨w, [], ?_, (List.append_nil _).symm, Climb.nil habove⟩
      exact Prog.run_iter_done (dropRound_done (Nat.not_lt.mpr habove) w)

/-- A loop whose query fails again and again stays where it is. -/
theorem loop_spins (haddr : addr < sys.maximumApplicationAddress)
    (hfail : ∀ calls, sys.virtualQuery calls addr = none) (fuel : Nat) :
    ∀ {walk : Walk} {w : World}, walk.currAddr = addr →
      ∃ v, (Prog.iter .timeout (dropRound sys) fuel walk).run w = (.error .timeout, v) := by
  induction fuel with
  | zero => exact fun _ => ⟨_, rfl⟩
  | succ fuel ih =>
    rintro walk w rfl
    obtain ⟨next, u, hround, _, hnext, _⟩ := dropRound_run haddr w
    have hstays : next.currAddr = walk.currAddr := by
      rw [hnext, advance, hfail]
      exact Nat.mod_eq_of_lt (Nat.lt_trans haddr sys.maximum_lt)
    rw [Prog.run_iter_again hround]
    exact ih hstays

end DropLemmas

open DropLemmas

theorem climbs_iff (sys : AddressSpace) (w : World) :
    Climbs dropVA sys w ↔ sys.Covered := by
  constructor
  · rintro ⟨fuel, v, addrs, hrun, htrace, hclimb⟩
    have hends : Ends sys 0 sys.minimumApplicationAddress :=
      ⟨fuel, _, w, v, addrs, rfl, rfl, hrun, htrace, hclimb.increasing⟩
    exact hends.covered
  · intro h
    let start : Walk := ⟨0, sys.minimumApplicationAddress, sys.uninit, []⟩
    have hstart : sys.Reached start.calls start.currAddr := .minimum
    obtain ⟨v, addrs, hrun, htrace, hclimb⟩ := run_of_covered h _ (w := w) hstart (Nat.le_refl _)
    exact ⟨_, v, addrs, hrun, htrace, hclimb⟩

/-! ## 2. Both agents -/

theorem dropVA_climbs_iff (sys : AddressSpace) (w : World) :
    (Climbs Gdiplus.dropVA sys w ↔ sys.Covered) ∧
      (Climbs GdiplusLoadfont.dropVA sys w ↔ sys.Covered) :=
  ⟨climbs_iff sys w, climbs_iff sys w⟩

/-- Where the first query fails whenever it is made, the walk never ends. -/
theorem dropVA_spins {sys : AddressSpace}
    (hmin : sys.minimumApplicationAddress < sys.maximumApplicationAddress)
    (hfail : ∀ calls, sys.virtualQuery calls sys.minimumApplicationAddress = none)
    (fuel : Nat) (w : World) : ∃ v, (dropVA fuel sys).run w = (.error .timeout, v) :=
  loop_spins hmin hfail fuel rfl

/-- A process that cannot be queried at all. -/
def unreadable : AddressSpace where
  minimumApplicationAddress := 0x10000
  maximumApplicationAddress := 0x7fffffeffff
  maximum_lt := by decide
  virtualQuery _ _ := none
  getModuleInformation _ _ := none
  getModuleFileName _ _ := none
  pointer _ := []
  uninit := ⟨0, 0⟩

theorem dropVA_hangs :
    ¬∃ fuel v, (Gdiplus.dropVA fuel unreadable).run freshNyxWorld = (.ok (), v) := by
  rintro ⟨fuel, v, hrun⟩
  have hmin : unreadable.minimumApplicationAddress < unreadable.maximumApplicationAddress := by
    decide
  obtain ⟨u, hspin⟩ := dropVA_spins hmin (fun _ => rfl) fuel freshNyxWorld
  have hboth := hspin.symm.trans hrun
  cases hboth

end KaflTargets
