import KaflTargets.Lib.Filters
import KaflTargets.Lib.HexText
import KaflTargets.MacInfo
import KaflTargets.RangeCommand

/-!
# Addresses from a list of symbols

Two agents ask a list of symbols for addresses. The macOS loader (`macOS_x86_64/loader/loader.c`)
reads the panic handlers from the output of `nm`. The script of the file system fuzzer
(`linux-user/fs_fuzzer/sharedir/agent.sh`) takes the first and the last symbol of a file
system from `/proc/kallsyms` and has `vmcall hrange` submit what is in between.

Results:
1. `getKernelSymbolAddr_listing`: the loader finds the first symbol of exactly that name, or
   converts what its array happened to hold.
2. `fsRange_traces`: what the script submits for a list of symbols.
-/

namespace KaflTargets

open CString Prog
open ForkServer (submitted)

/-! ## The tools -/

namespace MacLoader

/-- What `get_kernel_symbol_addr` gets from outside. -/
structure SymbolQueries where
  /-- The output of a command, or none for a null pointer. -/
  popen : Bytes → Option FILE
  /-- What stands where the array `addr` begins before it is filled, for each target. -/
  uninit : Bytes → Bytes

/-- The command, whole. -/
def symbolCommand (target : Bytes) : Bytes :=
  ascii "nm /System/Library/Kernels/kernel | grep \"" ++ target ++ ascii "\"$"

/-- `get_kernel_symbol_addr`. -/
def getKernelSymbolAddr (sys : SymbolQueries) (target : Bytes) : Guest UInt64 :=
  match sys.popen ((symbolCommand target).take 255) with
  | none => Prog.stop .invalidPointer
  | some fp =>
    match fp.fgets 17 with
    | some (addr, _) => pure (MacInfo.strtoull (cstr addr))
    | none => pure (MacInfo.strtoull (cstr (sys.uninit target)))

end MacLoader

namespace FsFuzzer

def lower (c : UInt8) : UInt8 := if 65 ≤ c && c ≤ 90 then c + 32 else c

/-- The words of the pattern `t\ _ext4\|t\ mount\|t ioctl`, without what they share. -/
def fsPrefixes : List Bytes := [ascii "_ext4", ascii "mount", ascii "ioctl"]

/-- `grep -i` with these words behind `t `. -/
def fsPattern (line : Bytes) : Bool :=
  fsPrefixes.any fun word => decide (116 :: 32 :: word <:+: line.map lower)

/-- `get_lower_range`, with the substitution around it. -/
def getLowerRange (kallsyms : Bytes) : Bytes :=
  Text.substitution 10 (Text.cut 10 32 (Text.head 10 (Text.grep 10 fsPattern kallsyms)))

/-- `get_upper_range`, with the substitution around it. -/
def getUpperRange (kallsyms : Bytes) : Bytes :=
  Text.substitution 10 (Text.cut 10 32 (Text.tail 10 (Text.grep 10 fsPattern kallsyms)))

/-- The argument of `vmcall hrange`. -/
def rangeArgument (kallsyms : Bytes) : Bytes :=
  ascii "0," ++ getLowerRange kallsyms ++ ascii "-" ++ getUpperRange kallsyms

end FsFuzzer

/-! ## The list -/

/-- A symbol as `nm` and `/proc/kallsyms` list it. -/
structure Symbol where
  addr : UInt64
  kind : UInt8
  name : Bytes
  kind_plain : kind ≠ 10 ∧ kind ≠ 32
  name_plain : 10 ∉ name ∧ 32 ∉ name

def Symbol.line (s : Symbol) : Bytes := MacInfo.hex016 s.addr ++ 32 :: s.kind :: 32 :: s.name

def listing (syms : List Symbol) : Bytes := Text.unlines 10 (syms.map Symbol.line)

namespace SymbolLemmas

theorem hex016_digits (n : UInt64) : ∀ c ∈ MacInfo.hex016 n, Scanf.isDigit 16 c = true :=
  Scanf.hexPadded_digits 16 n.toNat

theorem hex016_notMem {c : UInt8} (h : Scanf.isDigit 16 c = false) (n : UInt64) :
    c ∉ MacInfo.hex016 n := by
  intro hc
  rw [hex016_digits n c hc] at h
  cases h

theorem hex016_length (n : UInt64) : (MacInfo.hex016 n).length = 16 :=
  Scanf.length_hexPadded (by decide) n.toNat_lt

theorem hex016_value (n : UInt64) : Scanf.valueOf 16 (MacInfo.hex016 n) = n.toNat :=
  Scanf.valueOf_hexPadded 16 n.toNat

theorem hex016_ne_nil (n : UInt64) : MacInfo.hex016 n ≠ [] := Scanf.hexPadded_ne_nil 16 n.toNat

theorem line_plain (s : Symbol) : 10 ∉ s.line := by
  have hdigits := hex016_notMem (c := 10) rfl s.addr
  unfold Symbol.line
  simp [hdigits, s.kind_plain.1.symm, s.name_plain.1]

theorem lines_plain (syms : List Symbol) : ∀ body ∈ syms.map Symbol.line, 10 ∉ body := by
  intro body hbody
  obtain ⟨s, -, rfl⟩ := List.mem_map.mp hbody
  exact line_plain s

/-- What `grep` leaves of a list. -/
theorem grep_listing (pattern : Bytes → Bool) (matching : Symbol → Bool)
    (h : ∀ s : Symbol, pattern s.line = matching s) (syms : List Symbol) :
    Text.grep 10 pattern (listing syms) = listing (syms.filter matching) := by
  unfold listing
  rw [Text.grep_unlines pattern (lines_plain syms), List.filter_map]
  congr 2
  exact List.filter_congr fun s _ => h s

end SymbolLemmas

open SymbolLemmas

/-! ## 1. The panic handlers -/

namespace SymbolLemmas

/-- A line ends like this only if the symbol has the name. -/
theorem line_suffix_iff {kind : UInt8} {name : Bytes} (hname : 32 ∉ name) (s : Symbol) :
    kind :: 32 :: name <:+ s.line ↔ s.kind = kind ∧ s.name = name := by
  constructor
  · rintro ⟨before, h⟩
    have hsplit : (before ++ [kind]) ++ 32 :: name =
        (MacInfo.hex016 s.addr ++ [32, s.kind]) ++ 32 :: s.name := by
      simpa [Symbol.line] using h
    obtain ⟨hbefore, rfl⟩ := Text.last_separator hname s.name_plain.2 hsplit
    rw [show MacInfo.hex016 s.addr ++ [32, s.kind] = (MacInfo.hex016 s.addr ++ [32]) ++ [s.kind] by
      rw [List.append_assoc]; rfl] at hbefore
    have hkind : [kind] = [s.kind] := List.append_inj_right' hbefore rfl
    exact ⟨(List.singleton_inj.mp hkind).symm, rfl⟩
  · rintro ⟨rfl, rfl⟩
    exact ⟨MacInfo.hex016 s.addr ++ [32], by simp [Symbol.line]⟩

theorem strtoull_hex016 (n : UInt64) : MacInfo.strtoull (MacInfo.hex016 n) = n := by
  have hread := MacInfo.strtoull_numeral
    (.plain (hex016_ne_nil n) (hex016_digits n)) rfl (by
      show Scanf.valueOf 16 (MacInfo.hex016 n) < 2 ^ 64
      rw [hex016_value]
      exact n.toNat_lt)
  have htext : (Scanf.Numeral.plain (hex016_ne_nil n) (hex016_digits n)).text =
      MacInfo.hex016 n := rfl
  rw [htext] at hread
  exact UInt64.toNat_inj.mp (hread.trans (hex016_value n))

/-- The array of 17 bytes holds the address. -/
theorem fgets_listing (s : Symbol) (syms : List Symbol) :
    ∃ fp, FILE.fgets { data := listing (s :: syms) } 17 = some (MacInfo.hex016 s.addr, fp) := by
  have hdata : listing (s :: syms) = s.line ++ 10 :: listing syms := by
    show (s.line ++ [10]) ++ listing syms = _
    rw [List.append_assoc]
    rfl
  have hbody : (listing (s :: syms)).takeWhile (· ≠ 10) = s.line := by
    rw [hdata, List.takeWhile_append_of_pos]
    · simp
    · intro c hc
      exact decide_eq_true fun heq => line_plain s (heq ▸ hc)
  have hshort : s.line.length < (listing (s :: syms)).length := by
    rw [hdata, List.length_append]
    exact Nat.lt_add_of_pos_right (Nat.succ_pos _)
  have htake : (s.line ++ [10]).take 16 = MacInfo.hex016 s.addr := by
    unfold Symbol.line
    rw [List.append_assoc, ← hex016_length s.addr, List.take_left]
  unfold FILE.fgets
  dsimp only
  rw [hbody, if_pos hshort, htake, if_neg (by simp [hex016_ne_nil])]
  exact ⟨_, rfl⟩

end SymbolLemmas

namespace MacLoader

/-- What neither the shell nor a regular expression takes for anything else. -/
def isWord (c : UInt8) : Bool :=
  48 ≤ c && c ≤ 57 || 65 ≤ c && c ≤ 90 || c = 95 || 97 ≤ c && c ≤ 122

/-- The commands run `nm` on a kernel with these symbols. For such a kind and name, `grep` prints
the lines that end with them. -/
def SymbolQueries.Lists (sys : SymbolQueries) (syms : List Symbol) : Prop :=
  ∀ (kind : UInt8) (name : Bytes), isWord kind = true → (∀ c ∈ name, isWord c = true) →
    sys.popen (symbolCommand (kind :: 32 :: name)) =
      some { data :=
        Text.grep 10 (fun line => decide (kind :: 32 :: name <:+ line)) (listing syms) }

/-- The address of the first symbol of this kind and name. -/
def findSymbol (syms : List Symbol) (kind : UInt8) (name : Bytes) : Option UInt64 :=
  (syms.find? fun s => s.kind = kind ∧ s.name = name).map Symbol.addr

end MacLoader

open MacLoader

/-- The loader finds the first symbol of exactly this kind and name; a name that is longer or
shorter does not count. Without one it converts what its array held. The command has to fit. -/
theorem getKernelSymbolAddr_listing {sys : SymbolQueries} {syms : List Symbol}
    (h : sys.Lists syms) {kind : UInt8} {name : Bytes} (hkind : isWord kind = true)
    (hname : ∀ c ∈ name, isWord c = true) (hlength : name.length ≤ 209) (w : World) :
    (getKernelSymbolAddr sys (kind :: 32 :: name)).run w =
      (.ok ((findSymbol syms kind name).getD
        (MacInfo.strtoull (cstr (sys.uninit (kind :: 32 :: name))))), w) := by
  have hblank : 32 ∉ name := fun hmem => absurd (hname 32 hmem) (by decide)
  have hcommand : (symbolCommand (kind :: 32 :: name)).take 255 =
      symbolCommand (kind :: 32 :: name) := by
    refine List.take_of_length_le ?_
    unfold symbolCommand
    rw [List.length_append, List.length_append]
    show 42 + (name.length + 1 + 1) + 2 ≤ 255
    omega
  have hgrep := grep_listing (fun line => decide (kind :: 32 :: name <:+ line))
    (fun s => decide (s.kind = kind ∧ s.name = name))
    (fun s => decide_eq_decide.mpr (line_suffix_iff hblank s)) syms
  unfold getKernelSymbolAddr findSymbol
  rw [hcommand, h kind name hkind hname, hgrep, ← List.head?_filter]
  cases syms.filter fun s => decide (s.kind = kind ∧ s.name = name) with
  | nil => rfl
  | cons s rest =>
    obtain ⟨fp, hfgets⟩ := fgets_listing s rest
    have hcstr : cstr (MacInfo.hex016 s.addr) = MacInfo.hex016 s.addr :=
      cstr_of_noNul (hex016_notMem rfl s.addr)
    dsimp only
    rw [hfgets]
    dsimp only
    rw [hcstr, strtoull_hex016]
    rfl

/-- A kernel with a symbol whose name is longer than that of the other one. -/
def panicSymbols : List Symbol :=
  [⟨0xffffff8000300000, 84, ascii "_panic_64", by decide, by decide⟩,
    ⟨0xffffff8000200000, 84, ascii "_panic", by decide, by decide⟩]

/-- The lines that end with the target between the quotes. -/
def panicQueries : SymbolQueries where
  popen cmd :=
    let target := (cmd.drop 42).take (cmd.length - 44)
    some { data := Text.grep 10 (fun line => decide (target <:+ line)) (listing panicSymbols) }
  uninit _ := []

theorem panicQueries_lists : panicQueries.Lists panicSymbols := by
  intro kind name _ _
  have htarget : ((symbolCommand (kind :: 32 :: name)).drop 42).take
      ((symbolCommand (kind :: 32 :: name)).length - 44) = kind :: 32 :: name := by
    have hlength : (symbolCommand (kind :: 32 :: name)).length - 44 = name.length + 2 := by
      unfold symbolCommand
      rw [List.length_append, List.length_append]
      show 42 + (name.length + 1 + 1) + 2 - 44 = name.length + 2
      omega
    have hdrop : (symbolCommand (kind :: 32 :: name)).drop 42 =
        kind :: 32 :: name ++ ascii "\"$" := by
      unfold symbolCommand
      rw [List.append_assoc]
      rfl
    rw [hlength, hdrop]
    exact List.take_left' rfl
  unfold panicQueries
  dsimp only
  rw [htarget]

theorem panic_isWord : ∀ c ∈ ascii "_panic", isWord c = true :=
  List.all_eq_true.mp rfl

theorem getKernelSymbolAddr_panic :
    (getKernelSymbolAddr panicQueries (ascii "T _panic")).run freshNyxWorld =
      (.ok 0xffffff8000200000, freshNyxWorld) :=
  (getKernelSymbolAddr_listing panicQueries_lists rfl panic_isWord (by decide)
    freshNyxWorld).trans rfl

/-! ## 2. The range of a file system -/

namespace FsFuzzer

/-- A function of the file system, or one the pattern takes for one. -/
def isFs (s : Symbol) : Bool :=
  lower s.kind = 116 && fsPrefixes.any fun word => decide (word <+: s.name.map lower)

/-- The range between two addresses, if there is one. -/
def between (first last : Symbol) : List (Nat × Nat × Nat) :=
  if first.addr < last.addr then
    [(roundStart first.addr.toNat, roundEnd last.addr.toNat, 0)]
  else []

/-- What is submitted for the symbols that were asked for. -/
def fsRange (wanted : List Symbol) : List (Nat × Nat × Nat) :=
  (wanted.head?.bind fun first => wanted.getLast?.map fun last => between first last).getD []

end FsFuzzer

open FsFuzzer

namespace SymbolLemmas

theorem lower_toNat (c : UInt8) :
    (lower c).toNat = if 65 ≤ c.toNat ∧ c.toNat ≤ 90 then c.toNat + 32 else c.toNat := by
  unfold lower
  simp only [UInt8.le_iff_toNat_le, Bool.and_eq_true, decide_eq_true_eq]
  split
  · next h =>
    have hrange : 65 ≤ c.toNat ∧ c.toNat ≤ 90 := h
    rw [if_pos hrange, UInt8.toNat_add]
    exact Nat.mod_eq_of_lt (Nat.lt_of_le_of_lt (Nat.add_le_add_right hrange.2 32) (by decide))
  · next h => exact (if_neg h).symm

theorem lower_blank {c : UInt8} (h : lower c = 32) : c = 32 := by
  have hvalue := lower_toNat c
  rw [h] at hvalue
  apply UInt8.toNat_inj.mp
  split at hvalue
  · exact absurd hvalue (by simp; omega)
  · exact hvalue.symm

theorem lower_digit {c : UInt8} (h : Scanf.isDigit 16 c = true) : lower c ≠ 116 := by
  intro ht
  have hvalue := lower_toNat c
  rw [ht] at hvalue
  have hcases : c = 116 ∨ c = 84 := by
    split at hvalue
    · exact .inr (UInt8.toNat_inj.mp (Nat.add_right_cancel (m := 32) hvalue).symm)
    · exact .inl (UInt8.toNat_inj.mp hvalue.symm)
  rcases hcases with rfl | rfl
  · cases h
  · cases h

/-- A word of the pattern is found at the kind of the symbol or not at all. -/
theorem word_in_line_iff (s : Symbol) (word : Bytes) :
    116 :: 32 :: word <:+: s.line.map lower ↔ lower s.kind = 116 ∧ word <+: s.name.map lower := by
  have hbefore : 116 ∉ (MacInfo.hex016 s.addr ++ [32]).map lower := by
    rw [List.map_append, List.mem_append, not_or]
    refine ⟨fun hmem => ?_, by decide⟩
    obtain ⟨c, hc, hlower⟩ := List.mem_map.mp hmem
    exact lower_digit (hex016_digits s.addr c hc) hlower
  have hname : 32 ∉ s.name.map lower := by
    intro hmem
    obtain ⟨c, hc, hlower⟩ := List.mem_map.mp hmem
    exact s.name_plain.2 (lower_blank hlower ▸ hc)
  have hline : s.line.map lower = (MacInfo.hex016 s.addr ++ [32]).map lower ++
      lower s.kind :: 32 :: s.name.map lower := by
    simp [Symbol.line, lower]
  rw [hline, Text.infix_append_of_notMem hbefore, Text.infix_word_iff (by decide) hname]
  exact and_congr_left fun _ => eq_comm

theorem fsPattern_line (s : Symbol) : fsPattern s.line = isFs s := by
  unfold fsPattern isFs
  simp only [word_in_line_iff, Bool.decide_and]
  cases hkind : decide (lower s.kind = 116) with
  | true => simp
  | false => simp

/-- The first field of a line is the address. -/
theorem takeWhile_line (s : Symbol) : s.line.takeWhile (· ≠ 32) = MacInfo.hex016 s.addr := by
  unfold Symbol.line
  rw [List.takeWhile_append_of_pos]
  · simp
  · intro c hc
    exact decide_eq_true fun heq => hex016_notMem (c := 32) rfl s.addr (heq ▸ hc)

/-- What becomes of at most one line. -/
theorem field_unlines (found : Option Symbol) :
    Text.substitution 10 (Text.cut 10 32 (Text.unlines 10 (found.map Symbol.line).toList)) =
      (found.map fun s => MacInfo.hex016 s.addr).getD [] := by
  cases found with
  | none => rfl
  | some s =>
    have hplain : ∀ body ∈ [s.line], 10 ∉ body := fun body hbody => by
      rw [List.mem_singleton.mp hbody]
      exact line_plain s
    show Text.substitution 10 (Text.cut 10 32 (Text.unlines 10 [s.line])) = MacInfo.hex016 s.addr
    rw [Text.cut_unlines 32 hplain, List.map_singleton, takeWhile_line]
    exact Text.substitution_unlines (hex016_notMem rfl s.addr)

theorem getLowerRange_listing (syms : List Symbol) :
    getLowerRange (listing syms) =
      ((syms.filter isFs).head?.map fun s => MacInfo.hex016 s.addr).getD [] := by
  unfold getLowerRange
  rw [grep_listing fsPattern isFs fsPattern_line, listing, Text.head_unlines (lines_plain _),
    List.head?_map, field_unlines]

theorem getUpperRange_listing (syms : List Symbol) :
    getUpperRange (listing syms) =
      ((syms.filter isFs).getLast?.map fun s => MacInfo.hex016 s.addr).getD [] := by
  unfold getUpperRange
  rw [grep_listing fsPattern isFs fsPattern_line, listing, Text.tail_unlines (lines_plain _),
    List.getLast?_map, field_unlines]

/-! ### What `vmcall hrange` makes of it -/

theorem stops_cons {p : UInt8 → Bool} {c : UInt8} (rest : Bytes) (h : p c = false) :
    Scanf.Stops p (c :: rest) := fun d hd => by
  obtain rfl : c = d := Option.some.inj hd
  exact h

theorem parseRange_addresses (first last : UInt64) :
    parseRange (ascii "0," ++ MacInfo.hex016 first ++ ascii "-" ++ MacInfo.hex016 last) =
      if first < last then some (0, first.toNat, last.toNat) else none := by
  have htext : ascii "0," ++ MacInfo.hex016 first ++ ascii "-" ++ MacInfo.hex016 last =
      [48] ++ 44 :: (MacInfo.hex016 first ++ 45 :: (MacInfo.hex016 last ++ [])) := by
    rw [List.append_nil, List.append_assoc (ascii "0,"), List.append_assoc (ascii "0,"),
      List.append_assoc (MacInfo.hex016 first)]
    rfl
  have hid : Scanf.convert { kind := .lu }
      ([48] ++ 44 :: (MacInfo.hex016 first ++ 45 :: (MacInfo.hex016 last ++ []))) =
        .done (.num 0) (44 :: (MacInfo.hex016 first ++ 45 :: (MacInfo.hex016 last ++ []))) := by
    have hdigit : ∀ c ∈ ([48] : Bytes), Scanf.isDigit 10 c = true := fun c hc => by
      rw [List.mem_singleton.mp hc]
      rfl
    have hnum := Scanf.convertNum_field
      (fun neg digits => Scanf.toULong neg (Scanf.valueOf 10 digits)) (List.cons_ne_nil 48 [])
      hdigit (stops_cons (c := 44) (MacInfo.hex016 first ++ 45 :: (MacInfo.hex016 last ++ []))
        (by decide))
    have hzero : Scanf.toULong false (Scanf.valueOf 10 [48]) = 0 := by decide
    rw [hzero] at hnum
    simp only [Scanf.convert]
    exact hnum
  have hlt (n : UInt64) : Scanf.valueOf 16 (MacInfo.hex016 n) < 2 ^ 64 := by
    rw [hex016_value]
    exact n.toNat_lt
  have hnil : Scanf.Stops (fun c => Scanf.isDigit 16 c || c = 120 || c = 88) [] := by
    intro c hc
    cases hc
  have hscan : Scanf.sscanf hrangeFormat
      (ascii "0," ++ MacInfo.hex016 first ++ ascii "-" ++ MacInfo.hex016 last) =
        (3, [.num 0, .num first.toNat, .num last.toNat]) := by
    rw [htext, Scanf.sscanf, hrangeFormat, Scanf.scan, hid]
    dsimp only
    rw [Scanf.scan_lit, Scanf.scan_lx (hex016_ne_nil first) (hex016_digits first) (hlt first)
      (stops_cons _ (by decide)), Scanf.scan_lit,
      Scanf.scan_lx (hex016_ne_nil last) (hex016_digits last) (hlt last) hnil, hex016_value, hex016_value]
    rfl
  rw [RangeLemmas.parseRange_of_scan hscan]
  simp [UInt64.lt_iff_toNat_lt]

theorem acceptedPrefix_singleton (arg : Bytes) :
    acceptedPrefix [arg] = (parseRange arg).toList := by
  unfold acceptedPrefix
  cases hparse : parseRange arg with
  | none => simp [hparse]
  | some r => simp [hparse]

theorem acceptedPrefix_listing (syms : List Symbol) :
    (acceptedPrefix [rangeArgument (listing syms)]).map rounded =
      fsRange (syms.filter isFs) := by
  unfold rangeArgument fsRange
  rw [getLowerRange_listing, getUpperRange_listing]
  cases hfirst : (syms.filter isFs).head? with
  | none =>
    rw [List.head?_eq_none_iff.mp hfirst]
    rfl
  | some first =>
    cases hlast : (syms.filter isFs).getLast? with
    | none =>
      rw [List.getLast?_eq_none_iff.mp hlast] at hfirst
      cases hfirst
    | some last =>
      have hparse := parseRange_addresses first.addr last.addr
      show (acceptedPrefix [ascii "0," ++ MacInfo.hex016 first.addr ++ ascii "-" ++
        MacInfo.hex016 last.addr]).map rounded = between first last
      rw [acceptedPrefix_singleton, hparse]
      unfold between
      split_ifs
      · rfl
      · rfl

end SymbolLemmas

namespace SymbolLemmas

/-- A run of `vmcall hrange` with one argument. -/
theorem hrange_run (fuel : Nat) (arg : Bytes) (w : World) :
    ∃ w', (vmcallMain fuel [ascii "vmcall", ascii "hrange", arg]).run w = (.ok 0, w') ∧
      submitted w'.trace = submitted w.trace ++ (acceptedPrefix [arg]).map rounded := by
  have hcpu : ((w.started 1).shift).nyxCpuType ≠ .nyxCpuInvalid := InvocationLemmas.cpuType_valid w
  obtain ⟨ret, w', hrun, htrace, hret⟩ := RangeLemmas.hrangeArgs_run fuel [arg]
    ⟨w.env.uninit, w.env.uninit, w.env.uninit⟩ hcpu
  have hhandler : (handler fuel .hrange [ascii "vmcall", ascii "hrange", arg]).run
      (w.started 1).shift = (.ok ret, w') := hrun
  have hmain := InvocationLemmas.nested_run fuel (c := .hrange) (by decide) [arg] w
  refine ⟨w', (hmain.trans (InvocationLemmas.cmdVmcall_run hhandler)).trans ?_, htrace⟩
  have hstatus : ret = 0 ∨ ret = -EINVAL := by
    rw [hret]
    split
    · exact .inl rfl
    · exact .inr rfl
  rcases hstatus with rfl | rfl
  · rfl
  · rfl

end SymbolLemmas

/-- For any list of symbols, the script has the pages from the first symbol of the file system
to the last one submitted; nothing, if the last one is not above the first one. -/
theorem fsRange_traces (fuel : Nat) (w : World) (syms : List Symbol) :
    ∃ w', (vmcallMain fuel
        [ascii "vmcall", ascii "hrange", rangeArgument (listing syms)]).run w = (.ok 0, w') ∧
      submitted w'.trace = submitted w.trace ++ fsRange (syms.filter isFs) := by
  obtain ⟨w', hrun, htrace⟩ := hrange_run fuel (rangeArgument (listing syms)) w
  rw [acceptedPrefix_listing] at htrace
  exact ⟨w', hrun, htrace⟩

/-- The last function of the file system begins with a page, so it is not in the range. -/
example : fsRange (List.filter isFs
    [⟨0xffffffff81000000, 84, ascii "_text", by decide, by decide⟩,
      ⟨0xffffffff81001234, 116, ascii "_ext4_get_block", by decide, by decide⟩,
      ⟨0xffffffff81002000, 84, ascii "mount_bdev", by decide, by decide⟩,
      ⟨0xffffffff81003000, 116, ascii "ext4_mount", by decide, by decide⟩]) =
    [(0xffffffff81001000, 0xffffffff81002000, 0)] := by
  decide +kernel

end KaflTargets
