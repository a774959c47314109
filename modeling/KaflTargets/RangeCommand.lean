import KaflTargets.DetectRanges
import KaflTargets.Invocation

/-!
# The ranges that `vmcall hrange` submits

`cmd_hrange` parses its arguments one by one into three variables and submits
each range before it looks at the next argument. What it makes of an argument
is a function of the argument alone (`parseRange`), so a run submits the rounded
ranges of the accepted prefix of its arguments.

Two things go wrong on single arguments. The end of a range is rounded up in 64
bits, so an end in the last page of the address space becomes 0. And `sscanf`
accepts more than `id,start-end`: blanks and signs in front of the numbers,
numbers that do not fit, and anything behind the third number.

Results:
1. `hrange_list`: a run of the command on any list of arguments.
2. `hrange_rounding_iff`: when a submitted range is the smallest cover.
3. `hrange_grammar_iff`: when an argument is treated as its form says.
-/

namespace KaflTargets

open CString Prog
open ForkServer (submitted)

/-! ## Arguments -/

/-- What `cmd_hrange` makes of an argument: the id, the start and the end of a
range, or nothing. -/
def parseRange (a : Bytes) : Option (Nat × Nat × Nat) :=
  let (n, vals) := Scanf.sscanf hrangeFormat a
  match vals with
  | [.num id, .num start, .num stop] =>
    if n = 3 ∧ id ≤ 3 ∧ start < stop then some (id, start, stop) else none
  | _ => none

/-- What is submitted for an accepted argument: start, end and id. -/
def rounded (r : Nat × Nat × Nat) : Nat × Nat × Nat := (roundStart r.2.1, roundEnd r.2.2, r.1)

/-- The ranges of the longest prefix of accepted arguments. -/
def acceptedPrefix (args : List Bytes) : List (Nat × Nat × Nat) :=
  (args.takeWhile fun a => (parseRange a).isSome).filterMap parseRange

namespace RangeLemmas

variable {a : Bytes} {id start stop : Nat} {r : Nat × Nat × Nat}

theorem parseRange_eq_some (h : parseRange a = some (id, start, stop)) :
    Scanf.sscanf hrangeFormat a = (3, [.num id, .num start, .num stop]) ∧ id ≤ 3 ∧
      start < stop := by
  cases hscan : Scanf.sscanf hrangeFormat a with
  | mk n vals =>
    simp only [parseRange, hscan] at h
    split at h
    · next hvals =>
      split at h
      · next hcond =>
        obtain ⟨rfl, hrest⟩ := Prod.mk.inj (Option.some.inj h)
        obtain ⟨rfl, rfl⟩ := Prod.mk.inj hrest
        exact ⟨by rw [hcond.1], hcond.2⟩
      · cases h
    · cases h

theorem parseRange_of_scan
    (hscan : Scanf.sscanf hrangeFormat a = (3, [.num id, .num start, .num stop])) :
    parseRange a = if id ≤ 3 ∧ start < stop then some (id, start, stop) else none := by
  simp only [parseRange, hscan, true_and]

/-! ### One round of the loop -/

theorem hrangeArgs_accepted (h : parseRange a = some r) (fuel : Nat) (vars : RangeVars)
    (as : List Bytes) :
    hrangeArgs fuel vars (a :: as) = hrangeSubmit fuel r.1 (rounded r).1 (rounded r).2.1 >>=
      fun _ => hrangeArgs fuel ⟨r.1, (rounded r).1, (rounded r).2.1⟩ as := by
  obtain ⟨id, start, stop⟩ := r
  obtain ⟨hscan, hid, hlt⟩ := parseRange_eq_some h
  simp only [hrangeArgs, hscan, RangeVars.assign, ne_eq, not_true_eq_false, if_false,
    if_neg (Nat.not_lt.mpr hid), ge_iff_le, if_neg (Nat.not_le.mpr hlt), rounded]

theorem hrangeArgs_rejected (h : parseRange a = none) (fuel : Nat) (vars : RangeVars)
    (as : List Bytes) : hrangeArgs fuel vars (a :: as) = pure (-EINVAL) := by
  cases hscan : Scanf.sscanf hrangeFormat a with
  | mk n vals =>
    by_cases hn : n = 3
    · subst hn
      obtain ⟨id, start, stop, rfl⟩ := InvocationLemmas.hrange_vals hscan
      rw [parseRange_of_scan hscan] at h
      have hcond : ¬(id ≤ 3 ∧ start < stop) := by
        intro hcond
        rw [if_pos hcond] at h
        cases h
      simp only [hrangeArgs, hscan, RangeVars.assign, ne_eq, not_true_eq_false, if_false]
      split
      · rfl
      · next hid =>
        rw [if_pos]
        exact Nat.not_lt.mp fun hlt => hcond ⟨Nat.not_lt.mp hid, hlt⟩
    · simp only [hrangeArgs, hscan, ne_eq, hn, not_false_eq_true, if_true]

/-- The loop, whatever its variables hold. -/
theorem hrangeArgs_run (fuel : Nat) : ∀ (args : List Bytes) (vars : RangeVars) {w : World},
    w.nyxCpuType ≠ .nyxCpuInvalid →
    ∃ ret w', (hrangeArgs fuel vars args).run w = (.ok ret, w') ∧
      submitted w'.trace = submitted w.trace ++ (acceptedPrefix args).map rounded ∧
      ret = if ∀ a ∈ args, (parseRange a).isSome = true then 0 else -EINVAL
  | [], vars, w, _ => ⟨0, w, rfl, by simp [acceptedPrefix], by simp⟩
  | a :: as, vars, w, hcpu => by
    cases hparse : parseRange a with
    | none =>
      refine ⟨-EINVAL, w, ?_, ?_, ?_⟩
      · rw [hrangeArgs_rejected hparse, Prog.run_pure]
      · simp [acceptedPrefix, hparse]
      · rw [if_neg]
        intro hall
        have ha := hall a List.mem_cons_self
        rw [hparse] at ha
        cases ha
    | some r =>
      obtain ⟨w₁, hsubmit, hcpu₁, htrace₁⟩ := ForkServer.DetectLemmas.hrangeSubmit_run hcpu fuel
        r.1 (rounded r).1 (rounded r).2.1
      obtain ⟨ret, w', hrun, htrace, hret⟩ := hrangeArgs_run fuel as
        ⟨r.1, (rounded r).1, (rounded r).2.1⟩ (hcpu₁ ▸ hcpu)
      refine ⟨ret, w', ?_, ?_, ?_⟩
      · rw [hrangeArgs_accepted hparse, Prog.run_bind_ok hsubmit, hrun]
      · rw [htrace, htrace₁]
        simp [acceptedPrefix, hparse, rounded]
      · rw [hret]
        simp [hparse]

end RangeLemmas

open RangeLemmas

/-! ## 1. A run of the command -/

/-- The command submits the rounded ranges of the longest prefix of accepted
arguments, in order and once each, and returns 0 exactly if that are all. -/
theorem hrange_list (fuel : Nat) (argv : List Bytes) {w : World}
    (hcpu : w.nyxCpuType ≠ .nyxCpuInvalid) :
    ∃ ret w', (cmdHrange fuel argv).run w = (.ok ret, w') ∧
      submitted w'.trace =
        submitted w.trace ++ (acceptedPrefix (argv.drop w.optind)).map rounded ∧
      ret = if ∀ a ∈ argv.drop w.optind, (parseRange a).isSome = true then 0 else -EINVAL :=
  hrangeArgs_run fuel (argv.drop w.optind) _ hcpu

/-- The two ranges of the agent's test script. -/
theorem hrange_list_agent :
    ∃ ret w', (cmdHrange 1 [ascii "hrange", ascii "0,101100-202500", ascii "1,200000-23423432"]).run
        freshNyxWorld = (.ok ret, w') ∧
      submitted w'.trace = [(0x101000, 0x203000, 0), (0x200000, 0x23424000, 1)] ∧ ret = 0 := by
  obtain ⟨ret, w', hrun, htrace, hret⟩ := hrange_list 1
    [ascii "hrange", ascii "0,101100-202500", ascii "1,200000-23423432"] (w := freshNyxWorld)
    (by decide)
  refine ⟨ret, w', hrun, ?_, ?_⟩
  · rw [htrace]
    decide +kernel
  · rw [hret]
    decide +kernel

/-! ## What the conversions read -/

/-- An argument of which three numbers were read: their texts, and what is
behind them. -/
structure Fields where
  id : Scanf.Numeral 10
  start : Scanf.Numeral 16
  stop : Scanf.Numeral 16
  rest : Bytes

namespace Fields

variable (f : Fields)

def text : Bytes :=
  f.id.text ++ 44 :: (f.start.text ++ 45 :: (f.stop.text ++ f.rest))

def value {base : Nat} (n : Scanf.Numeral base) : Nat :=
  Scanf.toULong n.neg (Scanf.valueOf base n.digits)

end Fields

/-- The format with one more conversion, which tells whether anything is left. -/
def hrangeFormatEnd : List Scanf.Directive := hrangeFormat ++ [.conv { kind := .c }]

namespace RangeLemmas

open Scanf

variable {s : Bytes} {ds : List Directive} {converted : Bool} {vals vals' : List Val}

theorem toULong_lt (neg : Bool) (v : Nat) : toULong neg v < 2 ^ 64 := by
  unfold toULong
  split
  · omega
  · split
    · exact Nat.mod_lt _ (by omega)
    · omega

theorem atEnd_ne (hlen : vals.length < 3) : (atEnd converted vals).1 ≠ 3 := by
  simp only [atEnd]
  split <;> omega

/-- A number of a scan that reads three: what it was read from. -/
theorem scan_numeral {spec : Conv} {b : Nat} (hspec : ∀ t, convert spec t =
      convertNum b none t fun neg digits => toULong neg (valueOf b digits))
    (hsuppress : spec.suppress = false) (hlen : vals.length < 3)
    (h : scan (.conv spec :: ds) s converted vals = (3, vals')) :
    ∃ (n : Numeral b) (rest : Bytes), s = n.text ++ rest ∧
      convert spec s = .done (.num (Fields.value n)) rest ∧
      scan ds rest true (vals ++ [.num (Fields.value n)]) = (3, vals') := by
  cases hconv : convert spec s with
  | done v rest =>
    obtain ⟨n, hs, rfl⟩ := convertNum_done (hspec s ▸ hconv)
    simp only [scan, hconv, hsuppress, Bool.false_eq_true, if_false] at h
    exact ⟨n, rest, hs, rfl, h⟩
  | mismatch =>
    simp only [scan, hconv, Prod.mk.injEq] at h
    omega
  | ended =>
    simp only [scan, hconv] at h
    exact absurd (congrArg Prod.fst h) (atEnd_ne hlen)

/-- An ordinary character of such a scan is there. -/
theorem scan_literal {c : UInt8} (hlen : vals.length < 3)
    (h : scan (.lit c :: ds) s converted vals = (3, vals')) :
    ∃ t, s = c :: t ∧ scan ds t converted vals = (3, vals') := by
  cases s with
  | nil => exact absurd (congrArg Prod.fst h) (atEnd_ne hlen)
  | cons b t =>
    simp only [scan] at h
    split at h
    · next hb => exact ⟨t, by rw [hb], h⟩
    · simp only [Prod.mk.injEq] at h
      omega

/-- An argument of which three numbers are read. -/
theorem fields_of_scan (h : sscanf hrangeFormat s = (3, vals)) :
    ∃ f : Fields, s = f.text ∧
      vals = [.num (Fields.value f.id), .num (Fields.value f.start), .num (Fields.value f.stop)] ∧
      (sscanf hrangeFormatEnd s).1 = if f.rest = [] then 3 else 4 := by
  obtain ⟨id, t₁, hs₁, hconv₁, h⟩ := scan_numeral (b := 10) (fun _ => rfl) rfl (by simp) h
  obtain ⟨u₁, rfl, h⟩ := scan_literal (by simp) h
  obtain ⟨start, t₂, rfl, hconv₂, h⟩ := scan_numeral (b := 16) (fun _ => rfl) rfl (by simp) h
  obtain ⟨u₂, rfl, h⟩ := scan_literal (by simp) h
  obtain ⟨stop, rest, rfl, hconv₃, h⟩ := scan_numeral (b := 16) (fun _ => rfl) rfl (by simp) h
  refine ⟨⟨id, start, stop, rest⟩, hs₁, ?_, ?_⟩
  · simp only [scan, Prod.mk.injEq] at h
    exact h.2.symm
  · have hend : sscanf hrangeFormatEnd s =
        scan [.conv { kind := .c }] rest true [.num (Fields.value id),
          .num (Fields.value start), .num (Fields.value stop)] := by
      simp only [sscanf, hrangeFormatEnd, hrangeFormat, List.cons_append, List.nil_append, scan,
        hconv₁, hconv₂, hconv₃, Bool.false_eq_true, if_false, if_true]
    rw [hend]
    cases rest with
    | nil => rfl
    | cons c rest => rfl

/-- An accepted argument and its fields. -/
theorem fields_of_parse {id start stop : Nat} (h : parseRange s = some (id, start, stop)) :
    ∃ f : Fields, s = f.text ∧ id = Fields.value f.id ∧ start = Fields.value f.start ∧
      stop = Fields.value f.stop ∧ (sscanf hrangeFormatEnd s).1 = if f.rest = [] then 3 else 4 := by
  obtain ⟨f, hs, hvals, hend⟩ := fields_of_scan (parseRange_eq_some h).1
  simp only [List.cons.injEq, Val.num.injEq, and_true] at hvals
  exact ⟨f, hs, hvals.1, hvals.2.1, hvals.2.2, hend⟩

theorem parseRange_lt {id start stop : Nat} (h : parseRange s = some (id, start, stop)) :
    stop < 2 ^ 64 := by
  obtain ⟨f, _, _, _, rfl, _⟩ := fields_of_parse h
  exact toULong_lt _ _

end RangeLemmas

/-! ## 2. Rounding -/

/-- The page range `[s, e)` is the smallest that covers `[start, stop)`. -/
structure SmallestCover (start stop s e : Nat) : Prop where
  start_aligned : 4096 ∣ s
  stop_aligned : 4096 ∣ e
  start_le : s ≤ start
  start_lt : start < s + 4096
  stop_le : stop ≤ e
  stop_lt : e < stop + 4096
  nonempty : s < e

namespace RangeLemmas

variable {start stop : Nat}

theorem and_page (x : Nat) : x &&& 0xfff = x % 4096 := Nat.and_two_pow_sub_one_eq_mod x 12

theorem roundStart_eq (start : Nat) : roundStart start = start / 4096 * 4096 := by
  rw [roundStart, and_page, PAGE_SIZE]
  split <;> omega

/-- Below the last page, the end is rounded up to a page boundary. -/
theorem roundEnd_eq (h : stop ≤ 0xfffffffffffff000) :
    roundEnd stop = (stop + 4095) / 4096 * 4096 := by
  rw [roundEnd, and_page, PAGE_SIZE]
  split
  · next hmod =>
    have hlt : (stop / 4096 + 1) * 4096 < 2 ^ 64 := by omega
    rw [Nat.mod_eq_of_lt hlt]
    omega
  · omega

/-- In the last page, the rounded end wraps around. -/
theorem roundEnd_wraps (h : 0xfffffffffffff000 < stop) (h64 : stop < 2 ^ 64) :
    roundEnd stop = 0 := by
  have hpage : stop / 4096 = 0xfffffffffffff := by omega
  have hmod : stop % 4096 ≠ 0 := by omega
  have hwrap : (0xfffffffffffff + 1) * 4096 % 2 ^ 64 = 0 := by decide
  rw [roundEnd, and_page, PAGE_SIZE, if_pos hmod, hpage, hwrap]

theorem smallestCover_iff (hlt : start < stop) (h64 : stop < 2 ^ 64) :
    SmallestCover start stop (roundStart start) (roundEnd stop) ↔ stop ≤ 0xfffffffffffff000 := by
  constructor
  · intro h
    by_contra hlast
    have hwrap := roundEnd_wraps (Nat.not_le.mp hlast) h64
    have hle := h.stop_le
    rw [hwrap] at hle
    exact absurd (Nat.lt_of_lt_of_le hlt hle) (Nat.not_lt_zero start)
  · intro hle
    rw [roundStart_eq, roundEnd_eq hle]
    exact ⟨Nat.dvd_mul_left _ _, Nat.dvd_mul_left _ _, by omega, by omega, by omega, by omega,
      by omega⟩

theorem acceptedPrefix_parsed {args : List Bytes} {r : Nat × Nat × Nat}
    (h : r ∈ acceptedPrefix args) : ∃ a, parseRange a = some r := by
  obtain ⟨a, _, ha⟩ := List.mem_filterMap.mp h
  exact ⟨a, ha⟩

end RangeLemmas

/-- The ranges a run submits: each is the smallest cover of the range that was
asked for exactly if its end is not in the last page of the address space, or at
the start of it. -/
theorem hrange_rounding_iff (fuel : Nat) (argv : List Bytes) {w : World}
    (hcpu : w.nyxCpuType ≠ .nyxCpuInvalid) :
    ∃ ret w', (cmdHrange fuel argv).run w = (.ok ret, w') ∧
      submitted w'.trace =
        submitted w.trace ++ (acceptedPrefix (argv.drop w.optind)).map rounded ∧
      ∀ r ∈ acceptedPrefix (argv.drop w.optind),
        (SmallestCover r.2.1 r.2.2 (rounded r).1 (rounded r).2.1 ↔ r.2.2 ≤ 0xfffffffffffff000) := by
  obtain ⟨ret, w', hrun, htrace, _⟩ := hrangeArgs_run fuel (argv.drop w.optind)
    ⟨w.env.uninit, w.env.uninit, w.env.uninit⟩ hcpu
  refine ⟨ret, w', hrun, htrace, ?_⟩
  rintro ⟨id, start, stop⟩ hr
  obtain ⟨a, ha⟩ := acceptedPrefix_parsed hr
  exact smallestCover_iff (parseRange_eq_some ha).2.2 (parseRange_lt ha)

/-- The range `1100-1500` of the agent's test script becomes one page. -/
theorem hrange_rounding_agent :
    ∃ ret w', (cmdHrange 1 [ascii "hrange", ascii "0,1100-1500"]).run freshNyxWorld =
        (.ok ret, w') ∧
      submitted w'.trace = [(0x1000, 0x2000, 0)] ∧ SmallestCover 0x1100 0x1500 0x1000 0x2000 := by
  obtain ⟨ret, w', hrun, htrace, hcover⟩ := hrange_rounding_iff 1
    [ascii "hrange", ascii "0,1100-1500"] (w := freshNyxWorld) (by decide)
  refine ⟨ret, w', hrun, ?_, ?_⟩
  · rw [htrace]
    decide +kernel
  · exact (hcover (0, 0x1100, 0x1500) (by decide +kernel)).mpr (by decide)

/-- The last page of the address space is submitted with the end 0. -/
theorem hrange_wraps :
    ∃ ret w', (cmdHrange 1 [ascii "hrange", ascii "0,fffffffffffff000-ffffffffffffffff"]).run
        freshNyxWorld = (.ok ret, w') ∧
      submitted w'.trace = [(0xfffffffffffff000, 0, 0)] ∧
      ¬SmallestCover 0xfffffffffffff000 0xffffffffffffffff 0xfffffffffffff000 0 := by
  obtain ⟨ret, w', hrun, htrace, _⟩ := @hrangeArgs_run 1
    [ascii "0,fffffffffffff000-ffffffffffffffff"] ⟨0, 0, 0⟩ freshNyxWorld (by decide)
  refine ⟨ret, w', hrun, ?_, fun h => absurd h.stop_le (by decide)⟩
  rw [htrace]
  decide +kernel

/-! ## 3. The form of an argument -/

/-- A hexadecimal number below 2^64, with the prefix `0x` if that is allowed. -/
def HexNumber (prefixed : Bool) (text : Bytes) (v : Nat) : Prop :=
  ∃ digits, digits ≠ [] ∧ (∀ c ∈ digits, Scanf.isDigit 16 c = true) ∧
    v = Scanf.valueOf 16 digits ∧ v < 2 ^ 64 ∧
    (text = digits ∨ prefixed = true ∧ ∃ x, (x = 120 ∨ x = 88) ∧ text = 48 :: x :: digits)

/-- The form `id,start-end`, for the whole of `s`. -/
def RangeForm (prefixed : Bool) (s : Bytes) (r : Nat × Nat × Nat) : Prop :=
  ∃ digits start stop, s = digits ++ 44 :: (start ++ 45 :: stop) ∧ digits ≠ [] ∧
    (∀ c ∈ digits, Scanf.isDigit 10 c = true) ∧ r.1 = Scanf.valueOf 10 digits ∧ r.1 ≤ 3 ∧
    HexNumber prefixed start r.2.1 ∧ HexNumber prefixed stop r.2.2 ∧ r.2.1 < r.2.2

/-- What the form promises for an argument: a range of that form is submitted
rounded, and for any other argument nothing. -/
def FollowsForm (prefixed : Bool) (s : Bytes) (ret : Int) (before after : List (Nat × Nat × Nat)) :
    Prop :=
  (∃ r, RangeForm prefixed s r ∧ ret = 0 ∧ after = before ++ [rounded r]) ∨
    ((∀ r, ¬RangeForm prefixed s r) ∧ ret = -EINVAL ∧ after = before)

/-- A blank or a sign, which `sscanf` takes in front of a number. -/
def leading (c : UInt8) : Bool := Scanf.isspace c || c = 43 || c = 45

/-- The number at the end of an argument. -/
def lastNumber (s : Bytes) : Nat :=
  Scanf.valueOf 16 (s.reverse.takeWhile (Scanf.isDigit 16)).reverse

/-- An argument with nothing in it that `sscanf` reads and the form does not
know: the only blank or sign is the dash, nothing is left behind the third
number, and that number fits. -/
structure Exact (prefixed : Bool) (s : Bytes) : Prop where
  dash : s.filter leading = [45]
  consumed : (Scanf.sscanf hrangeFormatEnd s).1 = 3
  fits : lastNumber s < 2 ^ 64
  bare : prefixed = false → ∀ c ∈ s, c ≠ 120 ∧ c ≠ 88

namespace RangeLemmas

open Scanf

variable {base : Nat} {c : UInt8} {s digits : Bytes} {f : Fields} {prefixed : Bool}

theorem toULong_false {v : Nat} (h : v < 2 ^ 64) : toULong false v = v := by
  rw [toULong, if_neg (Nat.not_le.mpr h), if_neg Bool.false_ne_true]

/-- A number that is not `ULONG_MAX` is the one that is written. -/
theorem toULong_small {v : Nat} (h : toULong false v < 2 ^ 64 - 1) : toULong false v = v := by
  unfold toULong at h ⊢
  split at h
  · exact absurd h (Nat.lt_irrefl _)
  · next hlt => rw [if_neg hlt, if_neg Bool.false_ne_true]

theorem leading_digit (h : isDigit base c = true) : leading c = false := by
  have hle := isDigit_bounds h
  have hne : ∀ d : UInt8, d.toNat < 48 → c ≠ d := by
    rintro d hd rfl
    omega
  simp [leading, not_isspace_of_isDigit h, hne 43 (by decide), hne 45 (by decide)]

theorem leading_pre (n : Numeral base) : ∀ c ∈ n.pre, leading c = false := by
  intro c hc
  rcases n.prefixed with hp | ⟨_, x, rfl | rfl, hp⟩
  · simp [hp] at hc
  all_goals
    rw [hp] at hc
    rcases List.mem_cons.mp hc with rfl | hc
    · decide
    · rw [List.mem_singleton.mp hc]
      decide

/-- The blanks and signs of a numeral. -/
theorem countP_text (n : Numeral base) :
    n.text.countP leading = n.blanks.length + n.sign.length := by
  have hblanks : n.blanks.countP leading = n.blanks.length :=
    List.countP_eq_length.mpr fun c hc => by simp [leading, n.blank c hc]
  have hsign : n.sign.countP leading = n.sign.length := by
    rcases n.signed with hs | hs | hs <;> rw [hs] <;> rfl
  have hpre : n.pre.countP leading = 0 :=
    List.countP_eq_zero.mpr fun c hc => by simp [leading_pre n c hc]
  have hdigits : n.digits.countP leading = 0 :=
    List.countP_eq_zero.mpr fun c hc => by simp [leading_digit (n.digit c hc)]
  simp only [Numeral.text, List.countP_append, hblanks, hsign, hpre, hdigits]
  omega

/-- A scan of the three fields. -/
theorem scan_fields (f : Fields)
    (hrest : Stops (fun c => isDigit 16 c || c = 120 || c = 88) f.rest) (ds : List Directive) :
    sscanf (hrangeFormat ++ ds) f.text = scan ds f.rest true
      [.num (Fields.value f.id), .num (Fields.value f.start), .num (Fields.value f.stop)] := by
  have hcomma : Stops (fun c => isDigit 10 c || c = 120 || c = 88)
      (44 :: (f.start.text ++ 45 :: (f.stop.text ++ f.rest))) :=
    ForkServer.DetectLemmas.stops_cons (by decide)
  have hdash : Stops (fun c => isDigit 16 c || c = 120 || c = 88)
      (45 :: (f.stop.text ++ f.rest)) := ForkServer.DetectLemmas.stops_cons (by decide)
  simp only [sscanf, hrangeFormat, List.cons_append, List.nil_append, Fields.text, scan, convert,
    convertNum_numeral f.id _ hcomma, convertNum_numeral f.start _ hdash,
    convertNum_numeral f.stop _ hrest, Bool.false_eq_true, if_false, if_true, Fields.value]

theorem lastNumber_append {d : UInt8} (hd : isDigit 16 d = false)
    (hds : ∀ c ∈ digits, isDigit 16 c = true) (w : Bytes) :
    lastNumber (w ++ d :: digits) = valueOf 16 digits := by
  have hreverse : (w ++ d :: digits).reverse = digits.reverse ++ (d :: w.reverse) := by simp
  rw [lastNumber, hreverse, takeWhile_stops (fun c hc => hds c (List.mem_reverse.mp hc))
    (ForkServer.DetectLemmas.stops_cons hd), List.reverse_reverse]

/-- Nothing in front of the digits but a prefix. -/
structure Clean {base : Nat} (prefixed : Bool) (n : Numeral base) : Prop where
  blanks : n.blanks = []
  sign : n.sign = []
  bare : prefixed = false → n.pre = []

theorem Clean.text {n : Numeral base} (h : Clean prefixed n) : n.text = n.pre ++ n.digits := by
  rw [Numeral.text, h.blanks, h.sign, List.nil_append, List.nil_append]

theorem Clean.neg {n : Numeral base} (h : Clean prefixed n) : n.neg = false := by
  rw [Numeral.neg, h.sign]
  rfl

theorem pre_decimal (n : Numeral 10) : n.pre = [] := by
  rcases n.prefixed with hp | ⟨hbase, _⟩
  · exact hp
  · cases hbase

theorem hexNumber_iff {text : Bytes} {v : Nat} :
    HexNumber prefixed text v ↔ ∃ n : Numeral 16, Clean prefixed n ∧ text = n.text ∧
      v = valueOf 16 n.digits ∧ v < 2 ^ 64 := by
  constructor
  · rintro ⟨digits, hne, hds, hv, hlt, rfl | ⟨rfl, x, hx, rfl⟩⟩
    · exact ⟨.plain hne hds, ⟨rfl, rfl, fun _ => rfl⟩, rfl, hv, hlt⟩
    · exact ⟨⟨[], [], [48, x], digits, by simp, .inl rfl, .inr ⟨rfl, x, hx, rfl⟩, hne, hds⟩,
        ⟨rfl, rfl, fun h => by cases h⟩, rfl, hv, hlt⟩
  · rintro ⟨n, hclean, rfl, hv, hlt⟩
    refine ⟨n.digits, n.nonempty, n.digit, hv, hlt, ?_⟩
    rw [hclean.text]
    rcases n.prefixed with hp | ⟨_, x, hx, hp⟩
    · exact .inl (by rw [hp, List.nil_append])
    · refine .inr ⟨?_, x, hx, by rw [hp]; rfl⟩
      cases prefixed with
      | true => rfl
      | false =>
        have hbare := hclean.bare rfl
        rw [hp] at hbare
        cases hbare

/-- The form in terms of the fields. -/
theorem rangeForm_iff {id start stop : Nat} :
    RangeForm prefixed s (id, start, stop) ↔
      ∃ f : Fields, s = f.text ∧ Clean prefixed f.id ∧ Clean prefixed f.start ∧
        Clean prefixed f.stop ∧ f.rest = [] ∧ id = valueOf 10 f.id.digits ∧ id ≤ 3 ∧
        start = valueOf 16 f.start.digits ∧ stop = valueOf 16 f.stop.digits ∧ start < stop ∧
        stop < 2 ^ 64 := by
  constructor
  · rintro ⟨digits, h, h', hs, hne, hds, hid, hle, hstart, hstop, hlt⟩
    obtain ⟨n, hn, rfl, hv, _⟩ := hexNumber_iff.mp hstart
    obtain ⟨n', hn', rfl, hv', hlt'⟩ := hexNumber_iff.mp hstop
    refine ⟨⟨.plain hne hds, n, n', []⟩, ?_, ⟨rfl, rfl, fun _ => rfl⟩, hn, hn', rfl, hid, hle, hv,
      hv', hlt, hlt'⟩
    rw [hs, Fields.text, List.append_nil]
    rfl
  · rintro ⟨f, rfl, hid, hstart, hstop, hrest, rfl, hle, rfl, rfl, hlt, hlt'⟩
    refine ⟨f.id.digits, f.start.text, f.stop.text, ?_, f.id.nonempty, f.id.digit, rfl, hle,
      hexNumber_iff.mpr ⟨f.start, hstart, rfl, rfl, Nat.lt_trans hlt hlt'⟩,
      hexNumber_iff.mpr ⟨f.stop, hstop, rfl, rfl, hlt'⟩, hlt⟩
    rw [Fields.text, hrest, List.append_nil, hid.text, pre_decimal, List.nil_append]

/-- The number at the end of fields with nothing behind them. -/
theorem lastNumber_text (hstop : Clean prefixed f.stop) (hrest : f.rest = []) :
    lastNumber f.text = valueOf 16 f.stop.digits := by
  have hshape : ∃ w d, f.text = w ++ d :: f.stop.digits ∧ isDigit 16 d = false := by
    rw [Fields.text, hrest, List.append_nil, hstop.text]
    rcases f.stop.prefixed with hp | ⟨_, x, hx, hp⟩
    · exact ⟨f.id.text ++ 44 :: f.start.text, 45, by simp [hp], by decide⟩
    · refine ⟨f.id.text ++ 44 :: (f.start.text ++ [45, 48]), x, by simp [hp], ?_⟩
      rcases hx with rfl | rfl <;> decide
  obtain ⟨w, d, htext, hd⟩ := hshape
  rw [htext]
  exact lastNumber_append hd f.stop.digit w

theorem countP_fields : f.text.countP leading =
    (f.id.blanks.length + f.id.sign.length) + (f.start.blanks.length + f.start.sign.length) +
      (f.stop.blanks.length + f.stop.sign.length) + f.rest.countP leading + 1 := by
  have hcomma : leading 44 = false := by decide
  have hdash : leading 45 = true := by decide
  simp only [Fields.text, List.countP_append, List.countP_cons, countP_text, hcomma, hdash,
    Bool.false_eq_true, if_false, if_true]
  omega

theorem filter_leading : s.countP leading = 1 → 45 ∈ s → s.filter leading = [45] := by
  intro hcount hmem
  rw [List.countP_eq_length_filter, List.length_eq_one_iff] at hcount
  obtain ⟨c, hc⟩ := hcount
  have hdash : (45 : UInt8) ∈ s.filter leading := List.mem_filter.mpr ⟨hmem, by decide⟩
  rw [hc] at hdash ⊢
  rw [List.mem_singleton.mp hdash]

/-- An argument of the form is accepted, with its values, and is exact. -/
theorem rangeForm_accepted {r : Nat × Nat × Nat} (h : RangeForm prefixed s r) :
    parseRange s = some r ∧ Exact prefixed s := by
  obtain ⟨id, start, stop⟩ := r
  obtain ⟨f, rfl, hid, hstart, hstop, hrest, hv, hle, hv', hv'', hlt, hlt'⟩ := rangeForm_iff.mp h
  have hstops : Stops (fun c => isDigit 16 c || c = 120 || c = 88) f.rest := by
    rw [hrest]
    simp [Stops]
  have hscan := scan_fields f hstops
  have hvalues : Fields.value f.id = id ∧ Fields.value f.start = start ∧
      Fields.value f.stop = stop := by
    unfold Fields.value
    rw [hid.neg, hstart.neg, hstop.neg, ← hv, ← hv', ← hv'']
    exact ⟨toULong_false (by omega), toULong_false (Nat.lt_trans hlt hlt'), toULong_false hlt'⟩
  rw [hvalues.1, hvalues.2.1, hvalues.2.2, hrest] at hscan
  constructor
  · rw [parseRange_of_scan (by simpa [scan] using hscan []), if_pos ⟨hle, hlt⟩]
  · refine ⟨filter_leading ?_ (by simp [Fields.text]), ?_, ?_, fun hbare c hc => ?_⟩
    · rw [countP_fields, hid.blanks, hid.sign, hstart.blanks, hstart.sign, hstop.blanks,
        hstop.sign, hrest]
      rfl
    · rw [hrangeFormatEnd, hscan]
      rfl
    · rw [lastNumber_text hstop hrest, ← hv'']
      exact hlt'
    · have hdigit : ∀ {base : Nat} {ds : Bytes}, (∀ c ∈ ds, isDigit base c = true) → c ∈ ds →
          c ≠ 120 ∧ c ≠ 88 := by
        intro base ds hds hmem
        constructor
        all_goals
          rintro rfl
          exact absurd (hds _ hmem) (by rw [not_isDigit (by decide)]; decide)
      rw [Fields.text, hid.text, hstart.text, hstop.text, hrest, pre_decimal, hstart.bare hbare,
        hstop.bare hbare] at hc
      simp only [List.nil_append, List.append_nil, List.mem_append, List.mem_cons] at hc
      rcases hc with hc | rfl | hc | rfl | hc
      · exact hdigit f.id.digit hc
      · decide
      · exact hdigit f.start.digit hc
      · decide
      · exact hdigit f.stop.digit hc

/-- An accepted argument that is exact has the form. -/
theorem rangeForm_of_exact {r : Nat × Nat × Nat} (hparse : parseRange s = some r)
    (h : Exact prefixed s) : RangeForm prefixed s r := by
  obtain ⟨id, start, stop⟩ := r
  obtain ⟨_, hle, hlt⟩ := parseRange_eq_some hparse
  obtain ⟨f, rfl, hid, hstart, hstop, hend⟩ := fields_of_parse hparse
  have hrest : f.rest = [] := by
    by_contra hne
    rw [if_neg hne, h.consumed] at hend
    cases hend
  have hcount : f.text.countP leading = 1 := by
    rw [List.countP_eq_length_filter, h.dash]
    rfl
  rw [countP_fields, hrest] at hcount
  have hclean : ∀ {base : Nat} (n : Numeral base), n.blanks.length + n.sign.length = 0 →
      (∀ c ∈ n.pre, c ∈ f.text) → Clean prefixed n := by
    intro base n hlength hpre
    refine ⟨List.length_eq_zero_iff.mp (by omega), List.length_eq_zero_iff.mp (by omega), ?_⟩
    intro hbare
    rcases n.prefixed with hp | ⟨_, x, hx, hp⟩
    · exact hp
    · have hne := h.bare hbare x (hpre x (by simp [hp]))
      rcases hx with rfl | rfl
      · exact absurd rfl hne.1
      · exact absurd rfl hne.2
  have hcid : Clean prefixed f.id :=
    hclean f.id (by omega) fun c hc => by simp [Fields.text, Numeral.text, hc]
  have hcstart : Clean prefixed f.start :=
    hclean f.start (by omega) fun c hc => by simp [Fields.text, Numeral.text, hc]
  have hcstop : Clean prefixed f.stop :=
    hclean f.stop (by omega) fun c hc => by simp [Fields.text, Numeral.text, hc]
  have hfits : valueOf 16 f.stop.digits < 2 ^ 64 := by
    rw [← lastNumber_text hcstop hrest]
    exact h.fits
  have hlt64 := parseRange_lt hparse
  unfold Fields.value at hid hstart hstop
  rw [hcid.neg] at hid
  rw [hcstart.neg] at hstart
  rw [hcstop.neg, toULong_false hfits] at hstop
  refine rangeForm_iff.mpr ⟨f, rfl, hcid, hcstart, hcstop, hrest, ?_, hle, ?_, hstop, hlt, hlt64⟩
  · rw [hid]
    exact toULong_small (by omega)
  · rw [hstart]
    exact toULong_small (by omega)

end RangeLemmas

/-- A round of the loop treats its argument as the form says exactly if the
argument is not accepted, or there is nothing in it that only `sscanf` reads.
This holds whether the form allows a prefix `0x` or not, and whatever the
arguments before have left in the variables. -/
theorem hrange_grammar_iff (prefixed : Bool) (fuel : Nat) (vars : RangeVars) (s : Bytes)
    {w : World} (hcpu : w.nyxCpuType ≠ .nyxCpuInvalid) :
    ∃ ret w', (hrangeArgs fuel vars [s]).run w = (.ok ret, w') ∧
      (FollowsForm prefixed s ret (submitted w.trace) (submitted w'.trace) ↔
        (parseRange s ≠ none → Exact prefixed s)) := by
  obtain ⟨ret, w', hrun, htrace, hret⟩ := hrangeArgs_run fuel [s] vars hcpu
  refine ⟨ret, w', hrun, ?_⟩
  rw [htrace, hret]
  cases hparse : parseRange s with
  | none =>
    have hform : ∀ r, ¬RangeForm prefixed s r := by
      intro r hr
      rw [(rangeForm_accepted hr).1] at hparse
      cases hparse
    refine iff_of_true (.inr ⟨hform, ?_, ?_⟩) fun hne => absurd rfl hne
    · simp [hparse]
    · simp [acceptedPrefix, hparse]
  | some r =>
    constructor
    · rintro (⟨r', hr', _, _⟩ | ⟨_, hbad, _⟩) _
      · exact (rangeForm_accepted hr').2
      · simp [hparse, EINVAL] at hbad
    · intro hexact
      refine .inl ⟨r, rangeForm_of_exact hparse (hexact (by simp)), ?_, ?_⟩
      · simp [hparse]
      · simp [acceptedPrefix, hparse]

/-- The form is followed on the range of the agent's test script. -/
theorem hrange_grammar_agent :
    ∃ ret w', (hrangeArgs 1 ⟨0, 0, 0⟩ [ascii "0,1100-1500"]).run freshNyxWorld = (.ok ret, w') ∧
      FollowsForm false (ascii "0,1100-1500") ret (submitted freshNyxWorld.trace)
        (submitted w'.trace) := by
  obtain ⟨ret, w', hrun, hiff⟩ := hrange_grammar_iff false 1 ⟨0, 0, 0⟩ (ascii "0,1100-1500")
    (w := freshNyxWorld) (by decide)
  refine ⟨ret, w', hrun, hiff.mpr fun _ => ⟨?_, ?_, ?_, fun _ => ?_⟩⟩
  all_goals decide +kernel

/-- Of two ranges joined by a comma the first is submitted. -/
theorem hrange_drops_second :
    ∃ ret w', (hrangeArgs 1 ⟨0, 0, 0⟩ [ascii "0,1000-2000,1,3000-4000"]).run freshNyxWorld =
        (.ok ret, w') ∧
      submitted w'.trace = [(0x1000, 0x2000, 0)] ∧ ret = 0 ∧
      ¬FollowsForm true (ascii "0,1000-2000,1,3000-4000") ret (submitted freshNyxWorld.trace)
        (submitted w'.trace) := by
  obtain ⟨ret, w', hrun, htrace, hret⟩ := @hrangeArgs_run 1
    [ascii "0,1000-2000,1,3000-4000"] ⟨0, 0, 0⟩ freshNyxWorld (by decide)
  have hret0 : ret = 0 := by
    rw [hret]
    decide +kernel
  refine ⟨ret, w', hrun, ?_, hret0, ?_⟩
  · rw [htrace]
    decide +kernel
  · rintro (⟨r, hform, _⟩ | ⟨_, hbad, _⟩)
    · have hconsumed := (rangeForm_accepted hform).2.consumed
      exact absurd hconsumed (by decide +kernel)
    · rw [hret0] at hbad
      cases hbad

end KaflTargets
