import Mathlib.Algebra.Ring.Int.Defs
import Mathlib.Algebra.Ring.Nat
import Mathlib.Data.List.Forall2
import Mathlib.Data.List.TakeWhile
import KaflTargets.Lib.CString

/-!
# Formatted input (`sscanf`)

The conversions `%d`, `%x`, `%lu`, `%lx`, `%c` and `%s` of the C standard, with field
widths and assignment suppression. A format is a list of directives. `sscanf`
gives the value the C function returns and the assigned values, in order.

The rest of the file says what a numeric conversion does on a field that is
followed by a byte that cannot belong to it.
-/

namespace Scanf

/-! ## Definitions -/

def isspace (c : UInt8) : Bool := c = 32 || (9 ≤ c && c ≤ 13)

/-- The value of a decimal or hexadecimal digit. -/
def digitVal (c : UInt8) : Option Nat :=
  if 48 ≤ c && c ≤ 57 then some (c.toNat - 48)
  else if 97 ≤ c && c ≤ 102 then some (c.toNat - 87)
  else if 65 ≤ c && c ≤ 70 then some (c.toNat - 55)
  else none

def isDigit (base : Nat) (c : UInt8) : Bool := (digitVal c).any (· < base)

/-- The number a digit string denotes. -/
def valueOf (base : Nat) (digits : Bytes) : Nat :=
  digits.foldl (fun v c => v * base + (digitVal c).getD 0) 0

inductive Kind
  | d
  | x
  | lu
  | lx
  | c
  | s
  deriving DecidableEq

/-- A conversion specification: `%*2d` has `suppress` and the width 2. -/
structure Conv where
  kind : Kind
  suppress : Bool := false
  width : Option Nat := none

inductive Directive
  /-- White space: skips any amount of it. -/
  | space
  /-- An ordinary character. -/
  | lit (c : UInt8)
  | conv (spec : Conv)

inductive Val
  | int (i : Int)
  | num (n : Nat)
  | str (s : Bytes)
  deriving DecidableEq

/-- How a conversion ends: with a value and the rest of the input, because the
input did not match, or because it was at its end. -/
inductive Outcome
  | done (val : Val) (rest : Bytes)
  | mismatch
  | ended
  deriving DecidableEq

/-- The optional sign of a number and what follows it. -/
def sign : Bytes → Bool × Bytes
  | 43 :: t => (false, t)
  | 45 :: t => (true, t)
  | t => (false, t)

/-- Drop the optional prefix of a hexadecimal number. A prefix without a digit
is the beginning of a number but not a number. -/
def hexPrefix : Bytes → Bytes
  | 48 :: x :: t => if x = 120 || x = 88 then t else 48 :: x :: t
  | t => t

/-- The part of the input a field of the given width can reach. -/
def window (width : Option Nat) (s : Bytes) : Bytes :=
  match width with
  | none => s
  | some n => s.take n

/-- The number at the head of `s`: sign, digits and the rest of the input. -/
def number (base : Nat) (width : Option Nat) (s : Bytes) : Option (Bool × Bytes × Bytes) :=
  let (neg, t) := sign (window width s)
  let t := if base = 16 then hexPrefix t else t
  let digits := t.takeWhile (isDigit base)
  if digits = [] then none
  else
    let left := t.length - digits.length
    some (neg, digits, s.drop ((window width s).length - left))

/-- The value `strtoul` gives: out of range it is `ULONG_MAX`, a negative
number is negated in the unsigned type. -/
def toULong (neg : Bool) (v : Nat) : Nat :=
  if 2 ^ 64 ≤ v then 2 ^ 64 - 1 else if neg then (2 ^ 64 - v) % 2 ^ 64 else v

/-- A conversion to an unsigned number, with the value for a sign and digits. -/
def convertNum (base : Nat) (width : Option Nat) (s : Bytes) (value : Bool → Bytes → Nat) :
    Outcome :=
  let t := s.dropWhile isspace
  if t = [] then .ended
  else
    match number base width t with
    | none => .mismatch
    | some (neg, digits, rest) => .done (.num (value neg digits)) rest

def convert (spec : Conv) (s : Bytes) : Outcome :=
  match spec.kind with
  | .c =>
    let n := spec.width.getD 1
    if s = [] then .ended
    else if s.length < n then .mismatch
    else .done (.str (s.take n)) (s.drop n)
  | .s =>
    let t := s.dropWhile isspace
    if t = [] then .ended
    else
      let item := window spec.width (t.takeWhile fun c => !isspace c)
      .done (.str item) (t.drop item.length)
  | .d =>
    let t := s.dropWhile isspace
    if t = [] then .ended
    else
      match number 10 spec.width t with
      | none => .mismatch
      | some (neg, digits, rest) =>
        .done (.int (if neg then -(valueOf 10 digits : Int) else valueOf 10 digits)) rest
  | .x => convertNum 16 spec.width s fun neg digits => toULong neg (valueOf 16 digits) % 2 ^ 32
  | .lu => convertNum 10 spec.width s fun neg digits => toULong neg (valueOf 10 digits)
  | .lx => convertNum 16 spec.width s fun neg digits => toULong neg (valueOf 16 digits)

/-- The value returned when the input ends: `EOF` before the first conversion
has completed. -/
def atEnd (converted : Bool) (vals : List Val) : Int × List Val :=
  (if converted then vals.length else -1, vals)

def scan : List Directive → Bytes → Bool → List Val → Int × List Val
  | [], _, _, vals => (vals.length, vals)
  | .space :: ds, s, converted, vals => scan ds (s.dropWhile isspace) converted vals
  | .lit c :: ds, s, converted, vals =>
    match s with
    | [] => atEnd converted vals
    | b :: t => if b = c then scan ds t converted vals else (vals.length, vals)
  | .conv spec :: ds, s, converted, vals =>
    match convert spec s with
    | .done v rest => scan ds rest true (if spec.suppress then vals else vals ++ [v])
    | .mismatch => (vals.length, vals)
    | .ended => atEnd converted vals

/-- `sscanf(s, format, ..)`: the return value and the assigned values. -/
def sscanf (format : List Directive) (s : Bytes) : Int × List Val := scan format s false []

/-- A conversion to a number ends in one of three ways. -/
theorem convertNum_cases (base : Nat) (width : Option Nat) (s : Bytes)
    (value : Bool → Bytes → Nat) :
    (∃ n rest, convertNum base width s value = .done (.num n) rest) ∨
      convertNum base width s value = .mismatch ∨ convertNum base width s value = .ended := by
  simp only [convertNum]
  split
  · exact .inr (.inr rfl)
  · split
    · exact .inr (.inl rfl)
    · exact .inl ⟨_, _, rfl⟩

/-! ## What is assigned -/

/-- A value of the type that a conversion assigns. -/
def Val.Fits : Kind → Val → Prop
  | .d, .int _ => True
  | .x, .num _ | .lu, .num _ | .lx, .num _ => True
  | .c, .str _ | .s, .str _ => True
  | _, _ => False

theorem Val.Fits.num {kind : Kind} {v : Val} (hkind : kind = .lu ∨ kind = .lx)
    (h : Val.Fits kind v) : ∃ n, v = .num n := by
  cases v with
  | num n => exact ⟨n, rfl⟩
  | int i => rcases hkind with rfl | rfl <;> exact h.elim
  | str s => rcases hkind with rfl | rfl <;> exact h.elim

theorem Val.Fits.str {v : Val} (h : Val.Fits .s v) : ∃ s, v = .str s := by
  cases v with
  | str s => exact ⟨s, rfl⟩
  | int i => exact h.elim
  | num n => exact h.elim

/-- The conversions of a format that assign a value. -/
def assigning (ds : List Directive) : List Kind :=
  ds.filterMap fun d =>
    match d with
    | .conv spec => if spec.suppress then none else some spec.kind
    | _ => none

theorem convert_fits {spec : Conv} {s rest : Bytes} {v : Val}
    (h : convert spec s = .done v rest) : Val.Fits spec.kind v := by
  have hnum {base : Nat} {value : Bool → Bytes → Nat}
      (h : convertNum base spec.width s value = .done v rest) : ∃ n, v = .num n := by
    rcases convertNum_cases base spec.width s value with ⟨n, rest', hn⟩ | hn | hn
    · rw [hn] at h
      exact ⟨n, (Outcome.done.inj h).1.symm⟩
    all_goals
      rw [hn] at h
      cases h
  cases hkind : spec.kind <;> simp only [convert, hkind] at h
  case d =>
    split at h
    · cases h
    · split at h
      · cases h
      · obtain rfl := (Outcome.done.inj h).1
        trivial
  case c =>
    split at h
    · cases h
    · split at h
      · cases h
      · obtain rfl := (Outcome.done.inj h).1
        trivial
  case s =>
    split at h
    · cases h
    · obtain rfl := (Outcome.done.inj h).1
      trivial
  all_goals
    obtain ⟨n, rfl⟩ := hnum h
    trivial

/-- A scan assigns values for a first part of the assigning conversions, and
returns their number unless it returns `EOF`. -/
theorem scan_fits : ∀ (ds : List Directive) (s : Bytes) (converted : Bool) (vals : List Val),
    ∃ new kinds, (scan ds s converted vals).2 = vals ++ new ∧ kinds <+: assigning ds ∧
      List.Forall₂ Val.Fits kinds new ∧
      ((scan ds s converted vals).1 = (vals ++ new).length ∨ (scan ds s converted vals).1 = -1)
  | [], s, converted, vals => by
    refine ⟨[], [], ?_, List.nil_prefix, .nil, .inl ?_⟩ <;> simp [scan]
  | .space :: ds, s, converted, vals => scan_fits ds (s.dropWhile isspace) converted vals
  | .lit c :: ds, s, converted, vals => by
    have hnone {r : Int × List Val} (hr : r.2 = vals ∧ (r.1 = vals.length ∨ r.1 = -1)) :
        ∃ new kinds, r.2 = vals ++ new ∧ kinds <+: assigning (.lit c :: ds) ∧
          List.Forall₂ Val.Fits kinds new ∧ (r.1 = (vals ++ new).length ∨ r.1 = -1) :=
      ⟨[], [], by simpa using hr.1, List.nil_prefix, .nil, by simpa using hr.2⟩
    cases s with
    | nil =>
      refine hnone ⟨rfl, ?_⟩
      cases converted <;> simp [scan, atEnd]
    | cons b t =>
      by_cases hb : b = c
      · have hscan : scan (.lit c :: ds) (b :: t) converted vals = scan ds t converted vals := by
          simp [scan, hb]
        rw [hscan]
        exact scan_fits ds t converted vals
      · exact hnone (by simp [scan, hb])
  | .conv spec :: ds, s, converted, vals => by
    have hnone {r : Int × List Val} (hr : r.2 = vals ∧ (r.1 = vals.length ∨ r.1 = -1)) :
        ∃ new kinds, r.2 = vals ++ new ∧ kinds <+: assigning (.conv spec :: ds) ∧
          List.Forall₂ Val.Fits kinds new ∧ (r.1 = (vals ++ new).length ∨ r.1 = -1) :=
      ⟨[], [], by simpa using hr.1, List.nil_prefix, .nil, by simpa using hr.2⟩
    cases hconv : convert spec s with
    | mismatch => exact hnone (by simp [scan, hconv])
    | ended =>
      refine hnone ?_
      cases converted <;> simp [scan, hconv, atEnd]
    | done v rest =>
      cases hsup : spec.suppress with
      | true =>
        have hscan : scan (.conv spec :: ds) s converted vals = scan ds rest true vals := by
          simp [scan, hconv, hsup]
        have hkinds : assigning (.conv spec :: ds) = assigning ds := by simp [assigning, hsup]
        rw [hscan, hkinds]
        exact scan_fits ds rest true vals
      | false =>
        have hscan : scan (.conv spec :: ds) s converted vals =
            scan ds rest true (vals ++ [v]) := by
          simp [scan, hconv, hsup]
        have hkinds : assigning (.conv spec :: ds) = spec.kind :: assigning ds := by
          simp [assigning, hsup]
        obtain ⟨new, kinds, hvals, hpre, hfits, hret⟩ := scan_fits ds rest true (vals ++ [v])
        rw [hscan, hkinds]
        refine ⟨v :: new, spec.kind :: kinds, ?_, List.cons_prefix_cons.mpr ⟨rfl, hpre⟩,
          .cons (convert_fits hconv) hfits, ?_⟩
        · rw [hvals, List.append_assoc]
          rfl
        · simpa using hret

/-- A scan that returns the number of the assigning conversions has assigned
them all. -/
theorem sscanf_all {format : List Directive} {s : Bytes} {vals : List Val}
    (h : sscanf format s = (((assigning format).length : Int), vals)) :
    List.Forall₂ Val.Fits (assigning format) vals := by
  obtain ⟨new, kinds, hvals, hpre, hfits, hret⟩ := scan_fits format s false []
  have hscan : scan format s false [] = (((assigning format).length : Int), vals) := h
  rw [hscan] at hvals hret
  simp only [List.nil_append] at hvals hret
  have hlen : kinds.length = (assigning format).length := by
    have hsame := hfits.length_eq
    rcases hret with hret | hret <;> omega
  rw [← hpre.eq_of_length hlen, hvals]
  exact hfits

/-! ## Fields of a line -/

/-- The input goes on with a byte that ends a run of bytes in `p`, or not at
all. -/
def Stops (p : UInt8 → Bool) (rest : Bytes) : Prop := ∀ c ∈ rest.head?, p c = false

theorem takeWhile_append_stops {p : UInt8 → Bool} {rest : Bytes} (hrest : Stops p rest) :
    ∀ s : Bytes, (s ++ rest).takeWhile p = s.takeWhile p
  | [] => by
    cases rest with
    | nil => rfl
    | cons c rest => simp [hrest c rfl]
  | c :: s => by
    simp only [List.cons_append, List.takeWhile_cons, takeWhile_append_stops hrest s]

theorem takeWhile_stops {p : UInt8 → Bool} {s rest : Bytes} (hs : ∀ c ∈ s, p c = true)
    (hrest : Stops p rest) : (s ++ rest).takeWhile p = s := by
  rw [takeWhile_append_stops hrest, List.takeWhile_eq_self_iff.mpr hs]

theorem dropWhile_stops {p : UInt8 → Bool} {s rest : Bytes} (hs : ∀ c ∈ s, p c = true)
    (hrest : Stops p rest) : (s ++ rest).dropWhile p = rest := by
  rw [List.dropWhile_append_of_pos hs]
  cases rest with
  | nil => rfl
  | cons c rest => simp [hrest c rfl]

variable {base : Nat} {c : UInt8} {s digits rest : Bytes}

theorem not_isDigit {c : UInt8} (h : digitVal c = none) : isDigit base c = false := by
  simp [isDigit, h]

theorem isDigit_bounds (h : isDigit base c = true) : 48 ≤ c.toNat := by
  by_contra hlt
  have hnone : digitVal c = none := by
    simp only [digitVal, UInt8.le_iff_toNat_le, Bool.and_eq_true, decide_eq_true_eq]
    rw [if_neg (by simp; omega), if_neg (by simp; omega), if_neg (by simp; omega)]
  rw [not_isDigit hnone] at h
  cases h

theorem not_isspace_of_isDigit (h : isDigit base c = true) : isspace c = false := by
  have hle := isDigit_bounds h
  simp only [isspace, UInt8.le_iff_toNat_le, Bool.or_eq_false_iff, decide_eq_false_iff_not,
    Bool.and_eq_false_iff]
  refine ⟨?_, .inr ?_⟩
  · rintro rfl
    exact absurd hle (by decide)
  · show ¬c.toNat ≤ 13
    omega

/-- A number without a sign. -/
theorem sign_of_isDigit (h : isDigit base c = true) : sign (c :: s) = (false, c :: s) := by
  unfold sign
  split
  · next heq =>
    obtain ⟨rfl, -⟩ := List.cons.inj heq
    rw [not_isDigit (by decide)] at h
    cases h
  · next heq =>
    obtain ⟨rfl, -⟩ := List.cons.inj heq
    rw [not_isDigit (by decide)] at h
    cases h
  · rfl

/-- A digit string that is not followed by an `x` has no prefix. -/
theorem hexPrefix_digits (hds : ∀ c ∈ digits, isDigit 16 c = true)
    (hrest : Stops (fun c => c = 120 || c = 88) rest) (hne : digits ≠ []) :
    hexPrefix (digits ++ rest) = digits ++ rest := by
  unfold hexPrefix
  split
  · next x t heq =>
    have hx : (x = 120 || x = 88) = false := by
      cases digits with
      | nil => exact absurd rfl hne
      | cons d ds =>
        cases ds with
        | nil =>
          simp only [List.cons_append, List.nil_append, List.cons.injEq] at heq
          exact hrest x (by simp [heq.2])
        | cons e ds =>
          simp only [List.cons_append, List.cons.injEq] at heq
          obtain ⟨-, rfl, -⟩ := heq
          have he := hds e (by simp)
          cases hx : (e = 120 || e = 88 : Bool) with
          | false => rfl
          | true =>
            rcases Bool.or_eq_true_iff.mp hx with h | h
            all_goals
              simp only [decide_eq_true_eq] at h
              subst h
              rw [not_isDigit (by decide)] at he
              cases he
    rw [if_neg (by simp [hx]), heq]
  · rfl

/-- A field of digits without a width, up to the first byte that is none. -/
theorem number_field (hne : digits ≠ []) (hds : ∀ c ∈ digits, isDigit base c = true)
    (hrest : Stops (fun c => isDigit base c || c = 120 || c = 88) rest) :
    number base none (digits ++ rest) = some (false, digits, rest) := by
  have hsign : sign (digits ++ rest) = (false, digits ++ rest) := by
    cases digits with
    | nil => exact absurd rfl hne
    | cons d ds => exact sign_of_isDigit (hds d List.mem_cons_self)
  have hx : Stops (fun c => c = 120 || c = 88) rest := fun c hc => by
    have h := hrest c hc
    simp only [Bool.or_eq_false_iff] at h ⊢
    exact ⟨h.1.2, h.2⟩
  have hdigit : Stops (isDigit base) rest := fun c hc => by
    have h := hrest c hc
    simp only [Bool.or_eq_false_iff] at h
    exact h.1.1
  have hprefix : (if base = 16 then hexPrefix (digits ++ rest) else digits ++ rest) =
      digits ++ rest := by
    split
    · next h =>
      subst h
      exact hexPrefix_digits hds hx hne
    · rfl
  simp only [number, window, hsign, hprefix, takeWhile_stops hds hdigit, if_neg hne]
  simp

/-- The same for the conversions to unsigned numbers. -/
theorem convertNum_field (value : Bool → Bytes → Nat) (hne : digits ≠ [])
    (hds : ∀ c ∈ digits, isDigit base c = true)
    (hrest : Stops (fun c => isDigit base c || c = 120 || c = 88) rest) :
    convertNum base none (digits ++ rest) value = .done (.num (value false digits)) rest := by
  have hspace : (digits ++ rest).dropWhile isspace = digits ++ rest := by
    cases digits with
    | nil => exact absurd rfl hne
    | cons d ds => simp [not_isspace_of_isDigit (hds d List.mem_cons_self)]
  have hnil : ¬digits ++ rest = [] := by simp [hne]
  simp only [convertNum, hspace, if_neg hnil, number_field hne hds hrest]

/-- The decimal number at the head of an input without a sign: the decimal
digits the field can reach. -/
theorem number_decimal (width : Option Nat)
    (hsign : sign (window width s) = (false, window width s)) :
    number 10 width s =
      if (window width s).takeWhile (isDigit 10) = [] then none
      else some (false, (window width s).takeWhile (isDigit 10),
        s.drop ((window width s).takeWhile (isDigit 10)).length) := by
  have hle : ((window width s).takeWhile (isDigit 10)).length ≤ (window width s).length :=
    (List.takeWhile_prefix _).length_le
  have hleft : (window width s).length -
      ((window width s).length - ((window width s).takeWhile (isDigit 10)).length) =
      ((window width s).takeWhile (isDigit 10)).length := by omega
  simp only [number, hsign, Nat.reduceEqDiff, if_false, hleft]

/-! ## What a numeric conversion reads -/

/-- The text a number is read from, in its parts. -/
structure Numeral (base : Nat) where
  blanks : Bytes
  sign : Bytes
  pre : Bytes
  digits : Bytes
  blank : ∀ c ∈ blanks, isspace c = true
  signed : sign = [] ∨ sign = [43] ∨ sign = [45]
  prefixed : pre = [] ∨ base = 16 ∧ ∃ x, (x = 120 ∨ x = 88) ∧ pre = [48, x]
  nonempty : digits ≠ []
  digit : ∀ c ∈ digits, isDigit base c = true

namespace Numeral

variable (n : Numeral base)

def text : Bytes := n.blanks ++ (n.sign ++ (n.pre ++ n.digits))

def neg : Bool := n.sign = [45]

/-- A number without anything in front of its digits. -/
def plain (hne : digits ≠ []) (hds : ∀ c ∈ digits, isDigit base c = true) : Numeral base :=
  ⟨[], [], [], digits, by simp, .inl rfl, .inl rfl, hne, hds⟩

end Numeral

theorem sign_split (s : Bytes) :
    ∃ sg, s = sg ++ (sign s).2 ∧ (sg = [] ∨ sg = [43] ∨ sg = [45]) ∧
      (sign s).1 = decide (sg = [45]) := by
  unfold sign
  split
  · next t => exact ⟨[43], rfl, .inr (.inl rfl), rfl⟩
  · next t => exact ⟨[45], rfl, .inr (.inr rfl), rfl⟩
  · next t => exact ⟨[], rfl, .inl rfl, rfl⟩

theorem hexPrefix_split (s : Bytes) :
    ∃ pre, s = pre ++ hexPrefix s ∧ (pre = [] ∨ ∃ x, (x = 120 ∨ x = 88) ∧ pre = [48, x]) := by
  unfold hexPrefix
  split
  · next x t =>
    split
    · next hx =>
      simp only [Bool.or_eq_true, decide_eq_true_eq] at hx
      exact ⟨[48, x], rfl, .inr ⟨x, hx, rfl⟩⟩
    · exact ⟨[], rfl, .inl rfl⟩
  · exact ⟨[], rfl, .inl rfl⟩

/-- What is left of an input behind the digits at the head of its end `u`. -/
theorem drop_digits (p : UInt8 → Bool) (w u : Bytes) :
    (w ++ u).drop ((w ++ u).length - (u.length - (u.takeWhile p).length)) = u.dropWhile p := by
  have hu : u.takeWhile p ++ u.dropWhile p = u := List.takeWhile_append_dropWhile
  have hlength := congrArg List.length hu
  rw [List.length_append] at hlength
  have hoff : (w ++ u).length - (u.length - (u.takeWhile p).length) =
      (w ++ u.takeWhile p).length := by
    rw [List.length_append, List.length_append]
    omega
  have hsplit : w ++ u = w ++ u.takeWhile p ++ u.dropWhile p := by rw [List.append_assoc, hu]
  rw [hoff]
  rw [hsplit]
  exact List.drop_left

theorem number_split {neg : Bool} (h : number base none s = some (neg, digits, rest)) :
    ∃ sg pre, s = sg ++ (pre ++ (digits ++ rest)) ∧ (sg = [] ∨ sg = [43] ∨ sg = [45]) ∧
      neg = decide (sg = [45]) ∧
      (pre = [] ∨ base = 16 ∧ ∃ x, (x = 120 ∨ x = 88) ∧ pre = [48, x]) ∧
      digits ≠ [] ∧ ∀ c ∈ digits, isDigit base c = true := by
  obtain ⟨sg, hsg, hsigned, hneg⟩ := sign_split s
  obtain ⟨u, hu, pre, hpre, hprefixed⟩ : ∃ u,
      u = (if base = 16 then hexPrefix (sign s).2 else (sign s).2) ∧ ∃ pre,
        (sign s).2 = pre ++ u ∧
          (pre = [] ∨ base = 16 ∧ ∃ x, (x = 120 ∨ x = 88) ∧ pre = [48, x]) := by
    split
    · next hbase =>
      obtain ⟨pre, hpre, hx⟩ := hexPrefix_split (sign s).2
      exact ⟨_, rfl, pre, hpre, hx.imp id fun hx => ⟨hbase, hx⟩⟩
    · exact ⟨_, rfl, [], rfl, .inl rfl⟩
  have hs : s = sg ++ pre ++ u := by rw [List.append_assoc, ← hpre]; exact hsg
  have hnumber : number base none s = if u.takeWhile (isDigit base) = [] then none
      else some ((sign s).1, u.takeWhile (isDigit base),
        s.drop (s.length - (u.length - (u.takeWhile (isDigit base)).length))) := by
    rw [hu]
    rfl
  rw [hnumber] at h
  split at h
  · cases h
  · next hne =>
    obtain ⟨rfl, hrest⟩ := Prod.mk.inj (Option.some.inj h)
    obtain ⟨rfl, rfl⟩ := Prod.mk.inj hrest
    refine ⟨sg, pre, ?_, hsigned, hneg, hprefixed, hne, fun c hc => List.mem_takeWhile_imp hc⟩
    have hdrop : s.drop (s.length - (u.length - (u.takeWhile (isDigit base)).length)) =
        u.dropWhile (isDigit base) := by
      rw [hs]
      exact drop_digits _ _ u
    rw [hdrop, List.takeWhile_append_dropWhile, ← List.append_assoc]
    exact hs

/-- A conversion that is done has read a numeral. -/
theorem convertNum_done {value : Bool → Bytes → Nat} {v : Val}
    (h : convertNum base none s value = .done v rest) :
    ∃ n : Numeral base, s = n.text ++ rest ∧ v = .num (value n.neg n.digits) := by
  simp only [convertNum] at h
  split at h
  · cases h
  · split at h
    · cases h
    · next neg digits rest' hnum =>
      obtain ⟨rfl, rfl⟩ := Outcome.done.inj h
      obtain ⟨sg, pre, hs, hsigned, hneg, hprefixed, hne, hds⟩ := number_split hnum
      refine ⟨⟨s.takeWhile isspace, sg, pre, digits, fun c hc => List.mem_takeWhile_imp hc, hsigned,
        hprefixed, hne, hds⟩, ?_, by rw [hneg]; rfl⟩
      simp only [Numeral.text, List.append_assoc]
      rw [← hs, List.takeWhile_append_dropWhile]

/-- The parts of a numeral behind its blanks do not begin with one. -/
theorem Numeral.stops_isspace (n : Numeral base) (rest : Bytes) :
    Stops isspace (n.sign ++ (n.pre ++ n.digits) ++ rest) := by
  intro c hc
  rcases n.signed with hs | hs | hs
  · rcases n.prefixed with hp | ⟨_, x, _, hp⟩
    · cases hds : n.digits with
      | nil => exact absurd hds n.nonempty
      | cons d ds =>
        rw [hs, hp, hds] at hc
        obtain rfl := Option.some.inj hc
        exact not_isspace_of_isDigit (n.digit d (by simp [hds]))
    · rw [hs, hp] at hc
      obtain rfl := Option.some.inj hc
      decide
  · rw [hs] at hc
    obtain rfl := Option.some.inj hc
    decide
  · rw [hs] at hc
    obtain rfl := Option.some.inj hc
    decide

theorem Numeral.sign_eq (n : Numeral base) (rest : Bytes) :
    Scanf.sign (n.sign ++ (n.pre ++ n.digits) ++ rest) =
      (n.neg, n.pre ++ n.digits ++ rest) := by
  unfold Numeral.neg
  rcases n.signed with hs | hs | hs
  · rw [hs]
    rcases n.prefixed with hp | ⟨_, x, _, hp⟩
    · cases hds : n.digits with
      | nil => exact absurd hds n.nonempty
      | cons d ds =>
        rw [hp]
        exact sign_of_isDigit (n.digit d (by simp [hds]))
    · rw [hp]
      rfl
  · rw [hs]
    rfl
  · rw [hs]
    rfl

theorem Numeral.prefix_eq (n : Numeral base)
    (hrest : Stops (fun c => isDigit base c || c = 120 || c = 88) rest) :
    (if base = 16 then hexPrefix (n.pre ++ n.digits ++ rest) else n.pre ++ n.digits ++ rest) =
      n.digits ++ rest := by
  rcases n.prefixed with hp | ⟨hbase, x, hx, hp⟩
  · rw [hp, List.nil_append]
    split
    · next hbase =>
      subst hbase
      refine hexPrefix_digits n.digit (fun c hc => ?_) n.nonempty
      have h := hrest c hc
      simp only [Bool.or_eq_false_iff] at h ⊢
      exact ⟨h.1.2, h.2⟩
    · rfl
  · rw [if_pos hbase, hp]
    have hcond : (x = 120 || x = 88 : Bool) = true := by
      rcases hx with rfl | rfl <;> rfl
    simp only [List.cons_append, List.nil_append, hexPrefix, hcond, if_true]

/-- A numeral is read if the input goes on with a byte that cannot belong to it. -/
theorem convertNum_numeral (n : Numeral base) (value : Bool → Bytes → Nat)
    (hrest : Stops (fun c => isDigit base c || c = 120 || c = 88) rest) :
    convertNum base none (n.text ++ rest) value = .done (.num (value n.neg n.digits)) rest := by
  have hspace : (n.text ++ rest).dropWhile isspace = n.sign ++ (n.pre ++ n.digits) ++ rest := by
    rw [Numeral.text, List.append_assoc]
    exact dropWhile_stops n.blank (n.stops_isspace rest)
  have hnil : ¬n.sign ++ (n.pre ++ n.digits) ++ rest = [] := by simp [n.nonempty]
  have hdigit : Stops (isDigit base) rest := fun c hc => by
    have h := hrest c hc
    simp only [Bool.or_eq_false_iff] at h
    exact h.1.1
  have hnumber : number base none (n.sign ++ (n.pre ++ n.digits) ++ rest) =
      some (n.neg, n.digits, rest) := by
    have hoff : (n.sign ++ (n.pre ++ n.digits) ++ rest).length -
        ((n.digits ++ rest).length - n.digits.length) =
        (n.sign ++ (n.pre ++ n.digits)).length := by
      simp only [List.length_append]
      omega
    simp only [number, window, n.sign_eq rest, n.prefix_eq hrest, takeWhile_stops n.digit hdigit,
      if_neg n.nonempty, hoff, List.drop_left]
  simp only [convertNum, hspace, if_neg hnil, hnumber]

/-! ## Steps of a scan -/

variable {ds : List Directive} {converted : Bool} {vals : List Val}

theorem scan_space (hs : Stops isspace s) (blanks : Nat) :
    scan (.space :: ds) (List.replicate blanks 32 ++ s) converted vals =
      scan ds s converted vals := by
  have hblank : ∀ c ∈ List.replicate blanks (32 : UInt8), isspace c = true := by
    intro c hc
    rw [(List.mem_replicate.mp hc).2]
    decide
  rw [scan, dropWhile_stops hblank hs]

theorem scan_lit (c : UInt8) :
    scan (.lit c :: ds) (c :: s) converted vals = scan ds s converted vals := by
  rw [scan, if_pos rfl]

theorem scan_lit_ne {b c : UInt8} (h : b ≠ c) :
    scan (.lit c :: ds) (b :: s) converted vals = ((vals.length : Int), vals) := by
  simp only [scan, if_neg h]

theorem scan_lx (hne : digits ≠ []) (hds : ∀ c ∈ digits, isDigit 16 c = true)
    (hlt : valueOf 16 digits < 2 ^ 64)
    (hrest : Stops (fun c => isDigit 16 c || c = 120 || c = 88) rest) :
    scan (.conv { kind := .lx } :: ds) (digits ++ rest) converted vals =
      scan ds rest true (vals ++ [.num (valueOf 16 digits)]) := by
  have hvalue : toULong false (valueOf 16 digits) = valueOf 16 digits := by
    rw [toULong, if_neg (Nat.not_le.mpr hlt), if_neg Bool.false_ne_true]
  simp only [scan, convert, convertNum_field _ hne hds hrest, hvalue, Bool.false_eq_true, if_false]

theorem scan_suppressed_x (hne : digits ≠ []) (hds : ∀ c ∈ digits, isDigit 16 c = true)
    (hrest : Stops (fun c => isDigit 16 c || c = 120 || c = 88) rest) :
    scan (.conv { kind := .x, suppress := true } :: ds) (digits ++ rest) converted vals =
      scan ds rest true vals := by
  simp only [scan, convert, convertNum_field _ hne hds hrest, if_true]

/-- A decimal field whose value is dropped, on an input without a sign. -/
theorem scan_suppressed_d (width : Option Nat) (hs : Stops isspace s) (hne : s ≠ [])
    (hsign : sign (window width s) = (false, window width s)) :
    scan (.conv { kind := .d, suppress := true, width } :: ds) s converted vals =
      if (window width s).takeWhile (isDigit 10) = [] then ((vals.length : Int), vals)
      else scan ds (s.drop ((window width s).takeWhile (isDigit 10)).length) true vals := by
  have hspace : s.dropWhile isspace = s := dropWhile_stops (s := []) (by simp) hs
  simp only [scan, convert, hspace, if_neg hne, number_decimal width hsign]
  by_cases hnil : (window width s).takeWhile (isDigit 10) = []
  · simp only [if_pos hnil]
  · simp only [if_neg hnil, if_true]

/-- A `%s` at the end of a format reads a word. -/
theorem scan_word (hs : Stops isspace s) (hne : s ≠ []) :
    scan [.conv { kind := .s }] s converted vals =
      (((vals ++ [Val.str (s.takeWhile fun c => !isspace c)]).length : Int),
        vals ++ [Val.str (s.takeWhile fun c => !isspace c)]) := by
  have hspace : s.dropWhile isspace = s := dropWhile_stops (s := []) (by simp) hs
  simp only [scan, convert, hspace, if_neg hne, window, Bool.false_eq_true, if_false]

end Scanf
