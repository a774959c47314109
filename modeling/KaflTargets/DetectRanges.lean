import Mathlib.Data.List.Nodup
import KaflTargets.ForkServer

/-!
# Code ranges from `/proc/<pid>/maps`

`detectranges` reads a maps file line by line with one `sscanf` format. The
format takes device numbers for two decimal digits each and ends a path at the
first blank. `MapsLine.scanned` says, in terms of the fields of a line, which
word the format takes for the path.

Results:
1. `sscanf_render`: what the format makes of a line.
2. `detectranges_run`: the ranges a whole file submits.
3. `detectranges_exact_iff`: when these are the ranges wanted.
-/

namespace KaflTargets.ForkServer

open CString Scanf

/-! ## Definitions -/

/-- A line of a maps file, with its numbers as they are printed. -/
structure MapsLine where
  start : Bytes
  stop : Bytes
  read : Bool
  write : Bool
  exec : Bool
  priv : Bool
  offset : Bytes
  major : Bytes
  minor : Bytes
  inode : Bytes
  /-- Blanks that pad the line up to the path. -/
  padding : Nat
  path : Option Bytes
  start_hex : start ≠ [] ∧ ∀ c ∈ start, isDigit 16 c = true
  start_lt : valueOf 16 start < 2 ^ 64
  stop_hex : stop ≠ [] ∧ ∀ c ∈ stop, isDigit 16 c = true
  stop_lt : valueOf 16 stop < 2 ^ 64
  offset_hex : offset ≠ [] ∧ ∀ c ∈ offset, isDigit 16 c = true
  major_hex : 2 ≤ major.length ∧ ∀ c ∈ major, isDigit 16 c = true
  minor_hex : 2 ≤ minor.length ∧ ∀ c ∈ minor, isDigit 16 c = true
  inode_dec : inode ≠ [] ∧ ∀ c ∈ inode, isDigit 10 c = true
  path_text : ∀ p ∈ path, p ≠ [] ∧ Stops isspace p ∧ 10 ∉ p ∧ 0 ∉ p

namespace MapsLine

/-- The four characters of the permissions. -/
def perms (l : MapsLine) : Bytes :=
  [if l.read then 114 else 45, if l.write then 119 else 45, if l.exec then 120 else 45,
    if l.priv then 112 else 115]

/-- What follows the inode. -/
def tail (l : MapsLine) : Bytes :=
  match l.path with
  | none => List.replicate l.padding 32
  | some p => List.replicate (l.padding + 1) 32 ++ p

/-- The line without its newline. -/
def text (l : MapsLine) : Bytes :=
  l.start ++ 45 :: (l.stop ++ 32 :: (l.perms ++ 32 :: (l.offset ++ 32 :: (l.major ++ 58 ::
    (l.minor ++ 32 :: (l.inode ++ l.tail))))))

/-- The line as it stands in the file. -/
def render (l : MapsLine) : Bytes := l.text ++ [10]

/-- Start and end of the mapping. -/
def range (l : MapsLine) : Nat × Nat := (valueOf 16 l.start, valueOf 16 l.stop)

/-- The mapping is executable and private and its path contains the pattern. -/
def wanted (pattern : Bytes) (l : MapsLine) : Bool :=
  l.exec && l.priv && l.path.any fun p => strstr p pattern

/-- The word the format takes for the path. The device has to be two decimal
digits for the major number; of the minor number the format reads at most two
decimal digits, then more decimal digits for the inode. If hexadecimal digits
are left, they are the word; if the minor number ends only there, the word is
the inode. -/
def scanned (l : MapsLine) : Option Bytes :=
  if l.exec && l.priv && l.major.length = 2 && l.major.all (isDigit 10) then
    let first := (l.minor.take 2).takeWhile (isDigit 10)
    let rest := l.minor.drop first.length
    let second := rest.takeWhile (isDigit 10)
    if first = [] then none
    else if rest = [] then l.path.map fun p => p.takeWhile fun c => !isspace c
    else if second = [] then none
    else if rest.drop second.length = [] then some l.inode
    else some (rest.drop second.length)
  else none

/-- The line is submitted. -/
def picked (pattern : Bytes) (l : MapsLine) : Bool := l.scanned.any fun word => strstr word pattern

end MapsLine

/-! ## 1. One line -/

namespace DetectLemmas

variable {l : MapsLine} {converted : Bool} {vals : List Val}

theorem stops_cons {p : UInt8 → Bool} {c : UInt8} {s : Bytes} (h : p c = false) :
    Stops p (c :: s) := by
  intro b hb
  obtain rfl := Option.mem_some_iff.mp hb
  exact h

theorem stops_digits {base : Nat} {digits : Bytes} (hne : digits ≠ [])
    (hds : ∀ c ∈ digits, isDigit base c = true) (rest : Bytes) :
    Stops isspace (digits ++ rest) := by
  cases digits with
  | nil => exact absurd rfl hne
  | cons d ds => exact stops_cons (not_isspace_of_isDigit (hds d List.mem_cons_self))

/-- The format from the path on. -/
theorem scan_path (l : MapsLine) :
    scan [.space, .conv { kind := .s }] (l.tail ++ [10]) true vals =
      match l.path with
      | none => ((vals.length : Int), vals)
      | some p => (((vals ++ [Val.str (p.takeWhile fun c => !isspace c)]).length : Int),
          vals ++ [Val.str (p.takeWhile fun c => !isspace c)]) := by
  cases hpath : l.path with
  | none =>
    have hblank : ∀ c ∈ List.replicate l.padding (32 : UInt8) ++ [10], isspace c = true := by
      intro c hc
      rcases List.mem_append.mp hc with hc | hc
      · rw [(List.mem_replicate.mp hc).2]
        decide
      · rw [List.mem_singleton.mp hc]
        decide
    have hdrop : (List.replicate l.padding (32 : UInt8) ++ [10]).dropWhile isspace = [] := by
      rw [List.dropWhile_eq_nil_iff]
      exact hblank
    simp [MapsLine.tail, hpath, scan, hdrop, convert, atEnd]
  | some p =>
    obtain ⟨hne, hstop, -, -⟩ := l.path_text p hpath
    have hstop' : Stops isspace (p ++ [10]) := by
      cases p with
      | nil => exact absurd rfl hne
      | cons c p => exact hstop
    have hword : (p ++ [10]).takeWhile (fun c => !isspace c) =
        p.takeWhile fun c => !isspace c :=
      takeWhile_append_stops (stops_cons (by decide)) p
    rw [MapsLine.tail, hpath]
    simp only [List.append_assoc]
    rw [scan_space hstop', scan_word hstop' (by simp), hword]

/-- A field of hexadecimal digits has no sign. -/
theorem sign_hex {digits : Bytes} (hds : ∀ c ∈ digits, isDigit 16 c = true) :
    sign digits = (false, digits) := by
  cases digits with
  | nil => rfl
  | cons d ds => exact sign_of_isDigit (hds d List.mem_cons_self)

theorem stops_tail {p : UInt8 → Bool} (hblank : p 32 = false) (hnewline : p 10 = false)
    (l : MapsLine) : Stops p (l.tail ++ [10]) := by
  unfold MapsLine.tail
  cases l.path with
  | some path => exact stops_cons hblank
  | none =>
    cases l.padding with
    | zero => exact stops_cons hnewline
    | succ n => exact stops_cons hblank

theorem scan_blank {ds : List Directive} {s : Bytes} (hs : Stops isspace s) :
    scan (.space :: ds) (32 :: s) converted vals = scan ds s converted vals :=
  scan_space hs 1

theorem scan_noblank {ds : List Directive} {s : Bytes} (hs : Stops isspace s) :
    scan (.space :: ds) s converted vals = scan ds s converted vals :=
  scan_space hs 0

/-- The format from the minor number on. -/
theorem scan_minor (l : MapsLine) :
    scan [.conv { kind := .d, suppress := true, width := some 2 }, .space,
        .conv { kind := .d, suppress := true }, .space, .conv { kind := .s }]
      (l.minor ++ 32 :: (l.inode ++ (l.tail ++ [10]))) true vals =
      match (l.minor.take 2).takeWhile (isDigit 10),
        l.minor.drop ((l.minor.take 2).takeWhile (isDigit 10)).length with
      | [], _ => ((vals.length : Int), vals)
      | _, [] => scan [.space, .conv { kind := .s }] (l.tail ++ [10]) true vals
      | _, c :: rest =>
        if (c :: rest).takeWhile (isDigit 10) = [] then ((vals.length : Int), vals)
        else scan [.space, .conv { kind := .s }]
          ((c :: rest).drop ((c :: rest).takeWhile (isDigit 10)).length ++
            32 :: (l.inode ++ (l.tail ++ [10]))) true vals := by
  obtain ⟨hlen, hhex⟩ := l.minor_hex
  obtain ⟨hinode, hdec⟩ := l.inode_dec
  have hne : l.minor ≠ [] := by
    intro h
    rw [h] at hlen
    exact absurd hlen (by decide)
  have htake : (l.minor ++ 32 :: (l.inode ++ (l.tail ++ [10]))).take 2 = l.minor.take 2 :=
    List.take_append_of_le_length hlen
  have hprefix : ((l.minor.take 2).takeWhile (isDigit 10)).length ≤ l.minor.length :=
    Nat.le_trans (List.takeWhile_prefix _).length_le (List.length_take_le' _ _)
  have hsign : sign (window (some 2) (l.minor ++ 32 :: (l.inode ++ (l.tail ++ [10])))) =
      (false, window (some 2) (l.minor ++ 32 :: (l.inode ++ (l.tail ++ [10])))) := by
    rw [window, htake]
    exact sign_hex fun c hc => hhex c (List.mem_of_mem_take hc)
  rw [scan_suppressed_d (some 2) (stops_digits hne hhex _) (by simp) hsign, window, htake,
    List.drop_append_of_le_length hprefix]
  generalize (l.minor.take 2).takeWhile (isDigit 10) = first
  have hrest : ∀ c ∈ l.minor.drop first.length, isDigit 16 c = true :=
    fun c hc => hhex c (List.mem_of_mem_drop hc)
  generalize l.minor.drop first.length = rest at hrest
  cases first with
  | nil => rfl
  | cons d first =>
    rw [if_neg (List.cons_ne_nil d first)]
    cases rest with
    | nil =>
      have hdigits := stops_digits hinode hdec (l.tail ++ [10])
      have htaken : (l.inode ++ (l.tail ++ [10])).takeWhile (isDigit 10) = l.inode :=
        takeWhile_stops hdec (stops_tail (by decide) (by decide) l)
      have hsign : sign (l.inode ++ (l.tail ++ [10])) = (false, l.inode ++ (l.tail ++ [10])) := by
        cases hi : l.inode with
        | nil => exact absurd hi hinode
        | cons e es => exact sign_of_isDigit (hdec e (by simp [hi]))
      rw [List.nil_append, scan_blank hdigits,
        scan_suppressed_d none hdigits (by simp) hsign, window, htaken, if_neg hinode,
        List.drop_left]
    | cons c rest =>
      have hspace := stops_digits (List.cons_ne_nil c rest) hrest
        (32 :: (l.inode ++ (l.tail ++ [10])))
      have htaken : (c :: rest ++ 32 :: (l.inode ++ (l.tail ++ [10]))).takeWhile (isDigit 10) =
          (c :: rest).takeWhile (isDigit 10) :=
        takeWhile_append_stops (stops_cons (by decide)) _
      have hsign : sign (c :: rest ++ 32 :: (l.inode ++ (l.tail ++ [10]))) =
          (false, c :: rest ++ 32 :: (l.inode ++ (l.tail ++ [10]))) :=
        sign_of_isDigit (hrest c List.mem_cons_self)
      rw [scan_noblank hspace, scan_suppressed_d none hspace (by simp) hsign, window, htaken,
        List.drop_append_of_le_length (List.takeWhile_prefix _).length_le]

/-- The format from the minor number on, in terms of the fields. -/
theorem scan_minor_word (l : MapsLine) (a b : Val)
    (hmajor : l.exec && l.priv && l.major.length = 2 && l.major.all (isDigit 10)) :
    scan [.conv { kind := .d, suppress := true, width := some 2 }, .space,
        .conv { kind := .d, suppress := true }, .space, .conv { kind := .s }]
      (l.minor ++ 32 :: (l.inode ++ (l.tail ++ [10]))) true [a, b] =
      match l.scanned with
      | none => (2, [a, b])
      | some word => (3, [a, b, .str word]) := by
  obtain ⟨-, hhex⟩ := l.minor_hex
  obtain ⟨hinode, hdec⟩ := l.inode_dec
  have hscanned : l.scanned =
      if (l.minor.take 2).takeWhile (isDigit 10) = [] then none
      else if l.minor.drop ((l.minor.take 2).takeWhile (isDigit 10)).length = [] then
        l.path.map fun p => p.takeWhile fun c => !isspace c
      else if (l.minor.drop ((l.minor.take 2).takeWhile (isDigit 10)).length).takeWhile
          (isDigit 10) = [] then none
      else if (l.minor.drop ((l.minor.take 2).takeWhile (isDigit 10)).length).drop
          ((l.minor.drop ((l.minor.take 2).takeWhile (isDigit 10)).length).takeWhile
            (isDigit 10)).length = [] then some l.inode
      else some ((l.minor.drop ((l.minor.take 2).takeWhile (isDigit 10)).length).drop
          ((l.minor.drop ((l.minor.take 2).takeWhile (isDigit 10)).length).takeWhile
            (isDigit 10)).length) := by
    rw [MapsLine.scanned, if_pos hmajor]
  rw [scan_minor, hscanned]
  have hrest : ∀ c ∈ l.minor.drop ((l.minor.take 2).takeWhile (isDigit 10)).length,
      isDigit 16 c = true := fun c hc => hhex c (List.mem_of_mem_drop hc)
  generalize l.minor.drop ((l.minor.take 2).takeWhile (isDigit 10)).length = rest at hrest
  generalize (l.minor.take 2).takeWhile (isDigit 10) = first
  cases first with
  | nil => rfl
  | cons d first =>
    rw [if_neg (List.cons_ne_nil d first)]
    cases rest with
    | nil =>
      rw [if_pos rfl, scan_path]
      cases l.path <;> rfl
    | cons c rest =>
      rw [if_neg (List.cons_ne_nil c rest)]
      dsimp only
      by_cases hsecond : (c :: rest).takeWhile (isDigit 10) = []
      · rw [if_pos hsecond, if_pos hsecond]
        rfl
      · rw [if_neg hsecond, if_neg hsecond]
        have hleft : ∀ e ∈ (c :: rest).drop ((c :: rest).takeWhile (isDigit 10)).length,
            isDigit 16 e = true := fun e he => hrest e (List.mem_of_mem_drop he)
        generalize (c :: rest).drop ((c :: rest).takeWhile (isDigit 10)).length = left at hleft
        cases left with
        | nil =>
          have hdigits := stops_digits hinode hdec (l.tail ++ [10])
          have hword : (l.inode ++ (l.tail ++ [10])).takeWhile (fun c => !isspace c) = l.inode :=
            takeWhile_stops (fun e he => by rw [not_isspace_of_isDigit (hdec e he)]; rfl)
              (stops_tail (by decide) (by decide) l)
          rw [if_pos rfl, List.nil_append, scan_blank hdigits, scan_word hdigits (by simp), hword]
          rfl
        | cons e left =>
          have hdigits := stops_digits (List.cons_ne_nil e left) hleft
            (32 :: (l.inode ++ (l.tail ++ [10])))
          have hword : (e :: left ++ 32 :: (l.inode ++ (l.tail ++ [10]))).takeWhile
              (fun c => !isspace c) = e :: left :=
            takeWhile_stops (fun b hb => by rw [not_isspace_of_isDigit (hleft b hb)]; rfl)
              (stops_cons (by decide))
          rw [if_neg (List.cons_ne_nil e left), scan_noblank hdigits,
            scan_word hdigits (by simp), hword]
          rfl

/-- The major number passes the format only as two decimal digits. -/
theorem scan_major (l : MapsLine) (ds : List Directive) (rest : Bytes) :
    scan (.conv { kind := .d, suppress := true, width := some 2 } :: .lit 58 :: ds)
      (l.major ++ 58 :: rest) true vals =
      if l.major.length = 2 ∧ l.major.all (isDigit 10) then scan ds rest true vals
      else ((vals.length : Int), vals) := by
  obtain ⟨hlen, hhex⟩ := l.major_hex
  have hne : l.major ≠ [] := by
    intro h
    rw [h] at hlen
    exact absurd hlen (by decide)
  have htake : (l.major ++ 58 :: rest).take 2 = l.major.take 2 :=
    List.take_append_of_le_length hlen
  have hprefix : ((l.major.take 2).takeWhile (isDigit 10)).length ≤ l.major.length :=
    Nat.le_trans (List.takeWhile_prefix _).length_le (List.length_take_le' _ _)
  have hsign : sign (window (some 2) (l.major ++ 58 :: rest)) =
      (false, window (some 2) (l.major ++ 58 :: rest)) := by
    rw [window, htake]
    exact sign_hex fun c hc => hhex c (List.mem_of_mem_take hc)
  rw [scan_suppressed_d (some 2) (stops_digits hne hhex _) (by simp) hsign, window, htake,
    List.drop_append_of_le_length hprefix]
  by_cases hdec : l.major.length = 2 ∧ l.major.all (isDigit 10)
  · obtain ⟨htwo, hall⟩ := hdec
    have hwhole : (l.major.take 2).takeWhile (isDigit 10) = l.major := by
      rw [← htwo, List.take_length, List.takeWhile_eq_self_iff]
      exact List.all_eq_true.mp hall
    rw [hwhole, if_neg hne, List.drop_length, List.nil_append, scan_lit, if_pos ⟨htwo, hall⟩]
  · rw [if_neg hdec]
    by_cases hnil : (l.major.take 2).takeWhile (isDigit 10) = []
    · rw [if_pos hnil]
    · rw [if_neg hnil]
      have hhex' : ∀ c ∈ l.major.drop ((l.major.take 2).takeWhile (isDigit 10)).length,
          isDigit 16 c = true := fun c hc => hhex c (List.mem_of_mem_drop hc)
      cases hleft : l.major.drop ((l.major.take 2).takeWhile (isDigit 10)).length with
      | nil =>
        refine absurd ?_ hdec
        have hle := List.drop_eq_nil_iff.mp hleft
        have htwo := (List.takeWhile_prefix (p := isDigit 10) (l := l.major.take 2)).length_le
        have hmin : (l.major.take 2).length = min 2 l.major.length := List.length_take
        have hlen2 : l.major.length = 2 := by omega
        refine ⟨hlen2, ?_⟩
        have hself : (l.major.take 2).takeWhile (isDigit 10) = l.major.take 2 :=
          List.IsPrefix.eq_of_length (List.takeWhile_prefix _) (by omega)
        rw [← hlen2, List.take_length] at hself
        exact List.all_eq_true.mpr (List.takeWhile_eq_self_iff.mp hself)
      | cons c left =>
        rw [hleft] at hhex'
        have hne58 : c ≠ 58 := by
          rintro rfl
          exact absurd (hhex' 58 List.mem_cons_self) (by decide)
        rw [List.cons_append, scan_lit_ne hne58]

theorem render_eq (l : MapsLine) :
    l.render = l.start ++ 45 :: (l.stop ++ 32 :: (l.perms ++ 32 :: (l.offset ++ 32 ::
      (l.major ++ 58 :: (l.minor ++ 32 :: (l.inode ++ (l.tail ++ [10]))))))) := by
  simp [MapsLine.render, MapsLine.text]

theorem scan_two_chars (ds : List Directive) (a b : UInt8) (s : Bytes) :
    scan (.conv { kind := .c, suppress := true, width := some 2 } :: ds) (a :: b :: s) converted
      vals = scan ds s true vals := by
  have hlen : ¬s.length + 1 + 1 < 2 := by omega
  simp [scan, convert, hlen]

theorem stops_lx {c : UInt8} {s : Bytes}
    (h : (isDigit 16 c || c = 120 || c = 88) = false) :
    Stops (fun c => isDigit 16 c || c = 120 || c = 88) (c :: s) :=
  stops_cons h

end DetectLemmas

open DetectLemmas

/-- What the format makes of a line: the word for the path is `scanned`. -/
theorem sscanf_render (l : MapsLine) :
    sscanf mapsFormat l.render =
      match l.scanned with
      | none => (2, [.num l.range.1, .num l.range.2])
      | some word => (3, [.num l.range.1, .num l.range.2, .str word]) := by
  have hperms : Stops isspace (l.perms ++ 32 :: (l.offset ++ 32 ::
      (l.major ++ 58 :: (l.minor ++ 32 :: (l.inode ++ (l.tail ++ [10])))))) := by
    refine stops_cons ?_
    cases l.read <;> decide
  have hmajor : l.major ≠ [] := by
    intro h
    have hlen := l.major_hex.1
    rw [h] at hlen
    exact absurd hlen (by decide)
  rw [render_eq, sscanf, mapsFormat, scan_lx l.start_hex.1 l.start_hex.2 l.start_lt
    (stops_lx (by decide)), scan_lit, scan_lx l.stop_hex.1 l.stop_hex.2 l.stop_lt
    (stops_lx (by decide)), scan_blank hperms]
  simp only [MapsLine.perms, List.cons_append, List.nil_append, scan_two_chars]
  by_cases hexec : l.exec
  · by_cases hpriv : l.priv
    · rw [if_pos hexec, scan_lit, if_pos hpriv, scan_lit,
        scan_blank (stops_digits l.offset_hex.1 l.offset_hex.2 _),
        scan_suppressed_x l.offset_hex.1 l.offset_hex.2 (stops_lx (by decide)),
        scan_blank (stops_digits hmajor l.major_hex.2 _), scan_major]
      by_cases hdec : l.major.length = 2 ∧ l.major.all (isDigit 10)
      · rw [if_pos hdec, scan_minor_word l _ _ (by simp [hexec, hpriv, hdec])]
        rfl
      · have hnone : l.scanned = none := by
          rw [MapsLine.scanned, if_neg]
          simp only [hexec, hpriv, Bool.true_and, Bool.and_eq_true, decide_eq_true_eq]
          exact hdec
        rw [if_neg hdec, hnone]
        rfl
    · have hnone : l.scanned = none := by simp [MapsLine.scanned, hpriv]
      rw [if_pos hexec, scan_lit, if_neg hpriv, scan_lit_ne (by decide), hnone]
      rfl
  · have hnone : l.scanned = none := by simp [MapsLine.scanned, hexec]
    rw [if_neg hexec, scan_lit_ne (by decide), hnone]
    rfl

/-! ## 2. A whole file -/

/-- The ranges in a trace, as `hrange_submit` was asked for them. -/
def submitted (t : List Event) : List (Nat × Nat × Nat) :=
  t.filterMap fun e =>
    match e with
    | .vmcall (.rangeSubmit start stop id) _ => some (start, stop, id)
    | .skipped (.rangeSubmit start stop id) => some (start, stop, id)
    | _ => none

/-- Ranges numbered from `n` in the type `unsigned`. -/
def numbered : Nat → List (Nat × Nat) → List (Nat × Nat × Nat)
  | _, [] => []
  | n, r :: rs => (r.1, r.2, n) :: numbered ((n + 1) % 2 ^ 32) rs

/-- The strings `fgets` returns for a stream, one after the other, at most `n`
of them. -/
def readLines : Nat → FILE → List Bytes
  | 0, _ => []
  | n + 1, fp =>
    match fp.fgets 4096 with
    | none => []
    | some (line, fp') => line :: readLines n fp'

/-- The range that `detectranges` finds in a string. -/
def matched (pattern line : Bytes) : Option (Nat × Nat) :=
  match sscanf mapsFormat (cstr line) with
  | (3, [.num start, .num stop, .str file]) =>
    if strstr file pattern then some (start, stop) else none
  | _ => none

/-- The ranges that `detectranges` finds in a stream. -/
def matchedRanges (pattern : Bytes) (fp : FILE) : List (Nat × Nat) :=
  (readLines fp.data.length fp).filterMap (matched pattern)

/-- The ranges of the lines that a predicate selects. -/
def rangesOf (select : MapsLine → Bool) (lines : List MapsLine) : List (Nat × Nat) :=
  (lines.filter select).map MapsLine.range

namespace DetectLemmas

theorem submitted_append (t u : List Event) :
    submitted (t ++ u) = submitted t ++ submitted u :=
  List.filterMap_append

theorem digit_bytes {base : Nat} {digits : Bytes} (hds : ∀ c ∈ digits, isDigit base c = true) :
    ∀ c ∈ digits, c ≠ 0 ∧ c ≠ 10 := by
  intro c hc
  have hle := isDigit_bounds (hds c hc)
  constructor
  · rintro rfl
    exact absurd hle (by decide)
  · rintro rfl
    exact absurd hle (by decide)

/-- A line is free of NULs, and its newline is its last byte. -/
theorem text_bytes (l : MapsLine) : ∀ c ∈ l.text, c ≠ 0 ∧ c ≠ 10 := by
  have htail : ∀ c ∈ l.tail, c ≠ 0 ∧ c ≠ 10 := by
    intro c hc
    unfold MapsLine.tail at hc
    cases hpath : l.path with
    | none =>
      rw [hpath] at hc
      rw [(List.mem_replicate.mp hc).2]
      decide
    | some p =>
      rw [hpath] at hc
      obtain ⟨-, -, hnewline, hnul⟩ := l.path_text p hpath
      rcases List.mem_append.mp hc with hc | hc
      · rw [(List.mem_replicate.mp hc).2]
        decide
      · exact ⟨fun h => hnul (h ▸ hc), fun h => hnewline (h ▸ hc)⟩
  have hperms : ∀ c ∈ l.perms, c ≠ 0 ∧ c ≠ 10 := by
    unfold MapsLine.perms
    cases l.read <;> cases l.write <;> cases l.exec <;> cases l.priv <;> decide +kernel
  have hinode := digit_bytes l.inode_dec.2
  intro c hc
  simp only [MapsLine.text, List.mem_append, List.mem_cons] at hc
  rcases hc with hc | rfl | hc | rfl | hc | rfl | hc | rfl | hc | rfl | hc | rfl | hc | hc
  · exact digit_bytes l.start_hex.2 c hc
  · decide
  · exact digit_bytes l.stop_hex.2 c hc
  · decide
  · exact hperms c hc
  · decide
  · exact digit_bytes l.offset_hex.2 c hc
  · decide
  · exact digit_bytes l.major_hex.2 c hc
  · decide
  · exact digit_bytes l.minor_hex.2 c hc
  · decide
  · exact hinode c hc
  · exact htail c hc

theorem cstr_render (l : MapsLine) : cstr l.render = l.render := by
  refine cstr_of_noNul fun h0 => ?_
  rcases List.mem_append.mp h0 with h | h
  · exact (text_bytes l 0 h).1 rfl
  · exact absurd h (by decide)

/-- `fgets` reads one line of the file. -/
theorem fgets_render {l : MapsLine} (hlen : l.render.length < 4096) (rest : Bytes) :
    FILE.fgets { data := l.render ++ rest } 4096 = some (l.render, { data := rest }) := by
  have hbody : (l.render ++ rest).takeWhile (· ≠ 10) = l.text := by
    rw [MapsLine.render, List.append_assoc]
    refine takeWhile_stops (fun c hc => ?_) (stops_cons (by decide))
    simpa using (text_bytes l c hc).2
  have hlt : l.text.length < (l.render ++ rest).length := by
    simp only [MapsLine.render, List.length_append, List.length_singleton]
    omega
  have htake : (l.text ++ [10]).take (4096 - 1) = l.render :=
    List.take_of_length_le (by rw [MapsLine.render] at hlen; omega)
  have hne : l.render ≠ [] := by simp [MapsLine.render]
  simp only [FILE.fgets, hbody, if_pos hlt, htake]
  simp [hne]

/-- A call of `hrange_submit` shows in the trace, executed or skipped. -/
theorem hrangeSubmit_run {w : World} (hcpu : w.nyxCpuType ≠ .nyxCpuInvalid)
    (fuel id start stop : Nat) :
    ∃ w', (hrangeSubmit fuel id start stop).run w = (.ok (), w') ∧
      w'.nyxCpuType = w.nyxCpuType ∧
      submitted w'.trace = submitted w.trace ++ [(start, stop, id)] := by
  have hskipped (ht : w.nyxCpuType = .nyxCpuV2 ∨ w.nyxCpuType = .nyxCpuNone) :
      ∃ w', (hrangeSubmit fuel id start stop).run w = (.ok (), w') ∧
        w'.nyxCpuType = w.nyxCpuType ∧
        submitted w'.trace = submitted w.trace ++ [(start, stop, id)] := by
    refine ⟨{ w with trace := w.trace ++ [.skipped (.rangeSubmit start stop id)] }, ?_, rfl, ?_⟩
    · rw [hrangeSubmit, Prog.run_bind_ok (hypercall_run_skipped ht fuel _), Prog.run_pure]
    · rw [submitted_append]
      rfl
  cases ht : w.nyxCpuType with
  | nyxCpuInvalid => exact absurd ht hcpu
  | nyxCpuV1 =>
    refine ⟨{ w with trace := w.trace ++ [.vmcall (.rangeSubmit start stop id) 0] }, ?_, ht, ?_⟩
    · rw [hrangeSubmit, Prog.run_bind, hypercall_run_v1 ht, kAFLHypercall_run (by simp)]
      rfl
    · rw [submitted_append]
      rfl
  | nyxCpuV2 => exact ht ▸ hskipped (.inl ht)
  | nyxCpuNone => exact ht ▸ hskipped (.inr ht)

/-- What the format finds, if it finds three fields. -/
theorem maps_vals {line : Bytes} {vals : List Val} (h : sscanf mapsFormat line = (3, vals)) :
    ∃ start stop file, vals = [.num start, .num stop, .str file] := by
  have hall : List.Forall₂ Val.Fits [.lx, .lx, .s] vals := sscanf_all h
  obtain _ | ⟨hstart, _ | ⟨hstop, _ | ⟨hfile, _ | _⟩⟩⟩ := hall
  obtain ⟨start, rfl⟩ := hstart.num (.inr rfl)
  obtain ⟨stop, rfl⟩ := hstop.num (.inr rfl)
  obtain ⟨file, rfl⟩ := hfile.str
  exact ⟨start, stop, file, rfl⟩

end DetectLemmas

/-- A string is submitted, under the next number, exactly if there is a range
in it. -/
theorem detectLine_run {w : World} (hcpu : w.nyxCpuType ≠ .nyxCpuInvalid) (fuel : Nat)
    (pattern line : Bytes) (region : Nat) :
    ∃ w', (detectLine fuel pattern line region).run w =
        (.ok (if (matched pattern line).isSome then (region + 1) % 2 ^ 32 else region), w') ∧
      w'.nyxCpuType = w.nyxCpuType ∧
      submitted w'.trace = submitted w.trace ++
        (matched pattern line).toList.map fun r => (r.1, r.2, region) := by
  have hnone (hmatch : matched pattern line = none)
      (hrun : (detectLine fuel pattern line region).run w = (.ok region, w)) :
      ∃ w', (detectLine fuel pattern line region).run w =
          (.ok (if (matched pattern line).isSome then (region + 1) % 2 ^ 32 else region), w') ∧
        w'.nyxCpuType = w.nyxCpuType ∧
        submitted w'.trace = submitted w.trace ++
          (matched pattern line).toList.map fun r => (r.1, r.2, region) := by
    rw [hmatch]
    exact ⟨w, hrun, rfl, by simp⟩
  generalize hscan : sscanf mapsFormat (cstr line) = p
  obtain ⟨n, vals⟩ := p
  by_cases hn : n = 3
  case neg =>
    refine hnone ?_ ?_
    · simp only [matched, hscan]
      split <;> simp_all
    · simp only [detectLine, hscan]
      split <;> simp_all
  subst hn
  obtain ⟨start, stop, file, rfl⟩ := maps_vals hscan
  cases hmatch : strstr file pattern with
  | false => exact hnone (by simp [matched, hscan, hmatch]) (by simp [detectLine, hscan, hmatch])
  | true =>
    have hfound : matched pattern line = some (start, stop) := by simp [matched, hscan, hmatch]
    have hline := hprintf_run (matchedMessage region start stop file) w
    generalize hw1 : (w.vmcall (.printf ((matchedMessage region start stop file).take
      (HPRINTF_MAX_SIZE - 1) ++ [0]))).2 = w1 at hline
    have hcpu1 : w1.nyxCpuType = w.nyxCpuType := by rw [← hw1]; rfl
    have htrace1 : submitted w1.trace = submitted w.trace := by
      rw [← hw1]
      simp [World.vmcall, World.react, submitted]
    obtain ⟨w2, hrun, hcpu2, htrace2⟩ := hrangeSubmit_run (w := w1) (by rwa [hcpu1]) fuel region
      start stop
    refine ⟨w2, ?_, hcpu2.trans hcpu1, ?_⟩
    · simp only [detectLine, hscan, hmatch, if_true, Prog.run_bind_ok hline,
        Prog.run_bind_ok hrun, Prog.run_pure, hfound, Option.isSome_some]
    · rw [htrace2, htrace1, hfound]
      rfl

namespace DetectLemmas

/-- Every string `fgets` returns takes something from the stream. -/
theorem fgets_shrinks {fp fp' : FILE} {line : Bytes} {size : Nat}
    (h : fp.fgets size = some (line, fp')) : fp'.data.length < fp.data.length := by
  obtain ⟨body, hbody⟩ : ∃ body, body = fp.data.takeWhile (· ≠ 10) := ⟨_, rfl⟩
  obtain ⟨taken, htaken⟩ : ∃ taken, taken =
      (if body.length < fp.data.length then body ++ [10] else body).take (size - 1) := ⟨_, rfl⟩
  have htaken' := htaken
  rw [hbody] at htaken'
  simp only [FILE.fgets, ← htaken'] at h
  split at h
  · cases h
  · next hcond =>
    simp only [Option.some.injEq, Prod.mk.injEq] at h
    obtain ⟨rfl, rfl⟩ := h
    simp only [Bool.or_eq_true, decide_eq_true_eq, not_or] at hcond
    have hpos := List.length_pos_iff.mpr hcond.1
    have hdata : fp.data ≠ [] := by
      intro hnil
      refine hcond.1 ?_
      rw [htaken, hbody, hnil]
      simp
    have hpos' := List.length_pos_iff.mpr hdata
    simp only [List.length_drop]
    omega

/-- The loop over any stream, by induction on its length. -/
theorem loop_run (inner : Nat) (pattern : Bytes) : ∀ (n fuel : Nat) (fp : FILE) (region : Nat)
    {w : World}, w.nyxCpuType ≠ .nyxCpuInvalid → fp.data.length ≤ n →
    (readLines n fp).length < fuel → region < 2 ^ 32 →
    ∃ w', (Prog.iter .timeout (detectRound inner pattern) fuel (fp, region)).run w =
        (.ok ((region + ((readLines n fp).filterMap (matched pattern)).length) % 2 ^ 32), w') ∧
      submitted w'.trace =
        submitted w.trace ++ numbered region ((readLines n fp).filterMap (matched pattern))
  | _, 0, _, _, _, _, _, hfuel, _ => absurd hfuel (Nat.not_lt_zero _)
  | n, fuel + 1, fp, region, w, hcpu, hn, hfuel, hregion => by
    cases hget : fp.fgets 4096 with
    | none =>
      have hlines : readLines n fp = [] := by
        cases n with
        | zero => rfl
        | succ n => simp only [readLines, hget]
      have hround : (detectRound inner pattern (fp, region)).run w = (.ok (.inr region), w) := by
        simp only [detectRound, hget, Prog.run_pure]
      refine ⟨w, ?_, by simp [hlines, numbered]⟩
      rw [Prog.run_iter_done hround, hlines]
      show _ = (Except.ok ((region + 0) % 2 ^ 32), w)
      rw [Nat.add_zero, Nat.mod_eq_of_lt hregion]
    | some p =>
      obtain ⟨line, fp'⟩ := p
      have hshort := fgets_shrinks hget
      obtain ⟨n, rfl⟩ : ∃ m, n = m + 1 := Nat.exists_eq_succ_of_ne_zero (by omega)
      have hlines : readLines (n + 1) fp = line :: readLines n fp' := by
        simp only [readLines, hget]
      obtain ⟨w1, hline, hcpu1, htrace1⟩ := detectLine_run hcpu inner pattern line region
      have hround : (detectRound inner pattern (fp, region)).run w = (.ok (.inl (fp',
          if (matched pattern line).isSome then (region + 1) % 2 ^ 32 else region)), w1) := by
        simp only [detectRound, hget, Prog.run_bind_ok hline, Prog.run_pure]
      have hregion1 : (if (matched pattern line).isSome then (region + 1) % 2 ^ 32 else region) <
          2 ^ 32 := by
        split <;> omega
      rw [hlines] at hfuel ⊢
      obtain ⟨w2, hrun, htrace2⟩ := loop_run inner pattern n fuel fp' _ (by rwa [hcpu1])
        (by omega) (Nat.lt_of_succ_lt_succ hfuel) hregion1
      refine ⟨w2, ?_, ?_⟩
      · rw [Prog.run_iter_again hround, hrun]
        cases hfound : matched pattern line with
        | none => simp [hfound]
        | some r =>
          simp only [Option.isSome_some, if_true, List.filterMap_cons, hfound, List.length_cons]
          congr 2
          omega
      · rw [htrace2, htrace1, List.filterMap_cons]
        cases matched pattern line <;> simp [numbered]

theorem readLines_length : ∀ (n : Nat) (fp : FILE), (readLines n fp).length ≤ n
  | 0, _ => Nat.le_refl 0
  | n + 1, fp => by
    rw [readLines]
    split
    · exact Nat.zero_le _
    · next line fp' _ => exact Nat.succ_le_succ (readLines_length n fp')

end DetectLemmas

/-- `detectranges` on any stream: the ranges in it are submitted in order,
numbered in the type `unsigned`. -/
theorem detectranges_stream {w : World} {mapfile : Bytes} {fp : FILE} {fuel : Nat}
    (pattern : Bytes) (hcpu : w.nyxCpuType ≠ .nyxCpuInvalid)
    (hopen : (fopen mapfile).run w = (.ok (some fp), w.called))
    (hfuel : (readLines fp.data.length fp).length < fuel) :
    ∃ w', (detectranges fuel mapfile pattern).run w =
        (.ok (unsignedToInt ((matchedRanges pattern fp).length % 2 ^ 32)), w') ∧
      submitted w'.trace = submitted w.trace ++ numbered 0 (matchedRanges pattern fp) := by
  obtain ⟨w', hrun, htrace⟩ :=
    loop_run fuel pattern fp.data.length fuel fp 0 (w := w.called) hcpu (Nat.le_refl _) hfuel
      (by decide)
  refine ⟨w', ?_, htrace⟩
  rw [detectranges, Prog.run_bind_ok hopen]
  simp only [Option.isNone_some, errnoFailOn, Bool.false_eq_true, if_false]
  rw [Prog.run_bind_ok (Prog.run_pure _ _), Prog.run_bind_ok hrun, Prog.run_pure, Nat.zero_add]
  rfl

namespace DetectLemmas

/-- The range of a line is found exactly if the line is `picked`. -/
theorem matched_render (pattern : Bytes) (l : MapsLine) :
    matched pattern l.render = if l.picked pattern then some l.range else none := by
  have hscan := sscanf_render l
  cases hword : l.scanned with
  | none =>
    rw [hword] at hscan
    simp [matched, cstr_render, hscan, MapsLine.picked, hword]
  | some word =>
    rw [hword] at hscan
    simp [matched, cstr_render, hscan, MapsLine.picked, hword]

/-- The lines of a file are read one by one. -/
theorem readLines_render : ∀ (lines : List MapsLine) (n : Nat),
    (∀ l ∈ lines, l.render.length < 4096) → lines.length ≤ n →
    readLines n { data := (lines.map MapsLine.render).flatten } = lines.map MapsLine.render
  | [], 0, _, _ => rfl
  | [], n + 1, _, _ => by simp [readLines, FILE.fgets]
  | l :: lines, 0, _, hn => absurd hn (Nat.not_succ_le_zero _)
  | l :: lines, n + 1, hshort, hn => by
    rw [List.map_cons, List.flatten_cons, readLines, fgets_render (hshort l List.mem_cons_self)]
    simp only [readLines_render lines n (fun l' hl' => hshort l' (List.mem_cons_of_mem _ hl'))
      (Nat.le_of_succ_le_succ hn)]

theorem length_le_render (lines : List MapsLine) :
    lines.length ≤ (lines.map MapsLine.render).flatten.length := by
  induction lines with
  | nil => exact Nat.zero_le _
  | cons l lines ih =>
    have hpos : 0 < l.render.length := by simp [MapsLine.render]
    simp only [List.map_cons, List.flatten_cons, List.length_append, List.length_cons]
    omega

theorem matchedRanges_render (pattern : Bytes) {lines : List MapsLine}
    (hshort : ∀ l ∈ lines, l.render.length < 4096) :
    matchedRanges pattern { data := (lines.map MapsLine.render).flatten } =
      rangesOf (MapsLine.picked pattern) lines := by
  rw [matchedRanges, readLines_render lines _ hshort (length_le_render lines),
    List.filterMap_map, rangesOf]
  have hfun : matched pattern ∘ MapsLine.render =
      fun l => if l.picked pattern then some l.range else none :=
    funext (matched_render pattern)
  rw [hfun]
  clear hshort hfun
  induction lines with
  | nil => rfl
  | cons l lines ih => cases hp : l.picked pattern <;> simp [hp, ih]

end DetectLemmas

/-- `detectranges` on a file of lines that fit into its buffer: the picked
lines are submitted in order, numbered in the type `unsigned`. -/
theorem detectranges_run {w : World} {mapfile pattern : Bytes} {lines : List MapsLine}
    {mode fuel : Nat} (hcpu : w.nyxCpuType ≠ .nyxCpuInvalid)
    (hopen : w.env.openErr w.lookups mapfile = none)
    (hread : w.env.streamErr w.lookups mapfile = none)
    (hfile : w.files (w.resolve mapfile) = some ⟨(lines.map MapsLine.render).flatten, mode⟩)
    (hshort : ∀ l ∈ lines, l.render.length < 4096) (hfuel : lines.length < fuel) :
    ∃ w', (detectranges fuel mapfile pattern).run w =
        (.ok (unsignedToInt ((rangesOf (MapsLine.picked pattern) lines).length % 2 ^ 32)), w') ∧
      submitted w'.trace =
        submitted w.trace ++ numbered 0 (rangesOf (MapsLine.picked pattern) lines) := by
  have hfopen : (fopen mapfile).run w =
      (.ok (some { data := (lines.map MapsLine.render).flatten }), w.called) := by
    simp [fopen, hopen, hfile, hread]
  have hranges := matchedRanges_render pattern hshort
  rw [← hranges]
  refine detectranges_stream pattern hcpu hfopen ?_
  rw [readLines_render lines _ hshort (length_le_render lines), List.length_map]
  exact hfuel

/-! ## 3. When the submitted ranges are the wanted ones -/

/-- The run submitted the ranges of the wanted lines in file order, numbered
from 0, and returned their number. -/
def ExactRanges (pattern : Bytes) (lines : List MapsLine) (w w' : World) (ret : Int) : Prop :=
  submitted w'.trace = submitted w.trace ++
      (rangesOf (MapsLine.wanted pattern) lines).mapIdx (fun i r => (r.1, r.2, i)) ∧
    ret = (rangesOf (MapsLine.wanted pattern) lines).length

namespace DetectLemmas

theorem numbered_ranges (n : Nat) (rs : List (Nat × Nat)) :
    (numbered n rs).map (fun r => (r.1, r.2.1)) = rs := by
  induction rs generalizing n with
  | nil => rfl
  | cons r rs ih => simp [numbered, ih]

/-- The numbers are the positions as long as the counter does not wrap. -/
theorem numbered_eq_mapIdx (n : Nat) (rs : List (Nat × Nat)) (h : n + rs.length < 2 ^ 32) :
    numbered n rs = rs.mapIdx fun i r => (r.1, r.2, n + i) := by
  induction rs generalizing n with
  | nil => rfl
  | cons r rs ih =>
    rw [List.length_cons] at h
    have hmod : (n + 1) % 2 ^ 32 = n + 1 := Nat.mod_eq_of_lt (by omega)
    rw [numbered, hmod, ih (n + 1) (by omega), List.mapIdx_cons]
    simp [Nat.add_assoc, Nat.add_comm 1]

theorem mapIdx_ranges (rs : List (Nat × Nat)) :
    (rs.mapIdx fun i r => (r.1, r.2, i)).map (fun r => (r.1, r.2.1)) = rs := by
  apply List.ext_getElem
  · simp
  · intro i h1 h2
    simp

theorem unsignedToInt_eq_iff (n : Nat) :
    unsignedToInt (n % 2 ^ 32) = n ↔ n < 2 ^ 31 := by
  have hdef := Int.bmod_def ((n % 2 ^ 32 : Nat) : Int) 4294967296
  have hto : unsignedToInt (n % 2 ^ 32) = Int.bmod ((n % 2 ^ 32 : Nat) : Int) 4294967296 := rfl
  rw [hto, hdef]
  have hpow : 2 ^ 32 = 4294967296 := rfl
  have hpow' : 2 ^ 31 = 2147483648 := rfl
  rw [hpow, hpow']
  split <;> omega

/-- With distinct ranges, two selections submit the same ranges only if they
select the same lines. -/
theorem rangesOf_eq_iff {f g : MapsLine → Bool} {lines : List MapsLine}
    (hdistinct : (lines.map MapsLine.range).Nodup) :
    rangesOf f lines = rangesOf g lines ↔ ∀ l ∈ lines, f l = g l := by
  constructor
  · intro heq l hl
    have hmem (f g : MapsLine → Bool) (h : rangesOf f lines = rangesOf g lines)
        (hf : f l = true) : g l = true := by
      have hin : l.range ∈ rangesOf f lines :=
        List.mem_map_of_mem (List.mem_filter.mpr ⟨hl, hf⟩)
      rw [h] at hin
      obtain ⟨l', hl', hrange⟩ := List.mem_map.mp hin
      obtain ⟨hl', hg⟩ := List.mem_filter.mp hl'
      have hsame : l' = l := List.inj_on_of_nodup_map hdistinct hl' hl hrange
      rwa [← hsame]
    rw [Bool.eq_iff_iff]
    exact ⟨hmem f g heq, hmem g f heq.symm⟩
  · intro h
    rw [rangesOf, rangesOf, List.filter_congr h]

end DetectLemmas

/-- The submitted ranges are exactly the wanted ones if and only if the lines
the format picks are, as ranges, the wanted ones, and their number fits into an
`int`. In a file without two mappings of the same range, that is so exactly if
the format picks every wanted line and no other. -/
theorem detectranges_exact_iff {w : World} {mapfile pattern : Bytes} {lines : List MapsLine}
    {mode fuel : Nat} (hcpu : w.nyxCpuType ≠ .nyxCpuInvalid)
    (hopen : w.env.openErr w.lookups mapfile = none)
    (hread : w.env.streamErr w.lookups mapfile = none)
    (hfile : w.files (w.resolve mapfile) = some ⟨(lines.map MapsLine.render).flatten, mode⟩)
    (hshort : ∀ l ∈ lines, l.render.length < 4096) (hfuel : lines.length < fuel) :
    ∃ ret w', (detectranges fuel mapfile pattern).run w = (.ok ret, w') ∧
      (ExactRanges pattern lines w w' ret ↔
        rangesOf (MapsLine.picked pattern) lines = rangesOf (MapsLine.wanted pattern) lines ∧
        (rangesOf (MapsLine.wanted pattern) lines).length < 2 ^ 31) ∧
      ((lines.map MapsLine.range).Nodup →
        (ExactRanges pattern lines w w' ret ↔
          (∀ l ∈ lines, l.picked pattern = l.wanted pattern) ∧
          (rangesOf (MapsLine.wanted pattern) lines).length < 2 ^ 31)) := by
  obtain ⟨w', hrun, htrace⟩ := detectranges_run hcpu hopen hread hfile hshort hfuel
  have hiff : ExactRanges pattern lines w w' (unsignedToInt
        ((rangesOf (MapsLine.picked pattern) lines).length % 2 ^ 32)) ↔
      rangesOf (MapsLine.picked pattern) lines = rangesOf (MapsLine.wanted pattern) lines ∧
      (rangesOf (MapsLine.wanted pattern) lines).length < 2 ^ 31 := by
    rw [ExactRanges, htrace, List.append_cancel_left_eq]
    constructor
    · rintro ⟨hlist, hret⟩
      have hranges := congrArg (List.map fun r => (r.1, r.2.1)) hlist
      rw [numbered_ranges, mapIdx_ranges] at hranges
      rw [hranges] at hret
      exact ⟨hranges, (unsignedToInt_eq_iff _).mp hret⟩
    · rintro ⟨hranges, hlt⟩
      rw [hranges]
      refine ⟨?_, (unsignedToInt_eq_iff _).mpr hlt⟩
      rw [numbered_eq_mapIdx 0 _ (by omega)]
      simp only [Nat.zero_add]
  exact ⟨_, w', hrun, hiff, fun hdistinct => by rw [hiff, rangesOf_eq_iff hdistinct]⟩

/-- A mapping of a program on a device with a hexadecimal letter in its major
number. -/
def bisonLine (major : Bytes) (hmajor : 2 ≤ major.length ∧ ∀ c ∈ major, isDigit 16 c = true) :
    MapsLine where
  start := ascii "1000"
  stop := ascii "2000"
  read := true
  write := false
  exec := true
  priv := true
  offset := ascii "0"
  major := major
  minor := ascii "01"
  inode := ascii "7"
  padding := 0
  path := some (ascii "/bison")
  start_hex := by decide +kernel
  start_lt := by decide +kernel
  stop_hex := by decide +kernel
  stop_lt := by decide +kernel
  offset_hex := by decide +kernel
  major_hex := hmajor
  minor_hex := by decide +kernel
  inode_dec := by decide +kernel
  path_text := by
    rintro p ⟨⟩
    refine ⟨by decide +kernel, ?_, by decide +kernel, by decide +kernel⟩
    rintro c ⟨⟩
    decide

/-- Two major numbers. -/
theorem decMajor : 2 ≤ (ascii "08").length ∧ ∀ c ∈ ascii "08", isDigit 16 c = true := by
  decide +kernel

theorem hexMajor : 2 ≤ (ascii "fd").length ∧ ∀ c ∈ ascii "fd", isDigit 16 c = true := by
  decide +kernel

/-- A world whose maps file consists of one line. -/
def mapsWorld (l : MapsLine) : World :=
  { freshNyxWorld with
    files := fun name => if name = ascii "/m" then some ⟨[l].flatMap MapsLine.render, 0⟩ else none }

/-- On device `08:01` the line is found. -/
theorem detectranges_exact_decimal :
    ∃ ret w', (detectranges 2 (ascii "/m") (ascii "bison")).run
        (mapsWorld (bisonLine (ascii "08") decMajor)) = (.ok ret, w') ∧
      (ExactRanges (ascii "bison") [bisonLine (ascii "08") decMajor]
          (mapsWorld (bisonLine (ascii "08") decMajor)) w' ret ↔
        rangesOf (MapsLine.picked (ascii "bison")) [bisonLine (ascii "08") decMajor] =
          rangesOf (MapsLine.wanted (ascii "bison")) [bisonLine (ascii "08") decMajor] ∧
        (rangesOf (MapsLine.wanted (ascii "bison"))
          [bisonLine (ascii "08") decMajor]).length < 2 ^ 31) ∧
      (([bisonLine (ascii "08") decMajor].map MapsLine.range).Nodup →
        (ExactRanges (ascii "bison") [bisonLine (ascii "08") decMajor]
            (mapsWorld (bisonLine (ascii "08") decMajor)) w' ret ↔
          (∀ l ∈ [bisonLine (ascii "08") decMajor],
            l.picked (ascii "bison") = l.wanted (ascii "bison")) ∧
          (rangesOf (MapsLine.wanted (ascii "bison"))
            [bisonLine (ascii "08") decMajor]).length < 2 ^ 31)) :=
  detectranges_exact_iff (by decide) rfl rfl rfl (by decide) (by decide)

/-- On device `fd:01` the same line is dropped without an error. -/
theorem detectranges_drops_hex_device :
    (bisonLine (ascii "fd") hexMajor).wanted (ascii "bison") = true ∧
      ((detectranges 2 (ascii "/m") (ascii "bison")).run
        (mapsWorld (bisonLine (ascii "fd") hexMajor))).1 = .ok 0 ∧
      submitted ((detectranges 2 (ascii "/m") (ascii "bison")).run
        (mapsWorld (bisonLine (ascii "fd") hexMajor))).2.trace = [] := by
  decide +kernel

end KaflTargets.ForkServer
