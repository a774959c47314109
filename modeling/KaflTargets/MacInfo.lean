import KaflTargets.Lib.LocalArray
import KaflTargets.Lib.Scanf
import KaflTargets.Lib.Text
import KaflTargets.World

/-!
# The table of kernel extensions on macOS (`macOS_x86_64/info/info.c`)

The output of `kextstat` is read with `fgets` into an array of 4096 bytes and divided with
`strtok`. A counter of 8 bits says which field it is. What is found goes to a buffer with
`sprintf`; the limit that is passed along is not looked at.

Results:
1. `fieldLoop_run`: what the inner loop prints for the fields of a piece.
2. `length_pieceRows`: the counter gives a row again after 256 fields. `rows_regular_iff`,
   `regular_fits_iff`: which lines give their row and no other. `strtoull_numeral`: the
   numbers of a row.
-/

namespace KaflTargets.MacInfo

open CString Prog

/-! ## The tool -/

def DELIMITER : Bytes :=
  ascii "\n------------------------------------------------------------------"

/-- `%016llx`. -/
def hex016 (n : UInt64) : Bytes := List.replicate (16 - (hex n.toNat).length) 48 ++ hex n.toNat

/-- What is printed. -/
inductive Output
  | title
  /-- The first line of `kextstat`. -/
  | header (line : Bytes)
  | row (start stop : UInt64) (name : Bytes)
  deriving DecidableEq

def Output.bytes : Output → Bytes
  | .title => ascii "XNU Kext Address Ranges:" ++ DELIMITER ++ ascii "\n"
  | .header line => line
  | .row start stop name =>
    ascii "0x" ++ hex016 start ++ ascii "\t0x" ++ hex016 stop ++ ascii "\t" ++ name ++ ascii "\n"

/-- A `sprintf` into the buffer: what it printed, the value of `*pos` before it, and how
much of the pipe had been read. -/
structure Entry where
  offset : Nat
  pos : UInt32
  output : Output

structure Info where
  mem : Mem
  pos : UInt32
  /-- How much of the pipe was read. -/
  offset : Nat := 0
  log : List Entry := []

abbrev Tool := Prog Stop Info

/-- `(*pos) += sprintf(buffer + (*pos), ..)`. -/
def sprintf (buffer : Nat) (output : Output) : Tool Unit :=
  Prog.modify fun s =>
    { s with
      mem := s.mem.store (buffer + s.pos.toNat) (output.bytes ++ [0])
      pos := s.pos + UInt32.ofNat output.bytes.length
      log := s.log ++ [⟨s.offset, s.pos, output⟩] }

/-- `fgets(line, sizeof(line), fp)`. -/
def fgets (line : LocalArray 0x1000) (fp : FILE) : Tool (Option (LocalArray 0x1000 × FILE)) :=
  match fp.fgets 0x1000 with
  | none => pure none
  | some (text, fp) =>
    match line.memcpy Stop.overflow 0 (text ++ [0]) with
    | .error e => Prog.stop e
    | .ok line => do
      Prog.modify fun s => { s with offset := s.offset + text.length }
      pure (some (line, fp))

/-- The string in an array. Without a NUL it is read past its end. -/
def stringIn (line : LocalArray 0x1000) : Tool Bytes :=
  if 0 ∈ line.bytes then pure (cstr line.bytes) else Prog.stop .outOfBounds

/-- A byte of `" \n"`. -/
def isDelimiter (c : UInt8) : Bool := c = 32 || c = 10

/-- `strtok(.., " \n")`: the token, and where the next call goes on. -/
def strtok (text : Bytes) : Option (Bytes × Bytes) := Text.nextField isDelimiter text

/-- `strtoull(pch, NULL, 16)`. -/
def strtoull (pch : Bytes) : UInt64 :=
  match Scanf.number 16 none (pch.dropWhile Scanf.isspace) with
  | some (neg, digits, _) => UInt64.ofNat (Scanf.toULong neg (Scanf.valueOf 16 digits))
  | none => 0

/-- The variables of the inner loop, with the state of `strtok` behind the token. -/
structure FieldVars where
  counter : UInt8
  start : UInt64
  offset : UInt64
  pch : Option (Bytes × Bytes)

/-- The inner `while`. -/
def fieldRound (buffer : Nat) (v : FieldVars) : Tool (FieldVars ⊕ (UInt64 × UInt64)) :=
  match v.pch with
  | none => pure (.inr (v.start, v.offset))
  | some (pch, saved) => do
    let v ←
      if v.counter = 2 then pure { v with start := strtoull pch }
      else if v.counter = 3 then pure { v with offset := strtoull pch }
      else if v.counter = 5 then do
        sprintf buffer (.row v.start (v.start + v.offset) pch)
        pure v
      else pure v
    pure (.inl { v with counter := v.counter + 1, pch := strtok saved })

/-- The variables of the outer loop. -/
structure LineVars where
  line : LocalArray 0x1000
  fp : FILE
  start : UInt64
  offset : UInt64

/-- The outer `while`. -/
def lineRound (fuel buffer : Nat) (v : LineVars) : Tool (LineVars ⊕ Unit) := do
  match ← fgets v.line v.fp with
  | none => pure (.inr ())
  | some (line, fp) =>
    let text ← stringIn line
    let (start, offset) ← Prog.iter .timeout (fieldRound buffer) fuel
      { counter := 0, start := v.start, offset := v.offset, pch := strtok text }
    pure (.inl { line, fp, start, offset })

/-- `get_xnu_kext_addresses`, where `kextstat` prints `kextstat`. The array `line` holds
`stack` at first, and the two numbers are not initialised either. `max` is not used. -/
def getXnuKextAddresses (fuel : Nat) (kextstat : Bytes) (stack : LocalArray 0x1000)
    (start offset : UInt64) (buffer : Nat) (_max : UInt32) : Tool Unit := do
  sprintf buffer .title
  -- skip first line
  let skipped ← fgets stack { data := kextstat }
  let (line, fp) := skipped.getD (stack, { data := kextstat })
  let text ← stringIn line
  sprintf buffer (.header text)
  Prog.iter .timeout (lineRound fuel buffer) fuel { line, fp, start, offset }

/-! ## Definitions -/

/-- The lines of an output, each with its newline. -/
def lines (output : Bytes) : List Bytes := Text.lines (· = 10) output

/-- The fields of a line. -/
def fieldsOf (line : Bytes) : List Bytes := Text.fields isDelimiter line

/-- The row that the fields of a line give, if there are six. -/
def rowOf : List Bytes → Option Output
  | _ :: _ :: start :: offset :: _ :: name :: _ =>
    some (.row (strtoull start) (strtoull start + strtoull offset) name)
  | _ => none

/-- The pieces in which `fgets` returns a line. -/
def pieces (line : Bytes) : List Bytes := Text.pieces 4094 line

/-- The fields of a piece, of which `strtok` sees what is in front of a NUL. -/
def pieceFields (piece : Bytes) : List Bytes := fieldsOf (cstr piece)

/-- A line of six fields or more has one piece with that many. These are not too many for
the counter, and they give the row of the line. -/
def Regular (line : Bytes) : Prop :=
  6 ≤ (fieldsOf line).length → ∃ left piece right, pieces line = left ++ piece :: right ∧
    (∀ p ∈ left ++ right, (pieceFields p).length < 6) ∧ (pieceFields piece).length < 262 ∧
      rowOf (pieceFields piece) = rowOf (fieldsOf line)

/-! ## 1. The fields of a piece -/

namespace InfoLemmas

/-- The outputs, and how far the pipe had been read. -/
def shown (s : Info) : List (Nat × Output) := s.log.map fun e => (e.offset, e.output)

/-- The tokens from a call of `strtok` on. -/
def remaining : Option (Bytes × Bytes) → List Bytes
  | none => []
  | some (pch, saved) => pch :: fieldsOf saved

/-- What the inner loop prints for the tokens. -/
def rowsFrom (counter : UInt8) (start offset : UInt64) : List Bytes → List Output
  | [] => []
  | pch :: tokens =>
    if counter = 2 then rowsFrom (counter + 1) (strtoull pch) offset tokens
    else if counter = 3 then rowsFrom (counter + 1) start (strtoull pch) tokens
    else if counter = 5 then
      .row start (start + offset) pch :: rowsFrom (counter + 1) start offset tokens
    else rowsFrom (counter + 1) start offset tokens

theorem remaining_strtok (text : Bytes) : remaining (strtok text) = fieldsOf text := by
  unfold strtok fieldsOf
  cases hnext : Text.nextField isDelimiter text with
  | none => exact (Text.fields_of_none hnext).symm
  | some p => exact (Text.fields_of_some hnext).symm

variable {s : Info}

/-- A round that has a token. -/
theorem fieldRound_run (buffer : Nat) {v : FieldVars} {pch saved : Bytes}
    (hpch : v.pch = some (pch, saved)) (s : Info) :
    ∃ v' rows s', (fieldRound buffer v).run s = (.ok (.inl v'), s') ∧ s'.offset = s.offset ∧
      shown s' = shown s ++ rows.map (s.offset, ·) ∧ v'.pch = strtok saved ∧
      ∀ tokens, rowsFrom v.counter v.start v.offset (pch :: tokens) =
        rows ++ rowsFrom v'.counter v'.start v'.offset tokens := by
  unfold fieldRound
  rw [hpch]
  dsimp only
  by_cases h2 : v.counter = 2
  · rw [if_pos h2]
    refine ⟨_, [], s, rfl, rfl, (List.append_nil _).symm, rfl, fun tokens => ?_⟩
    rw [rowsFrom, if_pos h2]
    rfl
  · rw [if_neg h2]
    by_cases h3 : v.counter = 3
    · rw [if_pos h3]
      refine ⟨_, [], s, rfl, rfl, (List.append_nil _).symm, rfl, fun tokens => ?_⟩
      rw [rowsFrom, if_neg h2, if_pos h3]
      rfl
    · rw [if_neg h3]
      by_cases h5 : v.counter = 5
      · rw [if_pos h5]
        refine ⟨_, [.row v.start (v.start + v.offset) pch], _, rfl, rfl, ?_, rfl, fun tokens => ?_⟩
        · exact List.map_append
        · rw [rowsFrom, if_neg h2, if_neg h3, if_pos h5]
          rfl
      · rw [if_neg h5]
        refine ⟨_, [], s, rfl, rfl, (List.append_nil _).symm, rfl, fun tokens => ?_⟩
        rw [rowsFrom, if_neg h2, if_neg h3, if_neg h5]
        rfl

end InfoLemmas

open InfoLemmas

/-- The inner loop prints the rows of its tokens. -/
theorem fieldLoop_run (buffer : Nat) : ∀ (fuel : Nat) (v : FieldVars) (s : Info),
    (remaining v.pch).length < fuel →
    ∃ out s', (Prog.iter .timeout (fieldRound buffer) fuel v).run s = (.ok out, s') ∧
      s'.offset = s.offset ∧
      shown s' = shown s ++
        (rowsFrom v.counter v.start v.offset (remaining v.pch)).map (s.offset, ·) := by
  intro fuel
  induction fuel with
  | zero => exact fun _ _ hfuel => absurd hfuel (Nat.not_lt_zero _)
  | succ fuel ih =>
    intro v s hfuel
    cases hpch : v.pch with
    | none =>
      have hround : (fieldRound buffer v).run s = (.ok (.inr (v.start, v.offset)), s) := by
        unfold fieldRound
        rw [hpch]
        rfl
      exact ⟨_, s, Prog.run_iter_done hround, rfl, (List.append_nil _).symm⟩
    | some p =>
      obtain ⟨pch, saved⟩ := p
      obtain ⟨v', rows, s₁, hround, hoffset, hshown, hnext, hrows⟩ := fieldRound_run buffer hpch s
      have hremaining : remaining v'.pch = fieldsOf saved := by rw [hnext, remaining_strtok]
      rw [hpch] at hfuel
      have hfuel' : (remaining v'.pch).length < fuel := by
        rw [hremaining]
        exact Nat.lt_of_succ_lt_succ hfuel
      obtain ⟨out, s', hrun, hoffset', hshown'⟩ := ih v' s₁ hfuel'
      refine ⟨out, s', (Prog.run_iter_again hround).trans hrun, hoffset'.trans hoffset, ?_⟩
      rw [hshown', hshown, hoffset, hremaining, List.append_assoc, ← List.map_append]
      exact congrArg (fun rows => shown s ++ rows.map (s.offset, ·)) (hrows (fieldsOf saved)).symm

/-! ## 2. The rows of a line -/

namespace InfoLemmas

/-- What is printed for a piece. -/
def pieceRows (piece : Bytes) : List Output := rowsFrom 0 0 0 (pieceFields piece)

/-- Up to six fields give what the line should give. Those behind them are counted from 6. -/
theorem rowsFrom_zero (tokens : List Bytes) :
    (tokens.length < 6 ∧ rowOf tokens = none ∧ ∀ start offset, rowsFrom 0 start offset tokens = [])
      ∨ ∃ row later x y, tokens.length = 6 + later.length ∧ rowOf tokens = some row ∧
        ∀ start offset, rowsFrom 0 start offset tokens = row :: rowsFrom 6 x y later := by
  match tokens with
  | [] => exact .inl ⟨by decide, rfl, fun _ _ => rfl⟩
  | [_] => exact .inl ⟨(by decide : 1 < 6), rfl, fun _ _ => rfl⟩
  | [_, _] => exact .inl ⟨(by decide : 2 < 6), rfl, fun _ _ => rfl⟩
  | [_, _, _] => exact .inl ⟨(by decide : 3 < 6), rfl, fun _ _ => rfl⟩
  | [_, _, _, _] => exact .inl ⟨(by decide : 4 < 6), rfl, fun _ _ => rfl⟩
  | [_, _, _, _, _] => exact .inl ⟨(by decide : 5 < 6), rfl, fun _ _ => rfl⟩
  | _ :: _ :: start :: offset :: _ :: name :: later =>
    exact .inr ⟨_, later, strtoull start, strtoull offset, Nat.add_comm later.length 6,
      rfl, fun _ _ => rfl⟩

theorem rowsFrom_zero_nil_iff {start offset : UInt64} {tokens : List Bytes} :
    rowsFrom 0 start offset tokens = [] ↔ tokens.length < 6 := by
  rcases rowsFrom_zero tokens with ⟨hshort, _, hrows⟩ | ⟨row, later, x, y, hlength, _, hrows⟩
  · exact iff_of_true (hrows start offset) hshort
  · rw [hrows, hlength]
    exact iff_of_false (List.cons_ne_nil _ _) (Nat.not_lt.mpr (Nat.le_add_right _ _))

/-- The counter wraps around, and each time that it comes to the sixth field there is a row. -/
theorem length_rowsFrom (counter : UInt8) (start offset : UInt64) (tokens : List Bytes) :
    (rowsFrom counter start offset tokens).length + (counter.toNat + 250) / 256 =
      (counter.toNat + 250 + tokens.length) / 256 := by
  induction tokens generalizing counter start offset with
  | nil => exact Nat.zero_add _
  | cons pch tokens ih =>
    have hlt := counter.toNat_lt
    have hnext : (counter + 1).toNat = (counter.toNat + 1) % 256 := UInt8.toNat_add counter 1
    have hstep : ∀ start offset, (rowsFrom (counter + 1) start offset tokens).length +
        (counter.toNat + 251) / 256 = (counter.toNat + 250 + (tokens.length + 1)) / 256 := by
      intro start offset
      have hlater := ih (counter + 1) start offset
      rw [hnext] at hlater
      rcases Nat.eq_or_lt_of_le (Nat.le_of_lt_succ hlt) with hlast | hbelow
      · rw [hlast] at hlater ⊢
        omega
      · rw [Nat.mod_eq_of_lt (by omega)] at hlater
        omega
    rw [List.length_cons, rowsFrom]
    split
    · next h =>
      rw [h] at hstep ⊢
      exact hstep _ _
    · split
      · next h =>
        rw [h] at hstep ⊢
        exact hstep _ _
      · split
        · next h =>
          rw [h] at hstep ⊢
          exact hstep _ _
        · next h =>
          have hne : counter.toNat ≠ 5 := fun h5 => h (UInt8.toNat_inj.mp h5)
          have hlater := hstep start offset
          omega

end InfoLemmas

/-- The first row is given by the sixth field, and another one by each 256 fields behind it. -/
theorem length_pieceRows (piece : Bytes) :
    (pieceRows piece).length = ((pieceFields piece).length + 250) / 256 := by
  have hrows := length_rowsFrom 0 0 0 (pieceFields piece)
  rw [Nat.add_comm _ 250]
  exact hrows.trans (congrArg (· / 256) (congrArg (· + _) (Nat.zero_add 250)))

/-- Less than six fields give no row. -/
theorem pieceRows_nil_iff {piece : Bytes} :
    pieceRows piece = [] ↔ (pieceFields piece).length < 6 := rowsFrom_zero_nil_iff

/-- One row is given by six fields or more, as long as the counter does not come back. -/
theorem pieceRows_single_iff {piece : Bytes} {row : Output} :
    pieceRows piece = [row] ↔
      rowOf (pieceFields piece) = some row ∧ (pieceFields piece).length < 262 := by
  unfold pieceRows
  rcases rowsFrom_zero (pieceFields piece) with
    ⟨_, hnone, hrows⟩ | ⟨row', later, x, y, hlength, hsome, hrows⟩
  · rw [hrows, hnone]
    exact iff_of_false (List.cons_ne_nil _ _).symm fun h => nomatch h.1
  · rw [hrows, hsome, hlength, List.cons.injEq, Option.some.injEq]
    have hcount := length_rowsFrom 6 x y later
    rw [show (6 : UInt8).toNat = 6 from rfl] at hcount
    rw [← List.length_eq_zero_iff]
    exact and_congr_right fun _ => ⟨fun hnone => by omega, fun hfew => by omega⟩

namespace InfoLemmas

theorem rowOf_none_iff {tokens : List Bytes} : rowOf tokens = none ↔ tokens.length < 6 := by
  rcases rowsFrom_zero tokens with ⟨hshort, hnone, _⟩ | ⟨row, later, x, y, hlength, hsome, _⟩
  · exact iff_of_true hnone hshort
  · rw [hsome, hlength]
    exact iff_of_false (Option.some_ne_none _) (Nat.not_lt.mpr (Nat.le_add_right _ _))

theorem pieces_fits {line : Bytes} (hfits : line.length ≤ 4095) (hne : line ≠ []) :
    pieces line = [line] := by
  rw [pieces, Text.pieces_eq 4094 hne, List.take_of_length_le hfits, List.drop_eq_nil_of_le hfits,
    Text.pieces_nil]

/-- A piece has no more fields than its line. -/
theorem length_pieceFields_le {line piece : Bytes} (h : piece ∈ pieces line) :
    (pieceFields piece).length ≤ (fieldsOf line).length := by
  have hpiece : piece <:+: line := by
    have hinfix := List.infix_of_mem_flatten h
    rwa [pieces, Text.flatten_pieces] at hinfix
  exact Text.length_fields_infix ((List.takeWhile_prefix _).isInfix.trans hpiece)

end InfoLemmas

/-- The pieces of a line give its row and no other exactly if the line is regular. -/
theorem rows_regular_iff {line : Bytes} :
    (pieces line).flatMap pieceRows = (rowOf (fieldsOf line)).toList ↔ Regular line := by
  unfold Regular
  cases hrow : rowOf (fieldsOf line) with
  | none =>
    have hshort := rowOf_none_iff.mp hrow
    refine iff_of_true (List.flatMap_eq_nil_iff.mpr fun piece hpiece => ?_) fun hlong => ?_
    · exact pieceRows_nil_iff.mpr ((length_pieceFields_le hpiece).trans_lt hshort)
    · exact absurd hlong (Nat.not_le.mpr hshort)
  | some row =>
    have hlong : 6 ≤ (fieldsOf line).length := by
      refine Nat.not_lt.mp fun hshort => ?_
      rw [rowOf_none_iff.mpr hshort] at hrow
      cases hrow
    show (pieces line).flatMap pieceRows = [row] ↔ _
    constructor
    · intro hrows _
      obtain ⟨as, bs, hmap, has, hbs⟩ := List.flatten_eq_singleton_iff.mp hrows
      obtain ⟨left, others, hsplit, rfl, hothers⟩ := List.map_eq_append_iff.mp hmap
      obtain ⟨piece, right, rfl, hpiece, rfl⟩ := List.map_eq_cons_iff.mp hothers
      have hsingle := pieceRows_single_iff.mp hpiece
      refine ⟨left, piece, right, hsplit, fun p hp => pieceRows_nil_iff.mp ?_, hsingle.2, hsingle.1⟩
      rcases List.mem_append.mp hp with hleft | hright
      · exact has _ (List.mem_map_of_mem hleft)
      · exact hbs _ (List.mem_map_of_mem hright)
    · intro hregular
      obtain ⟨left, piece, right, hsplit, hothers, hfew, hpiece⟩ := hregular hlong
      have hnone : ∀ ps : List Bytes, (∀ p ∈ ps, p ∈ left ++ right) → ps.flatMap pieceRows = [] :=
        fun ps hps => List.flatMap_eq_nil_iff.mpr fun p hp =>
          pieceRows_nil_iff.mpr (hothers p (hps p hp))
      rw [hsplit, List.flatMap_append, List.flatMap_cons,
        pieceRows_single_iff.mpr ⟨hpiece, hfew⟩,
        hnone left fun _ => List.mem_append_left _, hnone right fun _ => List.mem_append_right _]
      rfl

/-- A line that fits in the array is one piece. -/
theorem regular_fits_iff {line : Bytes} (hfits : line.length ≤ 4095) (hnul : 0 ∉ line) :
    Regular line ↔ (fieldsOf line).length < 262 := by
  have hfields : pieceFields line = fieldsOf line := by rw [pieceFields, cstr_of_noNul hnul]
  unfold Regular
  rcases Nat.lt_or_ge (fieldsOf line).length 6 with hshort | hlong
  · exact iff_of_true (fun hlong => absurd hlong (Nat.not_le.mpr hshort))
      (hshort.trans (by decide))
  · have hpieces : pieces line = [line] := pieces_fits hfits fun hnil => by
      rw [hnil] at hlong
      exact absurd hlong (by decide)
    rw [hpieces]
    constructor
    · intro h
      obtain ⟨left, piece, right, hsplit, _, hfew, _⟩ := h hlong
      have hmem : piece ∈ [line] := hsplit ▸ List.mem_append_right left List.mem_cons_self
      rwa [List.mem_singleton.mp hmem, hfields] at hfew
    · intro hfew _
      exact ⟨[], line, [], rfl, (fun _ hp => nomatch hp), hfields ▸ hfew, by rw [hfields]⟩

/-- A field that is a number below 2^64 is read as that number. -/
theorem strtoull_numeral (n : Scanf.Numeral 16) (hneg : n.neg = false)
    (hlt : Scanf.valueOf 16 n.digits < 2 ^ 64) :
    (strtoull n.text).toNat = Scanf.valueOf 16 n.digits := by
  have hread := Scanf.convertNum_numeral n
    (fun neg digits => Scanf.toULong neg (Scanf.valueOf 16 digits))
    (show Scanf.Stops _ [] from fun _ h => nomatch h)
  rw [List.append_nil, Scanf.convertNum] at hread
  unfold strtoull
  split at hread
  · cases hread
  · split at hread
    · cases hread
    · next neg digits rest hnumber =>
      obtain ⟨hvalue, _⟩ := Scanf.Outcome.done.inj hread
      rw [hnumber]
      show (UInt64.ofNat (Scanf.toULong neg (Scanf.valueOf 16 digits))).toNat = _
      rw [Scanf.Val.num.inj hvalue, hneg, Scanf.toULong, if_neg (Nat.not_le.mpr hlt),
        if_neg Bool.false_ne_true, UInt64.toNat_ofNat_of_lt' hlt]

end KaflTargets.MacInfo
