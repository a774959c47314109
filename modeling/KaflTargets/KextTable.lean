import Mathlib.Algebra.BigOperators.Group.List.Basic
import KaflTargets.Lib.Memory
import KaflTargets.MacInfo

/-!
# The rows of the kernel extensions (`macOS_x86_64/info/info.c`)

The whole output of `kextstat`: it is read piece by piece, and each row is printed behind the
texts before it.

Results:
1. `lineLoop_run`, `getXnuKextAddresses_run`: what is printed for an output, and when.
   `rowsIn_line`: what is printed while a line is read.
2. `getXnuKextAddresses_ledger`: the position and the memory. `Chain.fits_iff`: when the
   texts end within the limit.
3. `kextAddresses_extracted_iff`: when each line gets its row, within the limit.
   `tame_fits_iff`: the same for lines that fit in the array.
-/

namespace KaflTargets.MacInfo

open CString Prog

/-! ## Definitions -/

def Output.isRow : Output → Bool
  | .row .. => true
  | _ => false

/-- The rows that were printed after so much of the pipe had been read. -/
def rowsBetween (log : List Entry) (start stop : Nat) : List Output :=
  (log.filter fun e => start < e.offset ∧ e.offset ≤ stop ∧ e.output.isRow).map Entry.output

/-- The call returns; while it reads a line behind the first, it prints the row of that
line, if there is one, and no other; and no text goes past `max`. The texts are in the
buffer. -/
structure Extracted (kextstat : Bytes) (mem : Mem) (pos : UInt32) (buffer : Nat) (max : UInt32)
    (r : Except Stop Unit × Info) : Prop where
  returns : r.1 = .ok ()
  rows : ∀ before line after, lines kextstat = before ++ line :: after →
    rowsBetween r.2.log before.flatten.length (before ++ [line]).flatten.length =
      if before = [] then [] else (rowOf (fieldsOf line)).toList
  bounded : ∀ e ∈ r.2.log, e.pos.toNat + e.output.bytes.length ≤ max.toNat
  stored : r.2.mem = mem.store (buffer + pos.toNat)
    ((r.2.log.map fun e => e.output.bytes).flatten ++ [0])

/-- The string that is printed below the title. -/
def headerText (kextstat : Bytes) (stack : LocalArray 0x1000) : Bytes :=
  match lines kextstat with
  | [] => cstr stack.bytes
  | first :: _ => cstr (first.take 4095)

/-- The rows of an output. -/
def expectedRows (kextstat : Bytes) : List Output :=
  (lines kextstat).tail.flatMap fun line => (rowOf (fieldsOf line)).toList

def totalLength (outputs : List Output) : Nat := (outputs.map fun o => o.bytes.length).sum

/-- The condition: what `fgets` leaves of the first line has no six fields in one piece,
the other lines are regular, and all that is printed has room. Of an empty output, the array
that is printed must hold a string. -/
structure Tame (kextstat : Bytes) (stack : LocalArray 0x1000) (pos max : UInt32) : Prop where
  string : kextstat = [] → 0 ∈ stack.bytes
  first : ∀ first ∈ (lines kextstat).head?, ∀ p ∈ (pieces first).tail, (pieceFields p).length < 6
  others : ∀ line ∈ (lines kextstat).tail, Regular line
  room : pos.toNat + totalLength (.title :: .header (headerText kextstat stack) ::
    expectedRows kextstat) ≤ max.toNat

open InfoLemmas

/-! ## 1. The rows of the output -/

namespace InfoLemmas

/-- All that `fgets` returns for a text. -/
def reads (data : Bytes) : List Bytes := (lines data).flatMap pieces

/-- `fgets` returns the first piece of the first line. -/
theorem fgets_line {data line : Bytes} {rest : List Bytes} (h : lines data = line :: rest) :
    FILE.fgets { data } 0x1000 =
      some (line.take 4095, { data := data.drop (line.take 4095).length }) := by
  have hne : line ≠ [] := Text.lines_ne_nil (h ▸ List.mem_cons_self)
  have hbody : (if (data.takeWhile (· ≠ 10)).length < data.length then
      data.takeWhile (· ≠ 10) ++ [10] else data.takeWhile (· ≠ 10)) = line := by
    have hline : line = data.takeWhile (· ≠ 10) ++ (data.dropWhile (· ≠ 10)).take 1 := by
      simpa only [← decide_not] using Text.line_eq h
    have hlength := congrArg List.length
      (List.takeWhile_append_dropWhile (p := fun c : UInt8 => decide (c ≠ 10)) (l := data))
    rw [List.length_append] at hlength
    cases hleft : data.dropWhile (· ≠ 10) with
    | nil =>
      rw [hleft, List.length_nil, Nat.add_zero] at hlength
      rw [hleft] at hline
      rw [if_neg (Nat.not_lt.mpr (Nat.le_of_eq hlength.symm)), hline]
      exact (List.append_nil _).symm
    | cons c left =>
      have hc := List.head?_dropWhile_not (fun c : UInt8 => decide (c ≠ 10)) data
      rw [hleft] at hc hline hlength
      have hc : c = 10 := by simpa using hc
      rw [if_pos (by rw [List.length_cons] at hlength; omega), hline, hc]
      rfl
  unfold FILE.fgets
  dsimp only
  rw [hbody, if_neg]
  simp [hne]

theorem reads_cons {data line : Bytes} {rest : List Bytes} (h : lines data = line :: rest) :
    reads data = line.take 4095 :: reads (data.drop (line.take 4095).length) := by
  have hne : line ≠ [] := Text.lines_ne_nil (h ▸ List.mem_cons_self)
  unfold reads
  rw [h, List.flatMap_cons, pieces, Text.pieces_eq 4094 hne, List.cons_append]
  congr 1
  rcases Nat.lt_or_ge 4095 line.length with hlong | hshort
  · have hdrop : lines (data.drop 4095) = line.drop 4095 :: rest := Text.lines_drop h hlong
    rw [List.length_take_of_le (Nat.le_of_lt hlong), hdrop, List.flatMap_cons]
    rfl
  · have hdrop : lines (data.drop line.length) = rest := Text.lines_drop_line h
    rw [List.take_of_length_le hshort, hdrop, List.drop_eq_nil_of_le hshort, Text.pieces_nil]
    rfl

theorem mem_reads_ne_nil {data piece : Bytes} (h : piece ∈ reads data) : piece ≠ [] := by
  obtain ⟨line, _, hpiece⟩ := List.mem_flatMap.mp h
  exact Text.pieces_ne_nil hpiece

theorem flatten_pieces_lines (ls : List Bytes) : (ls.flatMap pieces).flatten = ls.flatten := by
  induction ls with
  | nil => rfl
  | cons line ls ih =>
    rw [List.flatMap_cons, List.flatten_append, ih, pieces, Text.flatten_pieces, List.flatten_cons]

theorem flatten_reads (data : Bytes) : (reads data).flatten = data := by
  rw [reads, flatten_pieces_lines, lines, Text.flatten_lines]

theorem fgets_run (array : LocalArray 0x1000) {data line : Bytes} {rest : List Bytes}
    (h : lines data = line :: rest) (s : Info) :
    ∃ array', (fgets array { data }).run s =
        (.ok (some (array', { data := data.drop (line.take 4095).length })),
          { s with offset := s.offset + (line.take 4095).length }) ∧
      0 ∈ array'.bytes ∧ cstr array'.bytes = cstr (line.take 4095) := by
  have hfit : 0 + (line.take 4095 ++ [0]).length ≤ 0x1000 := by
    simp only [List.length_append, List.length_take, List.length_singleton]
    omega
  obtain ⟨array', hmemcpy, hbytes⟩ := array.memcpy_run hfit Stop.overflow
  rw [overwrite_zero, List.append_assoc] at hbytes
  refine ⟨array', ?_, ?_, ?_⟩
  · unfold fgets
    rw [fgets_line h]
    dsimp only
    rw [hmemcpy]
    rfl
  · rw [hbytes]
    exact List.mem_append_right _ List.mem_cons_self
  · rw [hbytes]
    exact cstr_append_nul _ _

theorem stringIn_run {array : LocalArray 0x1000} (h : 0 ∈ array.bytes) (s : Info) :
    (stringIn array).run s = (.ok (cstr array.bytes), s) := by
  unfold stringIn
  rw [if_pos h]
  rfl

/-- The rows for the pieces that are read from an offset on, each with the offset behind
its piece. -/
def readRows : Nat → List Bytes → List (Nat × Output)
  | _, [] => []
  | start, piece :: rest =>
    (pieceRows piece).map (start + piece.length, ·) ++ readRows (start + piece.length) rest

theorem rowsFrom_zero_eq (start offset : UInt64) (tokens : List Bytes) :
    rowsFrom 0 start offset tokens = rowsFrom 0 0 0 tokens := by
  rcases rowsFrom_zero tokens with ⟨_, _, hrows⟩ | ⟨row, later, x, y, _, _, hrows⟩
  · rw [hrows, hrows]
  · rw [hrows, hrows]

/-- A round that reads a piece. -/
theorem lineRound_run {fuel buffer : Nat} {v : LineVars} {data line : Bytes} {rest : List Bytes}
    (hfp : v.fp = { data }) (h : lines data = line :: rest)
    (hfuel : (pieceFields (line.take 4095)).length < fuel) (s : Info) :
    ∃ v' s', (lineRound fuel buffer v).run s = (.ok (.inl v'), s') ∧
      v'.fp = { data := data.drop (line.take 4095).length } ∧
      s'.offset = s.offset + (line.take 4095).length ∧
      shown s' = shown s ++ (pieceRows (line.take 4095)).map (s'.offset, ·) := by
  obtain ⟨array, hfgets, hstring, htext⟩ := fgets_run v.line h s
  have hfields : remaining (strtok (cstr array.bytes)) = pieceFields (line.take 4095) := by
    rw [remaining_strtok, htext]
    rfl
  obtain ⟨out, s', hloop, hoffset, hshown⟩ := fieldLoop_run buffer fuel
    { counter := 0, start := v.start, offset := v.offset, pch := strtok (cstr array.bytes) }
    { s with offset := s.offset + (line.take 4095).length } (hfields ▸ hfuel)
  refine ⟨⟨array, { data := data.drop (line.take 4095).length }, out.1, out.2⟩, s', ?_, rfl,
    hoffset, ?_⟩
  · unfold lineRound
    rw [hfp, run_bind_ok hfgets]
    dsimp only
    rw [run_bind_ok (stringIn_run hstring _), run_bind_ok hloop]
    rfl
  · rw [hshown, hoffset, hfields, rowsFrom_zero_eq]
    rfl

end InfoLemmas

/-- The outer loop prints the rows of the pieces that are left. -/
theorem lineLoop_run (fuel buffer : Nat) : ∀ (rounds : Nat) (data : Bytes) (v : LineVars)
    (s : Info), v.fp = { data } → (reads data).length < rounds →
    (∀ piece ∈ reads data, (pieceFields piece).length < fuel) →
    ∃ s', (Prog.iter .timeout (lineRound fuel buffer) rounds v).run s = (.ok (), s') ∧
      shown s' = shown s ++ readRows s.offset (reads data) := by
  intro rounds
  induction rounds with
  | zero => exact fun _ _ _ _ hrounds => absurd hrounds (Nat.not_lt_zero _)
  | succ rounds ih =>
    intro data v s hfp hrounds hfuel
    cases hlines : lines data with
    | nil =>
      obtain rfl := Text.eq_nil_of_lines hlines
      have hround : (lineRound fuel buffer v).run s = (.ok (.inr ()), s) := by
        unfold lineRound
        rw [hfp]
        rfl
      exact ⟨s, Prog.run_iter_done hround, (List.append_nil _).symm⟩
    | cons line rest =>
      have hreads := reads_cons hlines
      rw [hreads] at hrounds hfuel
      obtain ⟨v', s₁, hround, hfp', hoffset, hshown⟩ :=
        lineRound_run hfp hlines (hfuel _ List.mem_cons_self) s
      obtain ⟨s', hrun, hshown'⟩ := ih _ v' s₁ hfp' (Nat.lt_of_succ_lt_succ hrounds)
        fun piece hpiece => hfuel piece (List.mem_cons_of_mem _ hpiece)
      refine ⟨s', (Prog.run_iter_again hround).trans hrun, ?_⟩
      rw [hshown', hshown, hoffset, hreads, readRows, List.append_assoc]

namespace InfoLemmas

theorem isRow_of_mem_rowsFrom {counter : UInt8} {start offset : UInt64} {tokens : List Bytes}
    {row : Output} (h : row ∈ rowsFrom counter start offset tokens) : row.isRow = true := by
  induction tokens generalizing counter start offset with
  | nil => cases h
  | cons pch tokens ih =>
    unfold rowsFrom at h
    split at h
    · exact ih h
    · split at h
      · exact ih h
      · split at h
        · rcases List.mem_cons.mp h with rfl | hlater
          · rfl
          · exact ih hlater
        · exact ih h

theorem readRows_append (start : Nat) (before after : List Bytes) :
    readRows start (before ++ after) =
      readRows start before ++ readRows (start + before.flatten.length) after := by
  induction before generalizing start with
  | nil => rfl
  | cons piece before ih =>
    rw [List.cons_append, readRows, readRows, ih, List.append_assoc, List.flatten_cons,
      List.length_append, Nat.add_assoc]

theorem readRows_outputs (start : Nat) (ps : List Bytes) :
    (readRows start ps).map Prod.snd = ps.flatMap pieceRows := by
  induction ps generalizing start with
  | nil => rfl
  | cons piece ps ih =>
    rw [readRows, List.map_append, List.map_map, ih, List.flatMap_cons]
    congr 1
    exact List.map_id _

/-- The rows stand at the offsets of their pieces. -/
theorem mem_readRows {start : Nat} {ps : List Bytes} (hne : ∀ p ∈ ps, p ≠ []) {x : Nat × Output}
    (h : x ∈ readRows start ps) :
    start < x.1 ∧ x.1 ≤ start + ps.flatten.length ∧ x.2.isRow = true := by
  induction ps generalizing start with
  | nil => cases h
  | cons piece ps ih =>
    have hpiece := List.length_pos_iff.mpr (hne piece List.mem_cons_self)
    rw [List.flatten_cons, List.length_append]
    rcases List.mem_append.mp h with hhere | hlater
    · obtain ⟨row, hrow, rfl⟩ := List.mem_map.mp hhere
      exact ⟨Nat.lt_add_of_pos_right hpiece, Nat.add_le_add_left (Nat.le_add_right _ _) _,
        isRow_of_mem_rowsFrom hrow⟩
    · obtain ⟨hafter, hbefore, hrow⟩ := ih (fun p hp => hne p (List.mem_cons_of_mem _ hp)) hlater
      exact ⟨(Nat.le_add_right _ _).trans_lt hafter, hbefore.trans_eq (Nat.add_assoc _ _ _), hrow⟩

/-- The rows behind an offset, up to another. -/
def rowsIn (outputs : List (Nat × Output)) (start stop : Nat) : List Output :=
  (outputs.filter fun x => start < x.1 ∧ x.1 ≤ stop ∧ x.2.isRow).map Prod.snd

theorem rowsBetween_eq (s : Info) (start stop : Nat) :
    rowsBetween s.log start stop = rowsIn (shown s) start stop := by
  unfold rowsBetween rowsIn shown
  rw [List.filter_map, List.map_map]
  rfl

variable {start stop : Nat}

theorem rowsIn_append (xs ys : List (Nat × Output)) :
    rowsIn (xs ++ ys) start stop = rowsIn xs start stop ++ rowsIn ys start stop := by
  unfold rowsIn
  rw [List.filter_append, List.map_append]

theorem rowsIn_none {outputs : List (Nat × Output)}
    (h : ∀ x ∈ outputs, x.1 ≤ start ∨ stop < x.1 ∨ x.2.isRow = false) :
    rowsIn outputs start stop = [] := by
  unfold rowsIn
  rw [List.filter_eq_nil_iff.mpr]
  · rfl
  · intro x hx hin
    obtain ⟨hstart, hstop, hrow⟩ := of_decide_eq_true hin
    rcases h x hx with hle | hlt | hother
    · exact absurd hstart (Nat.not_lt.mpr hle)
    · exact absurd hstop (Nat.not_le.mpr hlt)
    · rw [hother] at hrow
      cases hrow

/-- The rows of some pieces are those between the offsets in front of and behind them. -/
theorem rowsIn_readRows {offset : Nat} {ps after : List Bytes} (hne : ∀ p ∈ ps ++ after, p ≠ [])
    (hstart : start ≤ offset) :
    rowsIn (readRows offset (ps ++ after)) start (offset + ps.flatten.length) =
      ps.flatMap pieceRows := by
  have hps := fun p hp => hne p (List.mem_append_left _ hp)
  have hafter := fun p hp => hne p (List.mem_append_right _ hp)
  have hbehind : rowsIn (readRows (offset + ps.flatten.length) after) start
      (offset + ps.flatten.length) = [] :=
    rowsIn_none fun x hx => .inr (.inl (mem_readRows hafter hx).1)
  rw [readRows_append, rowsIn_append, hbehind, List.append_nil, ← readRows_outputs offset]
  unfold rowsIn
  rw [List.filter_eq_self.mpr]
  intro x hx
  obtain ⟨hfrom, hto, hrow⟩ := mem_readRows hps hx
  exact decide_eq_true ⟨hstart.trans_lt hfrom, hto, hrow⟩

theorem rowsIn_before {offset : Nat} {ps : List Bytes} (hne : ∀ p ∈ ps, p ≠ [])
    (hstart : offset + ps.flatten.length ≤ start) :
    rowsIn (readRows offset ps) start stop = [] :=
  rowsIn_none fun _ hx => .inl ((mem_readRows hne hx).2.1.trans hstart)

theorem length_reads_le (data : Bytes) : (reads data).length ≤ data.length := by
  have hpositive : ∀ n ∈ (reads data).map List.length, 1 ≤ n := by
    intro n hn
    obtain ⟨piece, hpiece, rfl⟩ := List.mem_map.mp hn
    exact List.length_pos_iff.mpr (mem_reads_ne_nil hpiece)
  have hsum := List.length_le_sum_of_one_le _ hpositive
  rwa [List.length_map, ← List.length_flatten, flatten_reads] at hsum

theorem length_fields_read_le {data piece : Bytes} (h : piece ∈ reads data) :
    (pieceFields piece).length ≤ data.length := by
  have hpiece := (List.infix_of_mem_flatten h).length_le
  rw [flatten_reads] at hpiece
  calc (pieceFields piece).length
    _ ≤ (cstr piece).length := Text.length_fields_le _
    _ ≤ piece.length := (List.takeWhile_prefix _).length_le
    _ ≤ data.length := hpiece

/-- How much of the pipe is read for the first line. -/
def skippedLength (kextstat : Bytes) : Nat := ((reads kextstat).headD []).length

/-- The call of `fgets` in front of the loop. The array of an empty output stays as it is. -/
theorem skip_run {kextstat : Bytes} {stack : LocalArray 0x1000}
    (hstring : kextstat = [] → 0 ∈ stack.bytes) (s : Info) :
    ∃ skipped line, (fgets stack { data := kextstat }).run s =
        (.ok skipped, { s with offset := s.offset + skippedLength kextstat }) ∧
      skipped.getD (stack, { data := kextstat }) =
        (line, { data := kextstat.drop (skippedLength kextstat) }) ∧
      0 ∈ line.bytes ∧ cstr line.bytes = headerText kextstat stack ∧
      reads (kextstat.drop (skippedLength kextstat)) = (reads kextstat).tail := by
  unfold skippedLength headerText
  cases hlines : lines kextstat with
  | nil =>
    obtain rfl := Text.eq_nil_of_lines hlines
    exact ⟨none, stack, rfl, rfl, hstring rfl, rfl, rfl⟩
  | cons line rest =>
    obtain ⟨array, hfgets, hmem, htext⟩ := fgets_run stack hlines s
    have hreads := reads_cons hlines
    rw [hreads]
    exact ⟨_, array, hfgets, rfl, hmem, htext, rfl⟩

end InfoLemmas

/-- The title, the first piece of the output, and the rows of the others. -/
theorem getXnuKextAddresses_run {fuel : Nat} {kextstat : Bytes} {stack : LocalArray 0x1000}
    (hfuel : kextstat.length < fuel) (hstring : kextstat = [] → 0 ∈ stack.bytes)
    (start offset : UInt64) (buffer : Nat) (max : UInt32) (mem : Mem) (pos : UInt32) :
    ∃ s', (getXnuKextAddresses fuel kextstat stack start offset buffer max).run { mem, pos } =
        (.ok (), s') ∧
      shown s' = (0, .title) :: (skippedLength kextstat, .header (headerText kextstat stack)) ::
        readRows (skippedLength kextstat) (reads kextstat).tail := by
  obtain ⟨s₁, htitle, hlog⟩ : ∃ s₁, (sprintf buffer .title).run { mem, pos } = (.ok (), s₁) ∧
      (s₁.offset = 0 ∧ shown s₁ = [(0, .title)]) := ⟨_, rfl, rfl, rfl⟩
  obtain ⟨skipped, line, hskip, hline, hmem, htext, hreads⟩ := skip_run hstring s₁
  obtain ⟨s₂, hheader, hoffset, hshown₂⟩ : ∃ s₂, (sprintf buffer (.header (cstr line.bytes))).run
      { s₁ with offset := s₁.offset + skippedLength kextstat } = (.ok (), s₂) ∧
        s₂.offset = skippedLength kextstat ∧ shown s₂ = shown s₁ ++
          [(skippedLength kextstat, .header (headerText kextstat stack))] := by
    rw [hlog.1, Nat.zero_add, htext]
    exact ⟨_, rfl, rfl, List.map_append⟩
  have hrest : ∀ piece ∈ (reads kextstat).tail, (pieceFields piece).length < fuel :=
    fun piece hpiece => (length_fields_read_le (List.mem_of_mem_tail hpiece)).trans_lt hfuel
  have hrounds : (reads kextstat).tail.length < fuel := by
    rw [List.length_tail]
    exact (Nat.sub_le _ _).trans_lt ((length_reads_le kextstat).trans_lt hfuel)
  rw [← hreads] at hrest hrounds
  obtain ⟨s', hloop, hshown⟩ := lineLoop_run fuel buffer fuel _
    ⟨line, { data := kextstat.drop (skippedLength kextstat) }, start, offset⟩ s₂ rfl hrounds hrest
  refine ⟨s', ?_, ?_⟩
  · unfold getXnuKextAddresses
    rw [run_bind_ok htitle, run_bind_ok hskip, hline]
    dsimp only
    rw [run_bind_ok (stringIn_run hmem _), run_bind_ok hheader]
    exact hloop
  · rw [hshown, hshown₂, hlog.2, hoffset, hreads]
    rfl

/-- An empty output prints the array as the stack left it. -/
theorem getXnuKextAddresses_unterminated {fuel : Nat} {stack : LocalArray 0x1000}
    (hstack : 0 ∉ stack.bytes) (start offset : UInt64) (buffer : Nat) (max : UInt32) (s : Info) :
    ((getXnuKextAddresses fuel [] stack start offset buffer max).run s).1 =
      .error .outOfBounds := by
  have hstring : ∀ t, (stringIn stack).run t = (.error .outOfBounds, t) := by
    intro t
    unfold stringIn
    rw [if_neg hstack]
    rfl
  obtain ⟨s₁, htitle⟩ : ∃ s₁, (sprintf buffer .title).run s = (.ok (), s₁) := ⟨_, rfl⟩
  have hskip : (fgets stack { data := [] }).run s₁ = (.ok none, s₁) := rfl
  unfold getXnuKextAddresses
  rw [run_bind_ok htitle, run_bind_ok hskip]
  show ((stringIn stack >>= _).run s₁).1 = _
  rw [run_bind_error (hstring s₁)]

/-! ## 2. The limit -/

namespace InfoLemmas

/-- The texts of a log. -/
def texts (log : List Entry) : Bytes := (log.map fun e => e.output.bytes).flatten

/-- Each text stands behind the one before. -/
def Chain : UInt32 → List Entry → Prop
  | _, [] => True
  | pos, e :: log => e.pos = pos ∧ Chain (pos + UInt32.ofNat e.output.bytes.length) log

theorem toNat_add_ofNat {pos : UInt32} {n : Nat} (h : pos.toNat + n < 4294967296) :
    (pos + UInt32.ofNat n).toNat = pos.toNat + n := by
  have hn : n < UInt32.size := (Nat.le_add_left _ _).trans_lt h
  rw [UInt32.toNat_add, UInt32.toNat_ofNat_of_lt' hn, Nat.mod_eq_of_lt h]

theorem Chain.append {pos : UInt32} {log : List Entry} {e : Entry} (h : Chain pos log)
    (he : e.pos = pos + UInt32.ofNat (texts log).length) : Chain pos (log ++ [e]) := by
  induction log generalizing pos with
  | nil => exact ⟨he.trans (UInt32.add_zero pos), trivial⟩
  | cons first log ih =>
    refine ⟨h.1, ih h.2 ?_⟩
    rw [he, UInt32.add_assoc, ← UInt32.ofNat_add]
    congr 2
    exact List.length_append

/-- All texts end within the limit exactly if the last one does. -/
theorem Chain.fits_iff {pos max : UInt32} {log : List Entry} (h : Chain pos log) :
    (pos.toNat ≤ max.toNat ∧ ∀ e ∈ log, e.pos.toNat + e.output.bytes.length ≤ max.toNat) ↔
      pos.toNat + (texts log).length ≤ max.toNat := by
  induction log generalizing pos with
  | nil => exact and_iff_left fun _ he => nomatch he
  | cons e log ih =>
    obtain ⟨rfl, hlog⟩ := h
    have hlength : (texts (e :: log)).length = e.output.bytes.length + (texts log).length :=
      List.length_append
    have hmax := max.toNat_lt
    rw [List.forall_mem_cons, hlength, ← Nat.add_assoc]
    rcases Nat.lt_or_ge max.toNat (e.pos.toNat + e.output.bytes.length) with hover | hroom
    · refine iff_of_false (fun hall => Nat.not_lt.mpr hall.2.1 hover) fun hall => ?_
      exact Nat.not_lt.mpr ((Nat.le_add_right _ _).trans hall) hover
    · have hnext := ih hlog
      rw [toNat_add_ofNat (by omega)] at hnext
      rw [← hnext]
      have hpos : e.pos.toNat ≤ max.toNat := (Nat.le_add_right _ _).trans hroom
      simp only [hpos, hroom, true_and]

/-- The log accounts for the position and for the memory. -/
structure Ledger (mem : Mem) (pos : UInt32) (buffer : Nat) (s : Info) : Prop where
  chain : Chain pos s.log
  position : s.pos = pos + UInt32.ofNat (texts s.log).length
  empty : s.log = [] → s.mem = mem
  memory : s.log ≠ [] → pos.toNat + (texts s.log).length < 4294967296 →
    s.mem = mem.store (buffer + pos.toNat) (texts s.log ++ [0])

variable {mem : Mem} {pos : UInt32} {buffer : Nat}

/-- The NUL behind the texts is where the next text starts. -/
theorem keeps_sprintf (output : Output) :
    Keeps (Ledger mem pos buffer) (sprintf buffer output) := by
  refine Keeps.modify fun s hs => ?_
  have htexts : texts (s.log ++ [⟨s.offset, s.pos, output⟩]) = texts s.log ++ output.bytes := by
    unfold texts
    rw [List.map_append, List.flatten_append]
    exact congrArg _ (List.append_nil _)
  refine ⟨hs.chain.append hs.position, ?_, fun hnil => ?_, fun _ hroom => ?_⟩
  · show s.pos + _ = _
    rw [htexts, hs.position, List.length_append, UInt32.ofNat_add, UInt32.add_assoc]
  · exact absurd hnil (List.append_ne_nil_of_right_ne_nil _ (List.cons_ne_nil _ _))
  · rw [htexts] at hroom ⊢
    rw [List.length_append] at hroom
    have hpos : s.pos.toNat = pos.toNat + (texts s.log).length := by
      rw [hs.position, toNat_add_ofNat (by omega)]
    show s.mem.store (buffer + s.pos.toNat) (output.bytes ++ [0]) = _
    rw [hpos, List.append_assoc, ← Mem.store_append (texts s.log) (output.bytes ++ [0]),
      Nat.add_assoc]
    rcases eq_or_ne s.log [] with hlog | hlog
    · rw [hs.empty hlog, hlog]
      exact congrArg (fun m : Mem => m.store _ _) Mem.store_nil.symm
    · rw [hs.memory hlog (by omega), ← Mem.store_append (texts s.log) [0], Nat.add_assoc]
      refine Mem.store_store ?_
      rw [List.length_append]
      exact Nat.le_add_left _ _

theorem keeps_fgets (line : LocalArray 0x1000) (fp : FILE) :
    Keeps (Ledger mem pos buffer) (fgets line fp) := by
  unfold fgets
  cases fp.fgets 0x1000 with
  | none => exact Keeps.pure _
  | some p =>
    obtain ⟨text, fp⟩ := p
    dsimp only
    cases line.memcpy Stop.overflow 0 (text ++ [0]) with
    | error e => exact Keeps.stop e
    | ok line =>
      refine Keeps.bind (Keeps.modify fun s hs => ?_) fun _ => Keeps.pure _
      exact ⟨hs.chain, hs.position, hs.empty, hs.memory⟩

theorem keeps_stringIn (line : LocalArray 0x1000) :
    Keeps (Ledger mem pos buffer) (stringIn line) :=
  Keeps.ite (Keeps.pure _) (Keeps.stop _)

theorem keeps_fieldRound (v : FieldVars) :
    Keeps (Ledger mem pos buffer) (fieldRound buffer v) := by
  unfold fieldRound
  cases v.pch with
  | none => exact Keeps.pure _
  | some p =>
    dsimp only
    have hsilent := fun v : FieldVars => Keeps.bind (I := Ledger mem pos buffer)
      (Keeps.pure (ε := Stop) v) fun v => Keeps.pure
        (Sum.inl (β := UInt64 × UInt64) { v with counter := v.counter + 1, pch := strtok p.2 })
    refine Keeps.ite (hsilent _) (Keeps.ite (hsilent _) (Keeps.ite ?_ (hsilent _)))
    exact Keeps.bind (keeps_sprintf _) fun _ => hsilent _

theorem keeps_lineRound (fuel : Nat) (v : LineVars) :
    Keeps (Ledger mem pos buffer) (lineRound fuel buffer v) := by
  unfold lineRound
  refine Keeps.bind (keeps_fgets _ _) fun read => ?_
  cases read with
  | none => exact Keeps.pure _
  | some p =>
    refine Keeps.bind (keeps_stringIn _) fun text => ?_
    exact Keeps.bind (Keeps.iter keeps_fieldRound _ _) fun _ => Keeps.pure _

end InfoLemmas

/-- The position and the memory are always accounted for. -/
theorem getXnuKextAddresses_ledger (fuel : Nat) (kextstat : Bytes) (stack : LocalArray 0x1000)
    (start offset : UInt64) (buffer : Nat) (max : UInt32) (mem : Mem) (pos : UInt32) :
    Ledger mem pos buffer
      ((getXnuKextAddresses fuel kextstat stack start offset buffer max).run { mem, pos }).2 := by
  refine Keeps.run ?_ ⟨trivial, (UInt32.add_zero pos).symm, fun _ => rfl, fun h => absurd rfl h⟩
  unfold getXnuKextAddresses
  refine Keeps.bind (keeps_sprintf _) fun _ => Keeps.bind (keeps_fgets _ _) fun skipped => ?_
  refine Keeps.bind (keeps_stringIn _) fun text => Keeps.bind (keeps_sprintf _) fun _ => ?_
  exact Keeps.iter (keeps_lineRound fuel) _ _

/-! ## 3. The whole output -/

namespace InfoLemmas

variable {kextstat : Bytes}

theorem pieces_ne {line : Bytes} (h : line ∈ lines kextstat) : pieces line ≠ [] := by
  rw [pieces, Text.pieces_eq 4094 (Text.lines_ne_nil h)]
  exact List.cons_ne_nil _ _

/-- The first piece is in front of the rows. -/
theorem skipped_split {xs ys : List Bytes} (hxs : xs ≠ []) (h : reads kextstat = xs ++ ys) :
    (reads kextstat).tail = xs.tail ++ ys ∧
      skippedLength kextstat + xs.tail.flatten.length = xs.flatten.length := by
  unfold skippedLength
  rw [h]
  cases xs with
  | nil => exact absurd rfl hxs
  | cons piece xs => exact ⟨rfl, List.length_append.symm⟩

/-- What is printed while a line is read. -/
theorem rowsIn_line {before after : List Bytes} {line : Bytes}
    (h : lines kextstat = before ++ line :: after) :
    rowsIn (readRows (skippedLength kextstat) (reads kextstat).tail) before.flatten.length
        (before ++ [line]).flatten.length =
      if before = [] then (pieces line).tail.flatMap pieceRows
      else (pieces line).flatMap pieceRows := by
  have hreads : reads kextstat =
      before.flatMap pieces ++ (pieces line ++ after.flatMap pieces) := by
    rw [reads, h, List.flatMap_append, List.flatMap_cons]
  have hne : ∀ p ∈ (reads kextstat).tail, p ≠ [] := fun p hp =>
    mem_reads_ne_nil (List.mem_of_mem_tail hp)
  have hline : (pieces line).flatten.length = line.length := by rw [pieces, Text.flatten_pieces]
  cases before with
  | nil =>
    have hmem : line ∈ lines kextstat := by
      rw [h]
      exact List.mem_cons_self
    obtain ⟨htail, hlength⟩ := skipped_split (pieces_ne hmem) hreads
    rw [htail] at hne ⊢
    rw [if_pos rfl]
    show rowsIn _ 0 (line ++ []).length = _
    rw [List.append_nil, ← hline, ← hlength]
    exact rowsIn_readRows hne (Nat.zero_le _)
  | cons first others =>
    have hmem : first ∈ lines kextstat := by
      rw [h]
      exact List.mem_cons_self
    have hpieces : (first :: others).flatMap pieces ≠ [] := by
      rw [List.flatMap_cons]
      exact List.append_ne_nil_of_left_ne_nil (pieces_ne hmem) _
    obtain ⟨htail, hlength⟩ := skipped_split hpieces hreads
    rw [flatten_pieces_lines] at hlength
    rw [htail] at hne ⊢
    rw [if_neg (List.cons_ne_nil _ _), readRows_append, rowsIn_append,
      rowsIn_before (fun p hp => hne p (List.mem_append_left _ hp)) hlength.le, List.nil_append,
      hlength, List.flatten_append, List.length_append, List.flatten_singleton, ← hline]
    exact rowsIn_readRows (fun p hp => hne p (List.mem_append_right _ hp)) (Nat.le_refl _)

/-- Each line gives its row exactly if the lines are as the condition says. -/
theorem rows_iff :
    (∀ before line after, lines kextstat = before ++ line :: after →
      (if before = [] then (pieces line).tail.flatMap pieceRows
        else (pieces line).flatMap pieceRows) =
          if before = [] then [] else (rowOf (fieldsOf line)).toList) ↔
    (∀ first ∈ (lines kextstat).head?, ∀ p ∈ (pieces first).tail, (pieceFields p).length < 6) ∧
      ∀ line ∈ (lines kextstat).tail, Regular line := by
  cases lines kextstat with
  | nil =>
    refine iff_of_true (fun before line after h => ?_)
      ⟨(fun _ h => nomatch h), fun _ h => nomatch h⟩
    exact absurd h (List.append_ne_nil_of_right_ne_nil _ (List.cons_ne_nil _ _)).symm
  | cons first rest =>
    constructor
    · intro hrows
      refine ⟨fun line hline p hp => ?_, fun line hline => ?_⟩
      · obtain rfl := Option.some.inj hline
        have hfirst := hrows [] first rest rfl
        rw [if_pos rfl, if_pos rfl] at hfirst
        exact pieceRows_nil_iff.mp (List.flatMap_eq_nil_iff.mp hfirst p hp)
      · obtain ⟨left, right, hsplit⟩ := List.append_of_mem hline
        have hother := hrows (first :: left) line right (congrArg (first :: ·) hsplit)
        rw [if_neg (List.cons_ne_nil _ _), if_neg (List.cons_ne_nil _ _)] at hother
        exact rows_regular_iff.mp hother
    · rintro ⟨hfirst, hothers⟩ before line after h
      cases before with
      | nil =>
        obtain ⟨rfl, rfl⟩ := List.cons.inj h
        rw [if_pos rfl, if_pos rfl]
        exact List.flatMap_eq_nil_iff.mpr fun p hp =>
          pieceRows_nil_iff.mpr (hfirst first rfl p hp)
      | cons first' left =>
        obtain ⟨rfl, rfl⟩ := List.cons.inj h
        rw [if_neg (List.cons_ne_nil _ _), if_neg (List.cons_ne_nil _ _)]
        exact rows_regular_iff.mpr (hothers line (List.mem_append_right _ List.mem_cons_self))

/-- With such lines, the rows are the expected ones. -/
theorem outputs_expected
    (hfirst : ∀ first ∈ (lines kextstat).head?, ∀ p ∈ (pieces first).tail,
      (pieceFields p).length < 6)
    (hothers : ∀ line ∈ (lines kextstat).tail, Regular line) :
    (reads kextstat).tail.flatMap pieceRows = expectedRows kextstat := by
  unfold reads expectedRows
  cases hlines : lines kextstat with
  | nil => rfl
  | cons first rest =>
    rw [hlines] at hfirst hothers
    have hskipped : (pieces first).tail.flatMap pieceRows = [] :=
      List.flatMap_eq_nil_iff.mpr fun p hp => pieceRows_nil_iff.mpr (hfirst first rfl p hp)
    rw [List.flatMap_cons, List.tail_append_of_ne_nil (pieces_ne (hlines ▸ List.mem_cons_self)),
      List.flatMap_append, hskipped, List.flatMap_assoc]
    exact List.flatMap_congr fun line hline => rows_regular_iff.mpr (hothers line hline)

theorem length_texts (log : List Entry) :
    (texts log).length = totalLength (log.map Entry.output) := by
  unfold texts totalLength
  rw [List.length_flatten, List.map_map, List.map_map]
  rfl

section Shown

variable {stack : LocalArray 0x1000} {s : Info} {pos : UInt32}
  (hshown : shown s =
    (0, .title) :: (skippedLength kextstat, .header (headerText kextstat stack)) ::
      readRows (skippedLength kextstat) (reads kextstat).tail)

include hshown

theorem rowsBetween_shown (start stop : Nat) :
    rowsBetween s.log start stop =
      rowsIn (readRows (skippedLength kextstat) (reads kextstat).tail) start stop := by
  rw [rowsBetween_eq, hshown]
  show rowsIn ([(0, .title), (skippedLength kextstat, .header (headerText kextstat stack))] ++ _)
    start stop = _
  rw [rowsIn_append, rowsIn_none, List.nil_append]
  intro x hx
  rcases List.mem_pair.mp hx with rfl | rfl
  · exact .inr (.inr rfl)
  · exact .inr (.inr rfl)

theorem outputs_shown :
    s.log.map Entry.output =
      .title :: .header (headerText kextstat stack) :: (reads kextstat).tail.flatMap pieceRows := by
  have houtputs := congrArg (List.map Prod.snd) hshown
  rw [shown, List.map_map] at houtputs
  rw [← readRows_outputs (skippedLength kextstat)]
  exact houtputs

/-- There is a first text, so the limit is about the last one. -/
theorem bounded_iff (max : UInt32) (hchain : Chain pos s.log) :
    (∀ e ∈ s.log, e.pos.toNat + e.output.bytes.length ≤ max.toNat) ↔
      pos.toNat + (texts s.log).length ≤ max.toNat := by
  rw [← hchain.fits_iff]
  refine ⟨fun hall => ⟨?_, hall⟩, fun hall => hall.2⟩
  cases hlog : s.log with
  | nil =>
    rw [shown, hlog] at hshown
    cases hshown
  | cons e log =>
    rw [hlog] at hchain hall
    have hfirst := hall e List.mem_cons_self
    rw [hchain.1] at hfirst
    exact (Nat.le_add_right _ _).trans hfirst

end Shown

end InfoLemmas

/-- Where every line fits in the array, the lines have less than 262 fields and there is room. -/
theorem tame_fits_iff {kextstat : Bytes} (hne : kextstat ≠ [])
    (hfits : ∀ line ∈ lines kextstat, line.length ≤ 4095 ∧ 0 ∉ line)
    (stack : LocalArray 0x1000) (pos max : UInt32) :
    Tame kextstat stack pos max ↔
      (∀ line ∈ (lines kextstat).tail, (fieldsOf line).length < 262) ∧
      pos.toNat + totalLength (.title :: .header (headerText kextstat stack) ::
        expectedRows kextstat) ≤ max.toNat := by
  have hregular : ∀ line ∈ (lines kextstat).tail,
      (Regular line ↔ (fieldsOf line).length < 262) := fun line hline =>
    have hline := hfits line (List.mem_of_mem_tail hline)
    regular_fits_iff hline.1 hline.2
  constructor
  · intro h
    exact ⟨fun line hline => (hregular line hline).mp (h.others line hline), h.room⟩
  · rintro ⟨hfew, hroom⟩
    refine ⟨fun hnil => absurd hnil hne, fun first hfirst p hp => ?_,
      fun line hline => (hregular line hline).mpr (hfew line hline), hroom⟩
    have hmem := List.mem_of_mem_head? hfirst
    rw [pieces_fits (hfits first hmem).1 (Text.lines_ne_nil hmem)] at hp
    cases hp

/-- Each line behind the first gives its row, within the limit, exactly on a tame output. -/
theorem kextAddresses_extracted_iff {fuel : Nat} {kextstat : Bytes}
    (hfuel : kextstat.length < fuel) (stack : LocalArray 0x1000) (start offset : UInt64)
    (buffer : Nat) (max : UInt32) (mem : Mem) (pos : UInt32) :
    Extracted kextstat mem pos buffer max
        ((getXnuKextAddresses fuel kextstat stack start offset buffer max).run { mem, pos }) ↔
      Tame kextstat stack pos max := by
  by_cases hstring : kextstat = [] → 0 ∈ stack.bytes
  · have hledger := getXnuKextAddresses_ledger fuel kextstat stack start offset buffer max mem pos
    obtain ⟨s, hrun, hshown⟩ :=
      getXnuKextAddresses_run hfuel hstring start offset buffer max mem pos
    rw [hrun] at hledger ⊢
    have houtputs := outputs_shown hshown
    have hroom := bounded_iff hshown max hledger.chain
    rw [length_texts, houtputs] at hroom
    constructor
    · intro h
      obtain ⟨hfirst, hothers⟩ := rows_iff.mp fun before line after hsplit => by
        rw [← rowsIn_line hsplit, ← rowsBetween_shown hshown]
        exact h.rows before line after hsplit
      refine ⟨hstring, hfirst, hothers, ?_⟩
      rw [← outputs_expected hfirst hothers]
      exact hroom.mp h.bounded
    · intro h
      have hexpected := outputs_expected h.first h.others
      rw [hexpected] at hroom houtputs
      have hbounded := hroom.mpr h.room
      refine ⟨rfl, fun before line after hsplit => ?_, hbounded, ?_⟩
      · rw [rowsBetween_shown hshown, rowsIn_line hsplit]
        exact rows_iff.mpr ⟨h.first, h.others⟩ before line after hsplit
      · have hmax := max.toNat_lt
        refine hledger.memory (fun hnil => ?_) ?_
        · rw [hnil] at houtputs
          cases houtputs
        · rw [length_texts, houtputs]
          exact h.room.trans_lt hmax
  · obtain ⟨hempty, hstack⟩ := Classical.not_imp.mp hstring
    subst hempty
    refine iff_of_false (fun h => ?_) fun h => hstack (h.string rfl)
    have hreturns := h.returns
    rw [getXnuKextAddresses_unterminated hstack] at hreturns
    cases hreturns

def oneKext : Bytes :=
  ascii "Index Refs Address Size Wired Name\n 1 87 0xffffff7f80a00000 0x8d90 0x8d90 com.apple\n"

theorem kextAddresses_extracted_one :
    Extracted oneKext (fun _ => 0) 0 0 0x1000
      ((getXnuKextAddresses 100 oneKext (.filled 0x1000 []) 0 0 0 0x1000).run
        { mem := fun _ => 0, pos := 0 }) := by
  refine (kextAddresses_extracted_iff (by decide) _ 0 0 0 0x1000 _ 0).mpr ?_
  refine (tame_fits_iff (by decide) (by decide) _ 0 0x1000).mpr ⟨by decide, by decide⟩

/-- The line of a kernel extension that is linked against 256 others. -/
def manyFields : Bytes := ascii "1 0 0x2 0x3 0x3 k" ++ (List.replicate 256 [32, 49]).flatten ++ [10]

def manyKext : Bytes := ascii "Index\n" ++ manyFields

/-- The counter wraps around, and the line gives a second row. -/
theorem manyKext_not_extracted :
    ¬Extracted manyKext (fun _ => 0) 0 0 0x10000
      ((getXnuKextAddresses 1000 manyKext (.filled 0x1000 []) 0 0 0 0x10000).run
        { mem := fun _ => 0, pos := 0 }) := by
  intro h
  have hlines : lines manyKext = [ascii "Index\n"] ++ manyFields :: [] := by decide +kernel
  have hfuel : manyKext.length < 1000 := by decide +kernel
  have hstring : manyKext = [] → 0 ∈ (LocalArray.filled 0x1000 []).bytes := fun hnil =>
    absurd hnil (by decide +kernel)
  obtain ⟨s, hrun, hshown⟩ :=
    getXnuKextAddresses_run hfuel hstring 0 0 0 0x10000 (fun _ => 0) 0
  have hrows := h.rows _ _ _ hlines
  rw [hrun, rowsBetween_shown hshown, rowsIn_line hlines, if_neg (List.cons_ne_nil _ _),
    if_neg (List.cons_ne_nil _ _), pieces_fits (by decide +kernel) (by decide +kernel),
    List.flatMap_singleton] at hrows
  have hlength := congrArg List.length hrows
  have hfields : (pieceFields manyFields).length = 262 := by decide +kernel
  rw [length_pieceRows, hfields] at hlength
  exact absurd hlength.le (Nat.not_le.mpr (Nat.lt_succ_of_le (Option.length_toList_le)))

end KaflTargets.MacInfo
