import KaflTargets.Lib.CString

/-!
# Local arrays and what they held before

A local array in C holds what the stack held, until it is written. `LocalArray size` is an
array of `size` bytes. `memcpy` writes to it within its bounds, `probe` is a chain of nested
comparisons of its elements with the bytes of a word.

A chain asks for a prefix of the whole array (`probe_iff`). When an input was written to the
start of the array, the chain can look past it. After a terminator it decides on the input
alone (`prefix_terminated_iff`). Without one it does so unless the input ends within the word
(`prefix_append_iff`), and then there is an old content that completes the word
(`overwrite_completes`).
-/

open CString

/-- `char array[size]`. -/
structure LocalArray (size : Nat) where
  bytes : Bytes
  length_bytes : bytes.length = size

namespace LocalArray

variable {size : Nat} {ε : Type}

/-- An array of zeros after the bytes of `start`. -/
def filled (size : Nat) (start : Bytes) : LocalArray size where
  bytes := start.take size ++ List.replicate (size - start.length) 0
  length_bytes := by
    simp only [List.length_append, List.length_take, List.length_replicate]
    omega

theorem filled_zeros {n : Nat} (h : n < size) :
    (filled size []).bytes.drop n = 0 :: List.replicate (size - n - 1) 0 := by
  have hsucc : size - n = (size - n - 1) + 1 := by omega
  show (([] : Bytes).take size ++ List.replicate (size - 0) 0).drop n = _
  rw [List.take_nil, List.nil_append, Nat.sub_zero, List.drop_replicate,
    hsucc, List.replicate_succ, Nat.add_sub_cancel]

theorem filled_start {start : Bytes} (h : start.length ≤ size) :
    (filled size start).bytes = start ++ List.replicate (size - start.length) 0 := by
  show start.take size ++ _ = _
  rw [List.take_of_length_le h]

theorem length_overwrite {array data : Bytes} {pos : Nat} (h : pos + data.length ≤ array.length) :
    (overwrite array pos data).length = array.length := by
  simp only [overwrite, List.length_append, List.length_take, List.length_drop]
  omega

/-- Write `data` from the index `pos` on. A write that does not fit is an error. -/
def memcpy (overflow : ε) (array : LocalArray size) (pos : Nat) (data : Bytes) :
    Except ε (LocalArray size) :=
  if h : pos + data.length ≤ size then
    .ok ⟨overwrite array.bytes pos data,
      (length_overwrite (h.trans_eq array.length_bytes.symm)).trans array.length_bytes⟩
  else .error overflow

theorem memcpy_run (array : LocalArray size) {pos : Nat} {data : Bytes}
    (h : pos + data.length ≤ size) (overflow : ε) :
    ∃ written : LocalArray size, array.memcpy overflow pos data = .ok written ∧
      written.bytes = overwrite array.bytes pos data := by
  unfold memcpy
  rw [dif_pos h]
  exact ⟨_, rfl, rfl⟩

/-- `if (array[i] == x) if (array[i + 1] == y) ..`, for the bytes `x`, `y`, .. of a word. -/
def probe (array : LocalArray size) : Nat → Bytes → Bool
  | _, [] => true
  | i, x :: word => if array.bytes[i]? = some x then probe array (i + 1) word else false

theorem probe_drop_iff (array : LocalArray size) (word : Bytes) (i : Nat) :
    array.probe i word = true ↔ word <+: array.bytes.drop i := by
  induction word generalizing i with
  | nil => simp [probe]
  | cons x word ih =>
    unfold probe
    cases hget : array.bytes[i]? with
    | none =>
      have hnil : array.bytes.drop i = [] := List.drop_eq_nil_of_le (by simpa using hget)
      rw [hnil]
      simp
    | some y =>
      obtain ⟨hi, rfl⟩ := List.getElem?_eq_some_iff.mp hget
      rw [List.drop_eq_getElem_cons hi, List.cons_prefix_cons, ← ih]
      by_cases hxy : x = array.bytes[i]
      · simp [hxy]
      · simp [hxy, Ne.symm hxy]

theorem probe_iff (array : LocalArray size) (word : Bytes) :
    array.probe 0 word = true ↔ word <+: array.bytes := by
  rw [probe_drop_iff, List.drop_zero]

end LocalArray

/-! ## An input before the leftovers -/

/-- The input ends within the word. -/
def EndsWithin (input word : Bytes) : Prop := input <+: word ∧ input ≠ word

instance (input word : Bytes) : Decidable (EndsWithin input word) :=
  inferInstanceAs (Decidable (_ ∧ _))

theorem EndsWithin.not_startsWith {input word : Bytes} (h : EndsWithin input word) :
    ¬word <+: input := fun hword =>
  h.2 (h.1.eq_of_length (Nat.le_antisymm h.1.length_le hword.length_le))

theorem prefix_terminated_iff {word : Bytes} (h : 0 ∉ word) (input rest : Bytes) :
    word <+: input ++ 0 :: rest ↔ word <+: input := by
  constructor
  · intro hword
    have hinput : input ++ [0] <+: input ++ 0 :: rest := ⟨rest, List.append_assoc _ [0] _⟩
    rcases List.prefix_or_prefix_of_prefix hword hinput with hshort | hlong
    · rcases List.prefix_concat_iff.mp hshort with rfl | hprefix
      · exact absurd (by simp) h
      · exact hprefix
    · exact absurd (hlong.subset (by simp)) h
  · intro hword
    exact hword.trans (List.prefix_append _ _)

theorem prefix_append_iff {input word : Bytes} (h : ¬EndsWithin input word) (rest : Bytes) :
    word <+: input ++ rest ↔ word <+: input := by
  constructor
  · intro hword
    rcases List.prefix_or_prefix_of_prefix hword (List.prefix_append input rest) with hin | hout
    · exact hin
    · by_cases heq : input = word
      · exact heq ▸ List.prefix_refl _
      · exact absurd ⟨hout, heq⟩ h
  · intro hword
    exact hword.trans (List.prefix_append _ _)

/-- The rest of the word may be there already. -/
theorem overwrite_completes {input word : Bytes} (h : input <+: word) (rest : Bytes) :
    overwrite (word ++ rest) 0 input = word ++ rest := by
  obtain ⟨tail, rfl⟩ := h
  rw [overwrite_zero, List.append_assoc, List.drop_left]

/-- A C string starts with a word exactly if its array does. -/
theorem prefix_cstr_iff {word : Bytes} (h : 0 ∉ word) (array : Bytes) :
    word <+: cstr array ↔ word <+: array := by
  constructor
  · intro hword
    exact hword.trans (List.takeWhile_prefix _)
  · rintro ⟨rest, rfl⟩
    rw [cstr_append_of_noNul h]
    exact List.prefix_append _ _

/-- A terminator ends the string, wherever it ended before. -/
theorem cstr_append_nul (text rest : Bytes) : cstr (text ++ 0 :: rest) = cstr text := by
  unfold cstr
  induction text with
  | nil => rfl
  | cons c text ih =>
    rw [List.cons_append, List.takeWhile_cons, List.takeWhile_cons, ih]
