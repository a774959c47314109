import Mathlib.Data.List.Basic
import Mathlib.Data.List.Infix

/-!
# Byte strings and the C string functions

A C string is the list of its bytes before the terminating NUL. The functions
below are those of `string.h` and `libgen.h`, and the conversions of the
`printf` family, as far as the programs of this development use them.
-/

abbrev Bytes := List UInt8

namespace CString

/-- The bytes of a string literal (ASCII). -/
def ascii (s : String) : Bytes := s.toList.map fun c => c.toNat.toUInt8

/-- `%u`, `%lu`: decimal digits. -/
def dec (n : Nat) : Bytes := (Nat.toDigits 10 n).map fun c => c.toNat.toUInt8

/-- `%x`, `%lx`: lower-case hexadecimal digits. -/
def hex (n : Nat) : Bytes := (Nat.toDigits 16 n).map fun c => c.toNat.toUInt8

/-- `%08x`: hexadecimal, padded with zeros to eight digits. -/
def hex08 (n : Nat) : Bytes := List.replicate (8 - (hex n).length) 48 ++ hex n

/-- The C string stored in an array: its bytes up to the first NUL. -/
def cstr (array : Bytes) : Bytes := array.takeWhile (· ≠ 0)

/-- `0 == strncmp(s, t, n)`. -/
def strncmpEq (s t : Bytes) (n : Nat) : Bool := (s ++ [0]).take n = (t ++ [0]).take n

/-- `strstr(s, t) != NULL`. -/
def strstr (s t : Bytes) : Bool := t <:+: s

/-- `basename(path)` of POSIX: the last component, without trailing slashes. -/
def basename (path : Bytes) : Bytes :=
  if path = [] then ascii "."
  else
    let stripped := path.reverse.dropWhile (· = 47)
    if stripped = [] then ascii "/" else (stripped.takeWhile (· ≠ 47)).reverse

/-- The array after `data` was stored in it from offset `pos` on. -/
def overwrite (array : Bytes) (pos : Nat) (data : Bytes) : Bytes :=
  array.take pos ++ data ++ array.drop (pos + data.length)

theorem cstr_append_of_noNul {s : Bytes} (h : 0 ∉ s) (t : Bytes) :
    cstr (s ++ t) = s ++ cstr t := by
  refine List.takeWhile_append_of_pos fun x hx => ?_
  have hne : x ≠ 0 := fun h0 => h (h0 ▸ hx)
  simpa using hne

theorem cstr_of_noNul {s : Bytes} (h : 0 ∉ s) : cstr s = s := by
  simpa [cstr] using cstr_append_of_noNul h []

theorem cstr_terminated {s : Bytes} (h : 0 ∉ s) (t : Bytes) : cstr (s ++ 0 :: t) = s := by
  rw [cstr_append_of_noNul h]
  simp [cstr]

/-- With the bound `strlen(t)`, `strncmp` asks whether `t` is a prefix. -/
theorem strncmpEq_iff_startsWith {s t : Bytes} (ht : 0 ∉ t) :
    strncmpEq s t t.length = true ↔ t <+: s := by
  simp only [strncmpEq, decide_eq_true_eq, List.take_left]
  constructor
  · intro h
    by_cases hlen : t.length ≤ s.length
    · rw [List.take_append_of_le_length hlen] at h
      exact h ▸ List.take_prefix _ _
    · refine absurd ?_ ht
      rw [← h]
      refine List.mem_take_iff_getElem.mpr ⟨s.length, ?_, ?_⟩
      · simp only [List.length_append, List.length_singleton]
        omega
      · simp
  · rintro ⟨u, rfl⟩
    simp

theorem overwrite_zero (array data : Bytes) :
    overwrite array 0 data = data ++ array.drop data.length := by
  simp [overwrite]

theorem overwrite_length_end (array data : Bytes) :
    overwrite array array.length data = array ++ data := by
  simp [overwrite]

end CString
