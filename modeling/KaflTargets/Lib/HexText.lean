import KaflTargets.Lib.CString
import KaflTargets.Lib.Scanf

/-!
# Numbers printed and read back

What `%lx` and `%016lx` print are hexadecimal digits, and the number they denote is the one that
was printed (`valueOf_hex`, `valueOf_hexPadded`).
-/

namespace Scanf

open CString

/-- `%0*lx`: hexadecimal, padded with zeros. -/
def hexPadded (width n : Nat) : Bytes := List.replicate (width - (hex n).length) 48 ++ hex n

theorem digitVal_digitChar {d : Nat} (h : d < 16) :
    digitVal d.digitChar.toNat.toUInt8 = some d := by
  have hall : ∀ d : Fin 16, digitVal d.val.digitChar.toNat.toUInt8 = some d.val := by decide
  exact hall ⟨d, h⟩

theorem hex_of_lt {n : Nat} (h : n < 16) : hex n = [n.digitChar.toNat.toUInt8] := by
  unfold hex
  rw [Nat.toDigits_of_lt_base h]
  rfl

theorem hex_of_le {n : Nat} (h : 16 ≤ n) :
    hex n = hex (n / 16) ++ [(n % 16).digitChar.toNat.toUInt8] := by
  unfold hex
  rw [Nat.toDigits_of_base_le (by decide) h, List.map_append]
  rfl

theorem valueOf_append (base : Nat) (digits : Bytes) (c : UInt8) :
    valueOf base (digits ++ [c]) = valueOf base digits * base + (digitVal c).getD 0 := by
  unfold valueOf
  rw [List.foldl_append]
  rfl

theorem valueOf_zeros (base n : Nat) (digits : Bytes) :
    valueOf base (List.replicate n 48 ++ digits) = valueOf base digits := by
  induction n with
  | zero => rfl
  | succ n ih =>
    rw [← ih]
    show List.foldl _ (0 * base + 0) (List.replicate n 48 ++ digits) = _
    rw [Nat.zero_mul]
    rfl

/-- The last digit, and the digits before it. -/
theorem valueOf_hex (n : Nat) : valueOf 16 (hex n) = n := by
  induction n using Nat.strongRecOn with
  | ind n ih =>
    rcases Nat.lt_or_ge n 16 with hlt | hge
    · rw [hex_of_lt hlt]
      show 0 * 16 + (digitVal _).getD 0 = n
      rw [digitVal_digitChar hlt, Nat.zero_mul, Nat.zero_add]
      rfl
    · have hsmaller : n / 16 < n :=
        Nat.div_lt_self (Nat.lt_of_lt_of_le (by decide) hge) (by decide)
      rw [hex_of_le hge, valueOf_append, ih _ hsmaller, digitVal_digitChar (Nat.mod_lt _ (by decide))]
      exact Nat.div_add_mod' n 16

theorem hex_digits (n : Nat) : ∀ c ∈ hex n, isDigit 16 c = true := by
  have hdigit {d : Nat} (h : d < 16) : isDigit 16 d.digitChar.toNat.toUInt8 = true := by
    unfold isDigit
    rw [digitVal_digitChar h]
    exact decide_eq_true h
  induction n using Nat.strongRecOn with
  | ind n ih =>
    intro c hc
    rcases Nat.lt_or_ge n 16 with hlt | hge
    · rw [hex_of_lt hlt] at hc
      rw [List.mem_singleton.mp hc]
      exact hdigit hlt
    · have hsmaller : n / 16 < n :=
        Nat.div_lt_self (Nat.lt_of_lt_of_le (by decide) hge) (by decide)
      rw [hex_of_le hge] at hc
      rcases List.mem_append.mp hc with hc | hc
      · exact ih _ hsmaller c hc
      · rw [List.mem_singleton.mp hc]
        exact hdigit (Nat.mod_lt _ (by decide))

theorem length_hex_le {n width : Nat} (hwidth : 0 < width) (h : n < 16 ^ width) :
    (hex n).length ≤ width := by
  unfold hex
  rw [List.length_map]
  exact (Nat.length_toDigits_le_iff (by decide) hwidth).mpr h

/-! ## Padded numbers -/

theorem valueOf_hexPadded (width n : Nat) : valueOf 16 (hexPadded width n) = n := by
  unfold hexPadded
  rw [valueOf_zeros, valueOf_hex]

theorem hexPadded_digits (width n : Nat) : ∀ c ∈ hexPadded width n, isDigit 16 c = true := by
  intro c hc
  rcases List.mem_append.mp hc with hc | hc
  · rw [List.eq_of_mem_replicate hc]
    rfl
  · exact hex_digits n c hc

theorem length_hexPadded {width n : Nat} (hwidth : 0 < width) (h : n < 16 ^ width) :
    (hexPadded width n).length = width := by
  unfold hexPadded
  rw [List.length_append, List.length_replicate, Nat.sub_add_cancel (length_hex_le hwidth h)]

theorem hexPadded_ne_nil (width n : Nat) : hexPadded width n ≠ [] := by
  intro hnil
  have hlast : hex n = [] := (List.append_eq_nil_iff.mp hnil).2
  unfold hex at hlast
  exact Nat.toDigits_ne_nil (List.map_eq_nil_iff.mp hlast)

end Scanf
