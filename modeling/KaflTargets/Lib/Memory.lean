import KaflTargets.Lib.CString

/-!
# Byte-addressed memory

A memory is a function from addresses to bytes. `store` writes a byte string,
`fill` a constant, `load` reads. `scatter` stores one byte string over a list
of pages, in list order, as a device does that is handed a page list; on a
contiguous list it is one `store` (`scatter_contiguous`).
-/

abbrev Mem := Nat → UInt8

namespace Mem

def load (m : Mem) (addr n : Nat) : Bytes := (List.range n).map fun i => m (addr + i)

def store (m : Mem) (addr : Nat) (data : Bytes) : Mem :=
  fun x => if addr ≤ x then (data[x - addr]?).getD (m x) else m x

def fill (m : Mem) (addr n : Nat) (b : UInt8) : Mem :=
  fun x => if addr ≤ x ∧ x < addr + n then b else m x

/-- A 32-bit word as little-endian bytes, and as they stand in memory. -/
def le32 (n : Nat) : Bytes :=
  [n.toUInt8, (n / 256).toUInt8, (n / 65536).toUInt8, (n / 16777216).toUInt8]

def word32 (m : Mem) (addr : Nat) : Nat :=
  (m addr).toNat + 256 * (m (addr + 1)).toNat + 65536 * (m (addr + 2)).toNat +
    16777216 * (m (addr + 3)).toNat

/-- A 16-bit word as it stands in memory. -/
def word16 (m : Mem) (addr : Nat) : Nat := (m addr).toNat + 256 * (m (addr + 1)).toNat

/-- Store `data` over the pages at `addrs`, `page` bytes to each, until the
data or the list ends. -/
def scatter (page : Nat) (m : Mem) : List Nat → Bytes → Mem
  | [], _ => m
  | addr :: addrs, data => scatter page (m.store addr (data.take page)) addrs (data.drop page)

/-- `if (p[0] == x) if (p[1] == y) ..`, for the bytes `x`, `y`, .. of a word. -/
def probe (m : Mem) : Nat → Bytes → Bool
  | _, [] => true
  | addr, x :: word => if m addr = x then probe m (addr + 1) word else false

variable {m : Mem} {addr n : Nat} {data : Bytes}

@[simp] theorem load_length : (m.load addr n).length = n := by simp [load]

theorem load_succ (m : Mem) (addr n : Nat) :
    m.load addr (n + 1) = m addr :: m.load (addr + 1) n := by
  simp [load, List.range_succ_eq_map, Nat.add_assoc, Nat.add_comm 1, Function.comp_def]

/-- The comparisons ask for a prefix of the bytes from there on. -/
theorem probe_iff (word : Bytes) : ∀ {addr n : Nat}, word.length ≤ n →
    (m.probe addr word = true ↔ word <+: m.load addr n) := by
  induction word with
  | nil => simp [probe]
  | cons x word ih =>
    intro addr n hn
    cases n with
    | zero => exact absurd hn (Nat.not_succ_le_zero _)
    | succ n =>
      rw [load_succ, List.cons_prefix_cons, ← ih (Nat.le_of_succ_le_succ hn), probe]
      by_cases hx : m addr = x
      · simp [hx]
      · simp [hx, Ne.symm hx]

@[simp] theorem store_nil : m.store addr [] = m := by
  funext x
  simp [store]

theorem load_store (h : n ≤ data.length) : (m.store addr data).load addr n = data.take n := by
  apply List.ext_getElem
  · simp [h]
  · intro i hi _
    have hin : i < n := by simpa using hi
    have hid : i < data.length := by omega
    simp [load, store, hid]

theorem store_append (xs ys : Bytes) :
    (m.store addr xs).store (addr + xs.length) ys = m.store addr (xs ++ ys) := by
  funext x
  simp only [store]
  by_cases hx : addr + xs.length ≤ x
  · have h1 : addr ≤ x := by omega
    have h2 : xs.length ≤ x - addr := by omega
    have h3 : x - (addr + xs.length) = x - addr - xs.length := by omega
    rw [if_pos hx, if_pos h1, if_pos h1, List.getElem?_append_right h2, h3,
      List.getElem?_eq_none h2, Option.getD_none]
  · rw [if_neg hx]
    by_cases h1 : addr ≤ x
    · have h2 : x - addr < xs.length := by omega
      rw [if_pos h1, if_pos h1, List.getElem?_append_left h2]
    · rw [if_neg h1, if_neg h1]

/-- What is stored again at an address hides what was stored there. -/
theorem store_store {xs ys : Bytes} (h : xs.length ≤ ys.length) :
    (m.store addr xs).store addr ys = m.store addr ys := by
  funext x
  simp only [store]
  by_cases hx : addr ≤ x
  · rw [if_pos hx, if_pos hx, if_pos hx]
    cases hget : ys[x - addr]? with
    | none =>
      have hout : xs.length ≤ x - addr := h.trans (List.getElem?_eq_none_iff.mp hget)
      rw [List.getElem?_eq_none hout]
      rfl
    | some y => rfl
  · rw [if_neg hx, if_neg hx, if_neg hx]

theorem le32_length (n : Nat) : (le32 n).length = 4 := rfl

theorem word32_store {n : Nat} (h : n < 4294967296) :
    (m.store addr (le32 n ++ data)).word32 addr = n := by
  simp [word32, store, le32]
  omega

theorem word32_lt : m.word32 addr < 4294967296 := by
  have h0 := (m addr).toNat_lt
  have h1 := (m (addr + 1)).toNat_lt
  have h2 := (m (addr + 2)).toNat_lt
  have h3 := (m (addr + 3)).toNat_lt
  unfold word32
  omega

theorem load_store_append (xs : Bytes) (h : n ≤ data.length) :
    (m.store addr (xs ++ data)).load (addr + xs.length) n = data.take n := by
  rw [← store_append, load_store h]

/-- The pages of a contiguous buffer of `n` pages, in order. -/
def pages (page addr n : Nat) : List Nat := (List.range n).map fun i => addr + i * page

theorem pages_succ (page addr n : Nat) :
    pages page addr (n + 1) = addr :: pages page (addr + page) n := by
  rw [pages, pages, List.range_succ_eq_map, List.map_cons, List.map_map]
  congr 1
  · omega
  · refine List.map_congr_left fun i _ => ?_
    simp only [Function.comp_apply, Nat.succ_eq_add_one, Nat.add_mul]
    omega

theorem scatter_contiguous (page : Nat) : ∀ (n : Nat) (m : Mem) (addr : Nat) (data : Bytes),
    m.scatter page (pages page addr n) data = m.store addr (data.take (n * page))
  | 0, m, addr, data => by simp [pages, scatter]
  | n + 1, m, addr, data => by
    rw [pages_succ, scatter, scatter_contiguous page n]
    by_cases hlen : page ≤ data.length
    · have htake : (data.take page).length = page := by simp [hlen]
      calc
        _ = (m.store addr (data.take page)).store (addr + (data.take page).length)
              ((data.drop page).take (n * page)) := by rw [htake]
        _ = m.store addr (data.take page ++ (data.drop page).take (n * page)) := store_append _ _
        _ = m.store addr (data.take ((n + 1) * page)) := by
              rw [← List.take_add, Nat.add_mul, Nat.one_mul, Nat.add_comm page]
    · have hle : data.length ≤ page := by omega
      have hle' : data.length ≤ (n + 1) * page := by
        rw [Nat.add_mul, Nat.one_mul]
        omega
      rw [List.drop_eq_nil_of_le hle, List.take_nil, store_nil, List.take_of_length_le hle,
        List.take_of_length_le hle']

end Mem
