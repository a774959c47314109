import Mathlib.Data.List.Basic

/-!
# Overwriting in place

A buffer that is overwritten from its start and never cut shows each input
followed by what was left of the inputs before. `Presents` relates the inputs
to what the buffer holds after each of them; between two inputs its content may
change, but not its length. The buffer holds exactly the inputs if and only if
none of them is shorter than what was there before (`isolated_iff`).
-/

variable {α : Type}

/-- The buffer after `data` was written to its start. -/
def splice (old data : List α) : List α := data ++ old.drop data.length

theorem splice_length (old data : List α) :
    (splice old data).length = max old.length data.length := by
  simp only [splice, List.length_append, List.length_drop]
  omega

/-- Nothing of the old content is left exactly if the new one covers it. -/
theorem splice_eq_iff {old data : List α} : splice old data = data ↔ old.length ≤ data.length := by
  rw [splice, List.append_right_eq_self, List.drop_eq_nil_iff]

/-- From the content `old`, the inputs show these images. -/
inductive Presents : List α → List (List α) → List (List α) → Prop
  | nil (old : List α) : Presents old [] []
  | write {old new data : List α} {inputs images : List (List α)}
    (hlength : new.length = (splice old data).length) (hrest : Presents new inputs images) :
    Presents old (data :: inputs) (splice old data :: images)

namespace Presents

/-- Every image is the input alone exactly if the lengths never decrease,
starting from that of the first content. -/
theorem isolated_iff {old : List α} {inputs images : List (List α)}
    (h : Presents old inputs images) :
    images = inputs ↔ (old.length :: inputs.map List.length).Pairwise (· ≤ ·) := by
  induction h with
  | nil old => simp
  | @write old new data inputs images hlength _ ih =>
    rw [List.cons.injEq, splice_eq_iff, ih, hlength, splice_length, List.map_cons,
      List.pairwise_cons (a := old.length), List.forall_mem_cons]
    constructor
    · rintro ⟨hle, hrest⟩
      rw [Nat.max_eq_right hle] at hrest
      have hall := (List.pairwise_cons.mp hrest).1
      exact ⟨⟨hle, fun n hn => Nat.le_trans hle (hall n hn)⟩, hrest⟩
    · rintro ⟨⟨hle, _⟩, hrest⟩
      rw [Nat.max_eq_right hle]
      exact ⟨hle, hrest⟩

end Presents
