import Mathlib.Data.List.Basic
import Mathlib.Data.List.Infix
import Mathlib.Data.List.TakeWhile

/-!
# Lines, pieces and fields

A text is a list. `lines` divides it behind every element that ends a line. A line is cut
into `pieces` by a reader whose buffer holds so many elements, and its `fields` are the
longest parts without a separator. `nextField` takes one of them off, as `strtok` does.

Results:
1. `flatten_lines`, `lines_drop`: a text is read line by line and piece by piece.
2. `fields_of_some`: the fields are what `nextField` finds, one after the other.
3. `length_fields_infix`: a part of a text has no more fields than the text.
-/

namespace Text

variable {α : Type}

/-- The lines of a text, each with the element that ends it. -/
def lines (ends : α → Bool) : List α → List (List α)
  | [] => []
  | c :: text =>
    if ends c then [c] :: lines ends text
    else
      match lines ends text with
      | [] => [[c]]
      | line :: rest => (c :: line) :: rest

/-- A line in pieces of `n + 1` elements. -/
def pieces (n : Nat) : List α → List (List α)
  | [] => []
  | c :: line => (c :: line.take n) :: pieces n (line.drop n)
termination_by line => line.length
decreasing_by
  simp only [List.length_drop, List.length_cons]
  omega

def fields (sep : α → Bool) (text : List α) : List (List α) :=
  (text.splitOnP sep).filter fun field => !field.isEmpty

/-- The first field, and the text behind the separator that ends it. -/
def nextField (sep : α → Bool) (text : List α) : Option (List α × List α) :=
  match text.dropWhile sep with
  | [] => none
  | c :: text =>
    some ((c :: text).takeWhile fun c => !sep c, ((c :: text).dropWhile fun c => !sep c).drop 1)

/-! ## 1. Lines and pieces -/

section Lines

variable {ends : α → Bool} {c : α} {text line : List α} {rest : List (List α)}

theorem lines_ne_nil (hline : line ∈ lines ends text) : line ≠ [] := by
  induction text generalizing line with
  | nil => cases hline
  | cons c text ih =>
    unfold lines at hline
    split at hline
    · rcases List.mem_cons.mp hline with rfl | hmem
      · exact List.cons_ne_nil _ _
      · exact ih hmem
    · split at hline
      · rw [List.mem_singleton.mp hline]
        exact List.cons_ne_nil _ _
      · next first rest hlines =>
        rcases List.mem_cons.mp hline with rfl | hmem
        · exact List.cons_ne_nil _ _
        · exact ih (hlines ▸ List.mem_cons_of_mem _ hmem)

/-- The first element is a line, or it belongs to the line behind it. -/
theorem lines_cons (h : lines ends (c :: text) = line :: rest) :
    (line = [c] ∧ lines ends text = rest) ∨
      ∃ line', line' ≠ [] ∧ line = c :: line' ∧ lines ends text = line' :: rest := by
  unfold lines at h
  split at h
  · obtain ⟨rfl, rfl⟩ := List.cons.inj h
    exact .inl ⟨rfl, rfl⟩
  · cases hlines : lines ends text with
    | nil =>
      rw [hlines] at h
      obtain ⟨rfl, rfl⟩ := List.cons.inj h
      exact .inl ⟨rfl, rfl⟩
    | cons first others =>
      rw [hlines] at h
      obtain ⟨rfl, rfl⟩ := List.cons.inj h
      exact .inr ⟨first, lines_ne_nil (hlines ▸ List.mem_cons_self), rfl, rfl⟩

theorem flatten_lines (ends : α → Bool) (text : List α) : (lines ends text).flatten = text := by
  induction text with
  | nil => rfl
  | cons c text ih =>
    unfold lines
    split
    · rw [List.flatten_cons, ih]
      rfl
    · split
      · next hnil =>
        rw [hnil] at ih
        rw [← ih]
        rfl
      · next line rest hlines =>
        rw [hlines] at ih
        rw [← ih]
        rfl

theorem eq_nil_of_lines (h : lines ends text = []) : text = [] := by
  rw [← flatten_lines ends text, h]
  rfl

/-- Behind a part of the first line come the rest of it and the other lines. -/
theorem lines_drop {n : Nat} (h : lines ends text = line :: rest) (hn : n < line.length) :
    lines ends (text.drop n) = line.drop n :: rest := by
  induction n generalizing text line with
  | zero => exact h
  | succ n ih =>
    cases text with
    | nil => cases h
    | cons c text =>
      rcases lines_cons h with ⟨rfl, _⟩ | ⟨line', _, rfl, hlines⟩
      · exact absurd hn (Nat.not_lt.mpr (Nat.le_add_left 1 n))
      · exact ih hlines (Nat.lt_of_succ_lt_succ hn)

theorem lines_drop_line (h : lines ends text = line :: rest) :
    lines ends (text.drop line.length) = rest := by
  induction line generalizing text with
  | nil => exact absurd rfl (lines_ne_nil (h ▸ List.mem_cons_self))
  | cons c' line ih =>
    cases text with
    | nil => cases h
    | cons c text =>
      rcases lines_cons h with ⟨hline, hlines⟩ | ⟨line', _, hline, hlines⟩
      · obtain ⟨rfl, rfl⟩ := List.cons.inj hline
        exact hlines
      · obtain ⟨rfl, rfl⟩ := List.cons.inj hline
        exact ih hlines

/-- The first line reaches to the first end of a line. -/
theorem line_eq (h : lines ends text = line :: rest) :
    line = text.takeWhile (fun c => !ends c) ++ (text.dropWhile fun c => !ends c).take 1 := by
  induction text generalizing line with
  | nil => cases h
  | cons c text ih =>
    unfold lines at h
    cases hc : ends c with
    | true =>
      rw [if_pos hc] at h
      obtain ⟨rfl, rfl⟩ := List.cons.inj h
      simp [hc]
    | false =>
      rw [if_neg (by simp [hc])] at h
      cases hlines : lines ends text with
      | nil =>
        have hnil := flatten_lines ends text
        rw [hlines] at h hnil
        obtain ⟨rfl, rfl⟩ := List.cons.inj h
        rw [← hnil]
        simp [hc]
      | cons first others =>
        rw [hlines] at h
        obtain ⟨rfl, rfl⟩ := List.cons.inj h
        rw [ih hlines]
        simp [hc]

end Lines

theorem pieces_nil (n : Nat) : pieces n ([] : List α) = [] := by rw [pieces]

/-- The first piece, and those of what is left. -/
theorem pieces_eq {line : List α} (n : Nat) (h : line ≠ []) :
    pieces n line = line.take (n + 1) :: pieces n (line.drop (n + 1)) := by
  cases line with
  | nil => exact absurd rfl h
  | cons c line =>
    rw [pieces]
    rfl

theorem pieces_ne_nil {n : Nat} {line piece : List α} (h : piece ∈ pieces n line) :
    piece ≠ [] := by
  fun_induction pieces n line with
  | case1 => cases h
  | case2 c line ih =>
    rcases List.mem_cons.mp h with rfl | hlater
    · exact List.cons_ne_nil _ _
    · exact ih hlater

theorem flatten_pieces (n : Nat) (line : List α) : (pieces n line).flatten = line := by
  fun_induction pieces n line with
  | case1 => rfl
  | case2 c line ih =>
    rw [List.flatten_cons, ih, List.cons_append, List.take_append_drop]

/-! ## 2. Fields -/

section Fields

variable {sep : α → Bool} {c d : α} {text : List α}

theorem fields_nil (sep : α → Bool) : fields sep [] = [] := rfl

/-- A separator divides the fields. -/
theorem fields_append_cons (before after : List α) (hc : sep c = true) :
    fields sep (before ++ c :: after) = fields sep before ++ fields sep after := by
  unfold fields
  rw [List.splitOnP_append_cons before after hc, List.filter_append]

theorem fields_cons_sep (hc : sep c = true) : fields sep (c :: text) = fields sep text :=
  fields_append_cons [] text hc

theorem fields_dropWhile (text : List α) : fields sep (text.dropWhile sep) = fields sep text := by
  induction text with
  | nil => rfl
  | cons c text ih =>
    cases hc : sep c with
    | true => rw [List.dropWhile_cons_of_pos hc, ih, fields_cons_sep hc]
    | false => rw [List.dropWhile_cons_of_neg (by simp [hc])]

/-- A text without a separator is a field. -/
theorem fields_single {field : List α} (hne : field ≠ []) (h : ∀ c ∈ field, sep c = false) :
    fields sep field = [field] := by
  unfold fields
  rw [List.splitOnP_eq_singleton h, List.filter_cons_of_pos (by simpa using hne), List.filter_nil]

theorem fields_of_none (h : nextField sep text = none) : fields sep text = [] := by
  unfold nextField at h
  rw [← fields_dropWhile]
  cases hdrop : text.dropWhile sep with
  | nil => rfl
  | cons c rest =>
    rw [hdrop] at h
    cases h

theorem fields_of_some {field rest : List α} (h : nextField sep text = some (field, rest)) :
    fields sep text = field :: fields sep rest := by
  unfold nextField at h
  rw [← fields_dropWhile]
  cases hdrop : text.dropWhile sep with
  | nil =>
    rw [hdrop] at h
    cases h
  | cons c after =>
    rw [hdrop] at h
    obtain ⟨hfield, hrest⟩ := Prod.mk.inj (Option.some.inj h)
    have hc : sep c = false := by
      simpa [hdrop] using List.head_dropWhile_not sep (l := text) (by simp [hdrop])
    have hne : field ≠ [] := by
      rw [← hfield, List.takeWhile_cons_of_pos (by simp [hc])]
      exact List.cons_ne_nil _ _
    have hword : ∀ x ∈ field, sep x = false := by
      intro x hx
      rw [← hfield] at hx
      simpa using List.mem_takeWhile_imp hx
    have hsplit : c :: after = field ++ (c :: after).dropWhile fun x => !sep x := by
      rw [← hfield, List.takeWhile_append_dropWhile]
    rw [hsplit]
    cases hleft : (c :: after).dropWhile fun x => !sep x with
    | nil =>
      rw [hleft] at hrest
      rw [← hrest, List.append_nil, fields_single hne hword]
      rfl
    | cons x left =>
      have hx : sep x = true := by
        simpa [hleft] using List.head_dropWhile_not (fun x => !sep x) (l := c :: after)
          (by simp [hleft])
      rw [hleft] at hrest
      rw [← hrest, fields_append_cons field left hx, fields_single hne hword]
      rfl

/-! ## 3. Parts of a text -/

/-- An element in front of a separator, or at the end, is a field. -/
theorem fields_cons_alone (hc : sep c = false) (h : ∀ d ∈ text.head?, sep d = true) :
    fields sep (c :: text) = [c] :: fields sep text := by
  have hword : fields sep [c] = [[c]] :=
    fields_single (List.cons_ne_nil _ _) fun x hx => by rwa [List.mem_singleton.mp hx]
  cases text with
  | nil => exact hword
  | cons d text =>
    have hd : sep d = true := h d rfl
    rw [← List.singleton_append, fields_append_cons [c] text hd, hword, fields_cons_sep hd]
    rfl

/-- An element in front of a field joins it. -/
theorem length_fields_cons_join (hc : sep c = false) (hd : sep d = false) :
    (fields sep (c :: d :: text)).length = (fields sep (d :: text)).length := by
  unfold fields
  rw [List.splitOnP_cons_eq_if_modifyHead c, if_neg (by simp [hc]),
    List.splitOnP_cons_eq_if_modifyHead d, if_neg (by simp [hd])]
  cases hsplit : text.splitOnP sep with
  | nil => exact absurd hsplit (List.splitOnP_ne_nil sep text)
  | cons first rest => rfl

theorem fields_cons_ne_nil (hc : sep c = false) : fields sep (c :: text) ≠ [] := by
  unfold fields
  rw [List.splitOnP_cons_eq_if_modifyHead c, if_neg (by simp [hc])]
  cases hsplit : text.splitOnP sep with
  | nil => exact absurd hsplit (List.splitOnP_ne_nil sep text)
  | cons first rest => exact List.cons_ne_nil _ _

theorem length_fields_cons_le (c : α) (text : List α) :
    (fields sep text).length ≤ (fields sep (c :: text)).length := by
  cases hc : sep c with
  | true => rw [fields_cons_sep hc]
  | false =>
    cases text with
    | nil => exact Nat.zero_le _
    | cons d text =>
      cases hd : sep d with
      | true =>
        rw [fields_cons_alone hc (by simp [hd])]
        exact Nat.le_succ _
      | false => rw [length_fields_cons_join hc hd]

theorem length_fields_append_right (before text : List α) :
    (fields sep text).length ≤ (fields sep (before ++ text)).length := by
  induction before with
  | nil => exact Nat.le_refl _
  | cons c before ih => exact ih.trans (length_fields_cons_le c _)

theorem length_fields_append_left (text after : List α) :
    (fields sep text).length ≤ (fields sep (text ++ after)).length := by
  induction text with
  | nil => exact Nat.zero_le _
  | cons c text ih =>
    cases hc : sep c with
    | true => rwa [List.cons_append, fields_cons_sep hc, fields_cons_sep hc]
    | false =>
      cases text with
      | nil =>
        rw [fields_cons_alone hc (by simp), fields_nil]
        exact List.length_pos_iff.mpr (fields_cons_ne_nil hc)
      | cons d text =>
        cases hd : sep d with
        | true =>
          rw [fields_cons_alone hc (by simp [hd]), List.cons_append, List.cons_append,
            fields_cons_alone hc (by simp [hd])]
          exact Nat.succ_le_succ ih
        | false =>
          rw [length_fields_cons_join hc hd, List.cons_append, List.cons_append,
            length_fields_cons_join hc hd]
          exact ih

/-- A part of a text has no more fields than the text. -/
theorem length_fields_infix {part : List α} (h : part <:+: text) :
    (fields sep part).length ≤ (fields sep text).length := by
  obtain ⟨before, after, rfl⟩ := h
  exact (length_fields_append_right before part).trans (length_fields_append_left _ after)

theorem length_fields_le (text : List α) : (fields sep text).length ≤ text.length := by
  induction text with
  | nil => exact Nat.le_refl 0
  | cons c text ih =>
    cases hc : sep c with
    | true =>
      rw [fields_cons_sep hc]
      exact ih.trans (Nat.le_succ _)
    | false =>
      cases text with
      | nil =>
        rw [fields_cons_alone hc (by simp), fields_nil]
        exact Nat.le_refl 1
      | cons d text =>
        cases hd : sep d with
        | true =>
          rw [fields_cons_alone hc (by simp [hd])]
          exact Nat.succ_le_succ ih
        | false =>
          rw [length_fields_cons_join hc hd]
          exact ih.trans (Nat.le_succ _)

end Fields

end Text
