import Mathlib.Data.List.DropRight
import KaflTargets.Lib.Text

/-!
# Filters on lines

The tools of a pipeline read a text and write one: `grep` keeps lines, `head` and `tail` take the
first and the last one, `cut` takes the first field of each. A substitution `$(..)` drops the
newlines at the end.

A text that is a list of lines (`unlines`) goes through each of them as a list: `grep_unlines`,
`head_unlines`, `tail_unlines`, `cut_unlines`, `substitution_unlines`.
-/

namespace Text

variable {α : Type} [DecidableEq α] (newline : α)

/-- The text with these lines. -/
def unlines (bodies : List (List α)) : List α := bodies.flatMap (· ++ [newline])

/-- The lines of a text without the newline that ends them. -/
def bodies (text : List α) : List (List α) :=
  (lines (· = newline) text).map fun line => line.takeWhile (· ≠ newline)

/-- `grep`. -/
def grep (pattern : List α → Bool) (text : List α) : List α :=
  unlines newline ((bodies newline text).filter pattern)

/-- `head -1`. -/
def head (text : List α) : List α := (lines (· = newline) text).head?.getD []

/-- `tail -1`. -/
def tail (text : List α) : List α := (lines (· = newline) text).getLast?.getD []

/-- `cut -d sep -f 1`. -/
def cut (sep : α) (text : List α) : List α :=
  unlines newline ((bodies newline text).map fun body => body.takeWhile (· ≠ sep))

/-- `$(..)`. -/
def substitution (text : List α) : List α := text.rdropWhile (· = newline)

section

variable {newline} {body : List α} {all : List (List α)}

theorem lines_append_line (h : newline ∉ body) (text : List α) :
    lines (· = newline) (body ++ newline :: text) =
      (body ++ [newline]) :: lines (· = newline) text := by
  induction body with
  | nil =>
    rw [List.nil_append, lines, if_pos (decide_eq_true rfl)]
    rfl
  | cons c body ih =>
    rw [List.mem_cons, not_or] at h
    rw [List.cons_append, lines, if_neg (by simpa using Ne.symm h.1), ih h.2]
    rfl

theorem lines_unlines (h : ∀ body ∈ all, newline ∉ body) :
    lines (· = newline) (unlines newline all) = all.map (· ++ [newline]) := by
  induction all with
  | nil => rfl
  | cons body all ih =>
    have hrest := ih fun b hb => h b (List.mem_cons_of_mem _ hb)
    show lines _ ((body ++ [newline]) ++ unlines newline all) = _
    rw [List.append_assoc, List.cons_append, List.nil_append,
      lines_append_line (h body List.mem_cons_self), hrest]
    rfl

theorem takeWhile_body (h : newline ∉ body) :
    (body ++ [newline]).takeWhile (· ≠ newline) = body := by
  rw [List.takeWhile_append_of_pos]
  · simp
  · intro c hc
    exact decide_eq_true fun heq => h (heq ▸ hc)

theorem bodies_unlines (h : ∀ body ∈ all, newline ∉ body) :
    bodies newline (unlines newline all) = all := by
  unfold bodies
  rw [lines_unlines h, List.map_map]
  exact (List.map_congr_left fun body hbody => takeWhile_body (h body hbody)).trans (List.map_id _)

theorem grep_unlines (pattern : List α → Bool) (h : ∀ body ∈ all, newline ∉ body) :
    grep newline pattern (unlines newline all) = unlines newline (all.filter pattern) := by
  unfold grep
  rw [bodies_unlines h]

theorem head_unlines (h : ∀ body ∈ all, newline ∉ body) :
    head newline (unlines newline all) = unlines newline all.head?.toList := by
  unfold head
  rw [lines_unlines h]
  cases all with
  | nil => rfl
  | cons body all => exact (List.append_nil _).symm

theorem tail_unlines (h : ∀ body ∈ all, newline ∉ body) :
    tail newline (unlines newline all) = unlines newline all.getLast?.toList := by
  unfold tail
  rw [lines_unlines h, List.getLast?_map]
  cases all.getLast? with
  | none => rfl
  | some body => exact (List.append_nil _).symm

theorem cut_unlines (sep : α) (h : ∀ body ∈ all, newline ∉ body) :
    cut newline sep (unlines newline all) =
      unlines newline (all.map fun body => body.takeWhile (· ≠ sep)) := by
  unfold cut
  rw [bodies_unlines h]

/-- One line. -/
theorem substitution_unlines (h : newline ∉ body) :
    substitution newline (unlines newline [body]) = body := by
  show (body ++ [newline] ++ []).rdropWhile _ = body
  rw [List.append_nil, List.rdropWhile_concat_pos _ _ _ (by simp)]
  rcases List.eq_nil_or_concat' body with rfl | ⟨rest, c, rfl⟩
  · rfl
  · exact List.rdropWhile_concat_neg _ _ _ fun hc =>
      h (List.mem_append_right _ (List.mem_singleton.mpr (of_decide_eq_true hc).symm))

end

/-! ## Parts of a line -/

section

variable {β : Type} {c : β} {word before after : List β}

/-- A word is not found where its first element is missing. -/
theorem infix_append_of_notMem (h : c ∉ before) :
    c :: word <:+: before ++ after ↔ c :: word <:+: after := by
  induction before with
  | nil => rfl
  | cons b before ih =>
    rw [List.mem_cons, not_or] at h
    rw [List.cons_append, List.infix_cons_iff, ih h.2]
    exact or_iff_right fun hstart => h.1 (List.cons_prefix_cons.mp hstart).1

/-- The last separator divides a text in one way. -/
theorem last_separator {before' after' : List β} (hafter : c ∉ after) (hafter' : c ∉ after')
    (h : before ++ c :: after = before' ++ c :: after') : before = before' ∧ after = after' := by
  rcases List.append_eq_append_iff.mp h with ⟨between, hbefore, hc⟩ | ⟨between, hbefore, hc⟩
  · cases between with
    | nil => exact ⟨(List.append_nil before ▸ hbefore).symm, (List.cons.inj hc).2⟩
    | cons b between =>
      have htext : after = between ++ c :: after' := (List.cons.inj hc).2
      exact absurd (htext ▸ List.mem_append_right between List.mem_cons_self) hafter
  · cases between with
    | nil => exact ⟨List.append_nil before' ▸ hbefore, (List.cons.inj hc).2.symm⟩
    | cons b between =>
      have htext : after' = between ++ c :: after := (List.cons.inj hc).2
      exact absurd (htext ▸ List.mem_append_right between List.mem_cons_self) hafter'

/-- A word with a space in its second place is found in a text of a letter, a space and
letters only at its start. -/
theorem infix_word_iff {b space : β} (hc : c ≠ space) (hafter : space ∉ after) :
    c :: space :: word <:+: b :: space :: after ↔ c = b ∧ word <+: after := by
  have hnone : ¬c :: space :: word <:+: space :: after := by
    rw [List.infix_cons_iff]
    rintro (hstart | hinside)
    · exact hc (List.cons_prefix_cons.mp hstart).1
    · exact hafter (hinside.subset (List.mem_cons_of_mem _ List.mem_cons_self))
  rw [List.infix_cons_iff, or_iff_left hnone, List.cons_prefix_cons, List.cons_prefix_cons]
  exact and_congr_right fun _ => and_iff_right rfl

end

end Text
