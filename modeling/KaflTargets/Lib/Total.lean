import KaflTargets.Lib.Prog

/-!
# Total correctness

`Meets P x Q R` is a triple that tells the reasons to stop apart: from a state in `P`, the program
`x` ends with a value and a state in `Q`, or stops for a reason and in a state in `R`. A loop whose
rounds decrease a variant below its bound does not stop for `timeout`.
-/

namespace Prog

variable {ε σ α β : Type}

/-- From every state in `P`, the program ends in `Q` or stops in `R`. -/
def Meets (P : σ → Prop) (x : Prog ε σ α) (Q : α → σ → Prop) (R : ε → σ → Prop) : Prop :=
  ∀ s, P s →
    match x.run s with
    | (.ok a, t) => Q a t
    | (.error e, t) => R e t

section Rules

variable {P : σ → Prop} {Q : α → σ → Prop} {R : ε → σ → Prop} {x y : Prog ε σ α}

theorem Meets.of_run (h : ∀ s, P s → ∃ a t, x.run s = (.ok a, t) ∧ Q a t) : Meets P x Q R := by
  intro s hs
  obtain ⟨a, t, hrun, hQ⟩ := h s hs
  rw [hrun]
  exact hQ

/-- The two ways a program ends. -/
theorem Meets.ends (h : Meets P x Q R) {s : σ} (hs : P s) :
    (∃ a t, x.run s = (.ok a, t) ∧ Q a t) ∨ ∃ e t, x.run s = (.error e, t) ∧ R e t := by
  have hrun := h s hs
  cases hxs : x.run s with
  | mk r t =>
    rw [hxs] at hrun
    cases r with
    | ok a => exact .inl ⟨a, t, rfl, hrun⟩
    | error e => exact .inr ⟨e, t, rfl, hrun⟩

theorem Meets.pure {a : α} (h : ∀ s, P s → Q a s) : Meets P (pure a : Prog ε σ α) Q R := h

theorem Meets.gets {f : σ → α} (h : ∀ s, P s → Q (f s) s) :
    Meets P (gets f : Prog ε σ α) Q R := h

theorem Meets.modify {f : σ → σ} {Q : Unit → σ → Prop} (h : ∀ s, P s → Q () (f s)) :
    Meets P (modify f : Prog ε σ Unit) Q R := h

theorem Meets.weaken {P' : σ → Prop} {Q' : α → σ → Prop} {R' : ε → σ → Prop}
    (h : Meets P x Q R) (hP : ∀ s, P' s → P s) (hQ : ∀ a s, Q a s → Q' a s)
    (hR : ∀ e s, R e s → R' e s) : Meets P' x Q' R' := by
  intro s hs
  rcases h.ends (hP s hs) with ⟨a, t, hrun, ha⟩ | ⟨e, t, hrun, he⟩
  · rw [hrun]
    exact hQ a t ha
  · rw [hrun]
    exact hR e t he

theorem Meets.bind {f : α → Prog ε σ β} {Q' : β → σ → Prop} (hx : Meets P x Q R)
    (hf : ∀ a, Meets (Q a) (f a) Q' R) : Meets P (x >>= f) Q' R := by
  intro s hs
  rcases hx.ends hs with ⟨a, t, hrun, ha⟩ | ⟨e, t, hrun, he⟩
  · rw [run_bind_ok hrun]
    exact hf a t ha
  · rw [run_bind_error hrun]
    exact he

theorem Meets.ite {c : Prop} [Decidable c] (hx : c → Meets P x Q R) (hy : ¬c → Meets P y Q R) :
    Meets P (if c then x else y) Q R := by
  split
  · next h => exact hx h
  · next h => exact hy h

/-- A property of the value that does not depend on the state. -/
theorem Meets.returns {V : α → Prop} (h : Meets P x Q R) (hx : Returns V x) :
    Meets P x (fun a s => V a ∧ Q a s) R := by
  intro s hs
  rcases h.ends hs with ⟨a, t, hrun, ha⟩ | ⟨e, t, hrun, he⟩
  · rw [hrun]
    exact ⟨hx.of_run hrun, ha⟩
  · rw [hrun]
    exact he

/-- A value fixed before the program runs. -/
theorem Meets.exists {ι : Type} {P : ι → σ → Prop} (h : ∀ i, Meets (P i) x Q R) :
    Meets (fun s => ∃ i, P i s) x Q R :=
  fun s ⟨i, hs⟩ => h i s hs

/-- The loop rule with a variant: every round that is not the last one decreases it. -/
theorem Meets.iter {timeout : ε} {body : β → Prog ε σ (β ⊕ α)} {I : Nat → β → σ → Prop}
    (h : ∀ n b, Meets (I n b) (body b)
      (fun r s => Sum.elim (fun b' => ∃ m, m < n ∧ I m b' s) (fun a => Q a s) r) R) :
    ∀ (fuel : Nat) {n : Nat} (b : β), n < fuel → Meets (I n b) (iter timeout body fuel b) Q R
  | fuel + 1, n, b, hlt => by
    refine Meets.bind (h n b) fun r => ?_
    cases r with
    | inr a => exact Meets.pure fun _ ha => ha
    | inl b' =>
      rintro s ⟨m, hm, hI⟩
      exact Meets.iter h fuel b' (Nat.lt_of_lt_of_le hm (Nat.le_of_lt_succ hlt)) s hI

end Rules

end Prog
