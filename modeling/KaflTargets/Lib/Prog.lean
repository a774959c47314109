/-!
# Programs that change a state and may stop

`Prog ε σ α` is the type of programs over a state `σ` that end with a value of
type `α` or stop with a reason of type `ε`. A program that stops leaves the
state it had reached: what it did before it stopped stays visible.

The module gives the operations, one `run` equation for each, the loop `iter`
with a bound on its rounds, and the rules of the triple `Triple P x Q R`: from
a state in `P`, the program `x` ends with a value and a state in `Q`, or stops
in a state in `R`. `Keeps` and `Returns` are the triples of an invariant and of
a property of the returned value, `StopsIn` is about the reasons to stop. The
last part relates two programs whose states are images of each other.
-/

structure Prog (ε σ α : Type) where
  run : σ → Except ε α × σ

namespace Prog

variable {ε σ α β : Type}

/-! ## Operations -/

protected def bind (x : Prog ε σ α) (f : α → Prog ε σ β) : Prog ε σ β :=
  ⟨fun s =>
    match x.run s with
    | (.ok a, t) => (f a).run t
    | (.error e, t) => (.error e, t)⟩

instance : Monad (Prog ε σ) where
  pure a := ⟨fun s => (.ok a, s)⟩
  bind := Prog.bind

/-- Read a component of the state. -/
def gets (f : σ → α) : Prog ε σ α := ⟨fun s => (.ok (f s), s)⟩

/-- Replace the state. -/
def modify (f : σ → σ) : Prog ε σ Unit := ⟨fun s => (.ok (), f s)⟩

/-- End the whole program for the reason `e`. -/
def stop (e : ε) : Prog ε σ α := ⟨fun s => (.error e, s)⟩

/-- Run `x`; where it stops, go on with `handler` in the state it has reached. -/
def rescue (x : Prog ε σ α) (handler : ε → Prog ε σ α) : Prog ε σ α :=
  ⟨fun s =>
    match x.run s with
    | (.ok a, t) => (.ok a, t)
    | (.error e, t) => (handler e).run t⟩

/-- Run `body` for every element of a list, in order. -/
def each (body : α → Prog ε σ Unit) : List α → Prog ε σ Unit
  | [] => pure ()
  | a :: as => do
      body a
      each body as

/-- A loop. A round that ends in `inl b` is followed by a round from `b`, a
round that ends in `inr a` leaves the loop with `a`. A loop that has not ended
after `fuel` rounds stops with the reason `timeout`. -/
def iter (timeout : ε) (body : β → Prog ε σ (β ⊕ α)) : Nat → β → Prog ε σ α
  | 0, _ => stop timeout
  | fuel + 1, b => do
      match ← body b with
      | .inl b' => iter timeout body fuel b'
      | .inr a => pure a

/-! ## Runs -/

@[simp] theorem run_pure (a : α) (s : σ) : (pure a : Prog ε σ α).run s = (.ok a, s) := rfl

@[simp] theorem run_gets (f : σ → α) (s : σ) :
    (gets f : Prog ε σ α).run s = (.ok (f s), s) := rfl

@[simp] theorem run_modify (f : σ → σ) (s : σ) :
    (modify f : Prog ε σ Unit).run s = (.ok (), f s) := rfl

@[simp] theorem run_stop (e : ε) (s : σ) : (stop e : Prog ε σ α).run s = (.error e, s) := rfl

theorem run_bind (x : Prog ε σ α) (f : α → Prog ε σ β) (s : σ) :
    (x >>= f).run s =
      match x.run s with
      | (.ok a, t) => (f a).run t
      | (.error e, t) => (.error e, t) := rfl

@[simp] theorem run_ite (c : Prop) [Decidable c] (x y : Prog ε σ α) (s : σ) :
    (if c then x else y).run s = if c then x.run s else y.run s := by
  split <;> rfl

theorem run_bind_ok {x : Prog ε σ α} {f : α → Prog ε σ β} {s t : σ} {a : α}
    (h : x.run s = (.ok a, t)) : (x >>= f).run s = (f a).run t := by
  rw [run_bind, h]

theorem run_bind_error {x : Prog ε σ α} {f : α → Prog ε σ β} {s t : σ} {e : ε}
    (h : x.run s = (.error e, t)) : (x >>= f).run s = (.error e, t) := by
  rw [run_bind, h]

/-- The state a program leaves depends on those its parts leave. -/
theorem run_bind_snd {γ : Type} {f : α → Prog ε σ β} {g : α → Prog ε σ γ}
    (h : ∀ a s, ((f a).run s).2 = ((g a).run s).2) (x : Prog ε σ α) (s : σ) :
    ((x >>= f).run s).2 = ((x >>= g).run s).2 := by
  rw [run_bind, run_bind]
  cases x.run s with
  | mk r t =>
    cases r with
    | ok a => exact h a t
    | error e => rfl

theorem run_rescue (x : Prog ε σ α) (handler : ε → Prog ε σ α) (s : σ) :
    (rescue x handler).run s =
      match x.run s with
      | (.ok a, t) => (.ok a, t)
      | (.error e, t) => (handler e).run t := rfl

theorem run_rescue_ok {x : Prog ε σ α} {handler : ε → Prog ε σ α} {s t : σ} {a : α}
    (h : x.run s = (.ok a, t)) : (rescue x handler).run s = (.ok a, t) := by
  rw [run_rescue, h]

theorem run_rescue_error {x : Prog ε σ α} {handler : ε → Prog ε σ α} {s t : σ} {e : ε}
    (h : x.run s = (.error e, t)) : (rescue x handler).run s = (handler e).run t := by
  rw [run_rescue, h]

theorem run_iter_again {timeout : ε} {body : β → Prog ε σ (β ⊕ α)} {fuel : Nat} {b b' : β}
    {s t : σ} (h : (body b).run s = (.ok (.inl b'), t)) :
    (iter timeout body (fuel + 1) b).run s = (iter timeout body fuel b').run t := by
  rw [iter, run_bind_ok h]

theorem run_iter_done {timeout : ε} {body : β → Prog ε σ (β ⊕ α)} {fuel : Nat} {b : β}
    {s t : σ} {a : α} (h : (body b).run s = (.ok (.inr a), t)) :
    (iter timeout body (fuel + 1) b).run s = (.ok a, t) := by
  rw [iter, run_bind_ok h, run_pure]

theorem run_iter_stop {timeout : ε} {body : β → Prog ε σ (β ⊕ α)} {fuel : Nat} {b : β}
    {s t : σ} {e : ε} (h : (body b).run s = (.error e, t)) :
    (iter timeout body (fuel + 1) b).run s = (.error e, t) := by
  rw [iter, run_bind_error h]

/-! ## Triples -/

/-- From every state in `P`, the program ends with a value and a state in `Q`,
or stops in a state in `R`. -/
def Triple (P : σ → Prop) (x : Prog ε σ α) (Q : α → σ → Prop) (R : σ → Prop) : Prop :=
  ∀ s, P s →
    match x.run s with
    | (.ok a, t) => Q a t
    | (.error _, t) => R t

/-- If the program ends, its value has the property `P`. -/
def Returns (P : α → Prop) (x : Prog ε σ α) : Prop :=
  Triple (fun _ => True) x (fun a _ => P a) (fun _ => True)

/-- `I` holds after the program, however it ends, if it held before. -/
def Keeps (I : σ → Prop) (x : Prog ε σ α) : Prop := Triple I x (fun _ => I) I

/-- The program stops for reasons in `S` only. -/
def StopsIn (S : ε → Prop) (x : Prog ε σ α) : Prop := ∀ s e t, x.run s = (.error e, t) → S e

section Rules

variable {P : σ → Prop} {Q : α → σ → Prop} {R : σ → Prop} {I : σ → Prop}

theorem Triple.of_run {x : Prog ε σ α} {s t : σ} {a : α} (h : Triple P x Q R) (hs : P s)
    (hx : x.run s = (.ok a, t)) : Q a t := by
  have := h s hs
  rwa [hx] at this

theorem Triple.pure {a : α} (h : ∀ s, P s → Q a s) : Triple P (pure a : Prog ε σ α) Q R := h

theorem Triple.gets {f : σ → α} (h : ∀ s, P s → Q (f s) s) :
    Triple P (gets f : Prog ε σ α) Q R := h

theorem Triple.modify {f : σ → σ} {Q : Unit → σ → Prop} (h : ∀ s, P s → Q () (f s)) :
    Triple P (modify f : Prog ε σ Unit) Q R := h

theorem Triple.stop {e : ε} (h : ∀ s, P s → R s) : Triple P (stop e : Prog ε σ α) Q R := h

theorem Triple.bind {x : Prog ε σ α} {f : α → Prog ε σ β} {Q' : β → σ → Prop}
    (hx : Triple P x Q R) (hf : ∀ a, Triple (Q a) (f a) Q' R) :
    Triple P (x >>= f) Q' R := by
  intro s hs
  have hrun := hx s hs
  rw [run_bind]
  cases hxs : x.run s with
  | mk r t =>
    rw [hxs] at hrun
    cases r with
    | ok a => exact hf a t hrun
    | error e => exact hrun

theorem Triple.weaken {x : Prog ε σ α} {P' : σ → Prop} {Q' : α → σ → Prop} {R' : σ → Prop}
    (h : Triple P x Q R) (hP : ∀ s, P' s → P s) (hQ : ∀ a s, Q a s → Q' a s)
    (hR : ∀ s, R s → R' s) : Triple P' x Q' R' := by
  intro s hs
  have hrun := h s (hP s hs)
  cases hxs : x.run s with
  | mk r t =>
    rw [hxs] at hrun
    cases r with
    | ok a => exact hQ a t hrun
    | error e => exact hR t hrun

theorem Triple.absurd {x : Prog ε σ α} : Triple (fun _ => False) x Q R := fun _ h => h.elim

/-- A part of the precondition that does not depend on the state. -/
theorem Triple.assume {c : Prop} {x : Prog ε σ α} (h : c → Triple P x Q R) :
    Triple (fun s => c ∧ P s) x Q R := fun s hs => h hs.1 s hs.2

/-- A value fixed before the program runs. -/
theorem Triple.exists {ι : Type} {P : ι → σ → Prop} {x : Prog ε σ α}
    (h : ∀ i, Triple (P i) x Q R) : Triple (fun s => ∃ i, P i s) x Q R :=
  fun s ⟨i, hs⟩ => h i s hs

theorem Triple.ite {c : Prop} [Decidable c] {x y : Prog ε σ α}
    (hx : c → Triple P x Q R) (hy : ¬c → Triple P y Q R) :
    Triple P (if c then x else y) Q R := by
  split
  · next h => exact hx h
  · next h => exact hy h

/-- `if c then x`, and the rest of the program. -/
theorem Triple.when {c : Prop} [Decidable c] {x : Prog ε σ PUnit} {k : PUnit → Prog ε σ α}
    {P' : σ → Prop} (hx : c → Triple P x (fun _ => P') R) (hskip : ¬c → ∀ s, P s → P' s)
    (hk : ∀ u, Triple P' (k u) Q R) : Triple P (if c then x >>= k else k ⟨⟩) Q R :=
  Triple.ite (fun h => Triple.bind (hx h) hk) fun h s hs => hk ⟨⟩ s (hskip h s hs)

/-- What holds however the program ends. -/
theorem Triple.always {x : Prog ε σ α} {s : σ} (h : Triple P x (fun _ => R) R) (hs : P s) :
    R (x.run s).2 := by
  have hrun := h s hs
  cases hxs : x.run s with
  | mk r t =>
    rw [hxs] at hrun
    cases r with
    | ok a => exact hrun
    | error e => exact hrun

theorem Keeps.run {x : Prog ε σ α} {s : σ} (h : Keeps I x) (hs : I s) : I (x.run s).2 :=
  Triple.always h hs

theorem Triple.of_always {x : Prog ε σ α} (h : ∀ s, P s → R (x.run s).2) :
    Triple P x (fun _ => R) R := by
  intro s hs
  have hrun := h s hs
  cases hxs : x.run s with
  | mk r t =>
    rw [hxs] at hrun
    cases r with
    | ok a => exact hrun
    | error e => exact hrun

theorem Keeps.of_step {x : Prog ε σ α} (h : ∀ s, I s → I (x.run s).2) : Keeps I x :=
  Triple.of_always h

theorem Keeps.pure (a : α) : Keeps I (pure a : Prog ε σ α) := fun _ h => h

theorem Keeps.gets (f : σ → α) : Keeps I (gets f : Prog ε σ α) := fun _ h => h

theorem Keeps.stop (e : ε) : Keeps I (stop e : Prog ε σ α) := fun _ h => h

theorem Keeps.modify {f : σ → σ} (h : ∀ s, I s → I (f s)) :
    Keeps I (modify f : Prog ε σ Unit) := h

theorem Keeps.bind {x : Prog ε σ α} {f : α → Prog ε σ β} (hx : Keeps I x)
    (hf : ∀ a, Keeps I (f a)) : Keeps I (x >>= f) :=
  Triple.bind hx hf

theorem Keeps.ite {c : Prop} [Decidable c] {x y : Prog ε σ α} (hx : Keeps I x)
    (hy : Keeps I y) : Keeps I (if c then x else y) :=
  Triple.ite (fun _ => hx) (fun _ => hy)

theorem Keeps.when {c : Prop} [Decidable c] {x : Prog ε σ PUnit} {k : PUnit → Prog ε σ α}
    (hx : Keeps I x) (hk : ∀ u, Keeps I (k u)) : Keeps I (if c then x >>= k else k ⟨⟩) :=
  Triple.when (fun _ => hx) (fun _ _ hs => hs) hk

/-- The loop rule: what every round keeps, the loop keeps. -/
theorem Triple.iter {timeout : ε} {body : β → Prog ε σ (β ⊕ α)}
    (h : ∀ b, Triple I (body b) (fun _ => I) R) (hstop : ∀ s, I s → R s) (fuel : Nat) (b : β) :
    Triple I (iter timeout body fuel b) (fun _ => I) R := by
  induction fuel generalizing b with
  | zero => exact Triple.stop hstop
  | succ fuel ih =>
    refine Triple.bind (h b) fun r => ?_
    cases r with
    | inl b' => exact ih b'
    | inr a => exact Triple.pure fun _ hs => hs

theorem Keeps.iter {timeout : ε} {body : β → Prog ε σ (β ⊕ α)} (h : ∀ b, Keeps I (body b))
    (fuel : Nat) (b : β) : Keeps I (iter timeout body fuel b) :=
  Triple.iter h (fun _ hs => hs) fuel b

variable {V : α → Prop}

theorem Returns.of_run {x : Prog ε σ α} {s t : σ} {a : α} (h : Returns V x)
    (hx : x.run s = (.ok a, t)) : V a :=
  Triple.of_run h trivial hx

theorem Returns.pure {a : α} (h : V a) : Returns V (pure a : Prog ε σ α) := fun _ _ => h

theorem Returns.stop (e : ε) : Returns V (stop e : Prog ε σ α) := fun _ _ => trivial

theorem Returns.bind {V' : β → Prop} {x : Prog ε σ α} {f : α → Prog ε σ β} (hx : Returns V x)
    (hf : ∀ a, V a → Returns V' (f a)) : Returns V' (x >>= f) :=
  Triple.bind hx fun a s ha => hf a ha s trivial

/-- Only the last program of a sequence returns. -/
theorem Returns.seq {x : Prog ε σ β} {f : β → Prog ε σ α} (hf : ∀ a, Returns V (f a)) :
    Returns V (x >>= f) := by
  refine Returns.bind (V := fun _ => True) (fun s _ => ?_) fun a _ => hf a
  cases hxs : x.run s with
  | mk r t => cases r <;> trivial

theorem Returns.ite {c : Prop} [Decidable c] {x y : Prog ε σ α} (hx : Returns V x)
    (hy : Returns V y) : Returns V (if c then x else y) :=
  Triple.ite (fun _ => hx) (fun _ => hy)

theorem Returns.iter {timeout : ε} {body : β → Prog ε σ (β ⊕ α)}
    (h : ∀ b, Returns (Sum.elim (fun _ => True) V) (body b)) (fuel : Nat) (b : β) :
    Returns V (iter timeout body fuel b) := by
  induction fuel generalizing b with
  | zero => exact Returns.stop timeout
  | succ fuel ih =>
    refine Returns.bind (h b) fun r hr => ?_
    cases r with
    | inl b' => exact ih b'
    | inr a => exact Returns.pure hr

variable {S : ε → Prop}

theorem StopsIn.pure (a : α) : StopsIn S (pure a : Prog ε σ α) := fun _ _ _ h => nomatch h

theorem StopsIn.gets (f : σ → α) : StopsIn S (gets f : Prog ε σ α) := fun _ _ _ h => nomatch h

theorem StopsIn.modify (f : σ → σ) : StopsIn S (modify f : Prog ε σ Unit) :=
  fun _ _ _ h => nomatch h

theorem StopsIn.stop {e : ε} (h : S e) : StopsIn S (stop e : Prog ε σ α) := by
  intro s e' t hrun
  cases hrun
  exact h

/-- A program that always ends. -/
theorem StopsIn.of_ends {x : Prog ε σ α} (h : ∀ s, ∃ a, (x.run s).1 = .ok a) : StopsIn S x := by
  intro s e t hrun
  obtain ⟨a, ha⟩ := h s
  rw [hrun] at ha
  cases ha

theorem StopsIn.bind {x : Prog ε σ α} {f : α → Prog ε σ β} (hx : StopsIn S x)
    (hf : ∀ a, StopsIn S (f a)) : StopsIn S (x >>= f) := by
  intro s e t hrun
  cases hxs : x.run s with
  | mk r u =>
    cases r with
    | ok a => exact hf a u e t (by rwa [run_bind_ok hxs] at hrun)
    | error e' =>
      rw [run_bind_error hxs] at hrun
      cases hrun
      exact hx s e t hxs

theorem StopsIn.ite {c : Prop} [Decidable c] {x y : Prog ε σ α} (hx : StopsIn S x)
    (hy : StopsIn S y) : StopsIn S (if c then x else y) := by
  split
  · exact hx
  · exact hy

theorem StopsIn.iter {timeout : ε} {body : β → Prog ε σ (β ⊕ α)} (htimeout : S timeout)
    (h : ∀ b, StopsIn S (body b)) (fuel : Nat) (b : β) :
    StopsIn S (iter timeout body fuel b) := by
  induction fuel generalizing b with
  | zero => exact StopsIn.stop htimeout
  | succ fuel ih =>
    refine StopsIn.bind (h b) fun r => ?_
    cases r with
    | inl b' => exact ih b'
    | inr a => exact StopsIn.pure a

end Rules

/-! ## Simulation -/

/-- From the image of a state, `y` does what `x` does from the state: it ends
or stops in the same way, in the image of the state `x` reaches, and its value
is the image of the value of `x`. -/
def Sim {τ : Type} (f : σ → τ) (g : α → β) (x : Prog ε σ α) (y : Prog ε τ β) : Prop :=
  ∀ s, y.run (f s) = ((x.run s).1.map g, f (x.run s).2)

/-- The program neither sees nor changes what `f` changes. -/
def Commutes (f : σ → σ) (x : Prog ε σ α) : Prop := Sim f id x x

section SimRules

variable {τ γ δ : Type} {f : σ → τ} {g : α → β}

theorem Sim.pure (a : α) : Sim f g (pure a : Prog ε σ α) (pure (g a)) := fun _ => rfl

theorem Sim.stop (e : ε) : Sim f g (stop e : Prog ε σ α) (stop e) := fun _ => rfl

theorem Sim.gets {p : σ → α} {q : τ → β} (h : ∀ s, q (f s) = g (p s)) :
    Sim f g (gets p : Prog ε σ α) (gets q) := by
  intro s
  simp only [run_gets, h]
  rfl

theorem Sim.modify {m : σ → σ} {n : τ → τ} (h : ∀ s, n (f s) = f (m s)) :
    Sim f id (modify m : Prog ε σ Unit) (modify n) := by
  intro s
  simp only [run_modify, h]
  rfl

theorem Sim.bind {g' : γ → δ} {x : Prog ε σ α} {y : Prog ε τ β} {k : α → Prog ε σ γ}
    {l : β → Prog ε τ δ} (hx : Sim f g x y) (hk : ∀ a, Sim f g' (k a) (l (g a))) :
    Sim f g' (x >>= k) (y >>= l) := by
  intro s
  have hrun := hx s
  rw [run_bind, run_bind, hrun]
  cases hxs : x.run s with
  | mk r t =>
    cases r with
    | ok a => exact hk a t
    | error e => rfl

theorem Sim.ite {c c' : Prop} [Decidable c] [Decidable c'] {x x' : Prog ε σ α}
    {y y' : Prog ε τ β} (hc : c' ↔ c) (h : Sim f g x y) (h' : Sim f g x' y') :
    Sim f g (if c then x else x') (if c' then y else y') := by
  by_cases hcond : c
  · rw [if_pos hcond, if_pos (hc.mpr hcond)]
    exact h
  · rw [if_neg hcond, if_neg (fun h => hcond (hc.mp h))]
    exact h'

variable {f : σ → σ}

theorem Commutes.pure (a : α) : Commutes f (pure a : Prog ε σ α) := Sim.pure a

theorem Commutes.stop (e : ε) : Commutes f (stop e : Prog ε σ α) := Sim.stop e

theorem Commutes.gets {p : σ → α} (h : ∀ s, p (f s) = p s) :
    Commutes f (gets p : Prog ε σ α) := Sim.gets h

theorem Commutes.modify {m : σ → σ} (h : ∀ s, m (f s) = f (m s)) :
    Commutes f (modify m : Prog ε σ Unit) := Sim.modify h

theorem Commutes.bind {x : Prog ε σ α} {k : α → Prog ε σ β} (hx : Commutes f x)
    (hk : ∀ a, Commutes f (k a)) : Commutes f (x >>= k) := Sim.bind hx hk

theorem Commutes.ite {c : Prop} [Decidable c] {x y : Prog ε σ α} (hx : Commutes f x)
    (hy : Commutes f y) : Commutes f (if c then x else y) := Sim.ite Iff.rfl hx hy

/-- A program given by its `run` function commutes with `f` if each result
does. -/
theorem Commutes.of_run {run : σ → Except ε α × σ}
    (h : ∀ s, run (f s) = ((run s).1, f (run s).2)) : Commutes f (⟨run⟩ : Prog ε σ α) := by
  intro s
  have hs := h s
  cases hr : run s with
  | mk r t =>
    rw [hr] at hs
    cases r with
    | ok a => simpa [hr, Except.map] using hs
    | error e => simpa [hr, Except.map] using hs

theorem Commutes.iter {timeout : ε} {body : β → Prog ε σ (β ⊕ α)} (h : ∀ b, Commutes f (body b))
    (fuel : Nat) (b : β) : Commutes f (iter timeout body fuel b) := by
  induction fuel generalizing b with
  | zero => exact Commutes.stop timeout
  | succ fuel ih =>
    refine Commutes.bind (h b) fun r => ?_
    cases r with
    | inl b' => exact ih b'
    | inr a => exact Commutes.pure a

end SimRules

end Prog
