import KaflTargets.Lib.Monitor
import KaflTargets.Lib.Prog

/-!
# Programs whose history a monitor accepts

A program writes a history, which is a component `hist` of its state.
`Follows hist m q x Q` says that the monitor `m`, in its state `q`, accepts all that the
program `x` adds, however it ends; if it ends with a value `a`, the monitor is then in a
state of `Q a`. Nothing is assumed about the state `x` starts from. The rules
compose such programs, and `Follows.accepted` is about a whole run.

A program with a handler may add one more event when it stops, whatever state the monitor is in:
`FollowsLast hist m q x F` says that all but at most one last event, of the kind `F`, is accepted.

`Monitor.run_balance` counts events of an accepted history that open and close something.
-/

namespace Prog

variable {ε σ α β κ η : Type}

/-- The program adds to the history what the monitor accepts from `q` on. -/
def Follows (hist : σ → List η) (m : Monitor κ η) (q : κ) (x : Prog ε σ α) (Q : α → κ → Prop) :
    Prop :=
  ∀ s, ∃ es p, hist (x.run s).2 = hist s ++ es ∧ m.run q es = some p ∧
    ∀ a, (x.run s).1 = .ok a → Q a p

/-- The program adds only events that leave the monitor where it is. -/
def Idles (hist : σ → List η) (m : Monitor κ η) (q : κ) (x : Prog ε σ α) : Prop :=
  Follows hist m q x fun _ p => p = q

section Rules

variable {hist : σ → List η} {m : Monitor κ η} {q : κ} {Q : α → κ → Prop} {x y : Prog ε σ α}

/-- A step that adds the events `es`. -/
theorem Follows.of_run (h : ∀ s, ∃ es p, hist (x.run s).2 = hist s ++ es ∧ m.run q es = some p ∧
    ∀ a, Q a p) : Follows hist m q x Q := by
  intro s
  obtain ⟨es, p, hes, hrun, hQ⟩ := h s
  exact ⟨es, p, hes, hrun, fun a _ => hQ a⟩

/-- A step that adds nothing. -/
theorem Follows.silent (hhist : ∀ s, hist (x.run s).2 = hist s) (hQ : ∀ a, Q a q) :
    Follows hist m q x Q := by
  intro s
  exact ⟨[], q, by rw [hhist, List.append_nil], rfl, fun a _ => hQ a⟩

theorem Follows.pure {a : α} (h : Q a q) : Follows hist m q (pure a : Prog ε σ α) Q := by
  intro s
  refine ⟨[], q, (List.append_nil _).symm, rfl, fun b hb => ?_⟩
  cases hb
  exact h

theorem Follows.stop (e : ε) : Follows hist m q (stop e : Prog ε σ α) Q :=
  fun _ => ⟨[], q, (List.append_nil _).symm, rfl, fun _ h => nomatch h⟩

theorem Follows.weaken {Q' : α → κ → Prop} (h : Follows hist m q x Q)
    (hQ : ∀ a p, Q a p → Q' a p) : Follows hist m q x Q' := by
  intro s
  obtain ⟨es, p, hes, hrun, hp⟩ := h s
  exact ⟨es, p, hes, hrun, fun a ha => hQ a p (hp a ha)⟩

/-- The second program starts where the monitor is after the first one. -/
theorem Follows.bind {f : α → Prog ε σ β} {Q' : β → κ → Prop} (hx : Follows hist m q x Q)
    (hf : ∀ a p, Q a p → Follows hist m p (f a) Q') : Follows hist m q (x >>= f) Q' := by
  intro s
  obtain ⟨es, p, hes, hrun, hQ⟩ := hx s
  cases hxs : x.run s with
  | mk r t =>
    rw [hxs] at hes hQ
    cases r with
    | error e =>
      rw [run_bind_error hxs]
      exact ⟨es, p, hes, hrun, fun _ h => nomatch h⟩
    | ok a =>
      obtain ⟨fs, p', hfs, hrun', hQ'⟩ := hf a p (hQ a rfl) t
      rw [run_bind_ok hxs]
      refine ⟨es ++ fs, p', ?_, ?_, hQ'⟩
      · rw [hfs, hes, List.append_assoc]
      · rw [m.run_append, hrun]
        exact hrun'

theorem Follows.ite {c : Prop} [Decidable c] (hx : c → Follows hist m q x Q)
    (hy : ¬c → Follows hist m q y Q) : Follows hist m q (if c then x else y) Q := by
  split
  · next h => exact hx h
  · next h => exact hy h

/-- The loop rule: `J` holds of the monitor before every round. -/
theorem Follows.iter {timeout : ε} {body : β → Prog ε σ (β ⊕ α)} {J : β → κ → Prop}
    (h : ∀ b p, J b p → Follows hist m p (body b) (Sum.elim J Q)) (fuel : Nat) :
    ∀ {b : β} {q : κ}, J b q → Follows hist m q (iter timeout body fuel b) Q := by
  induction fuel with
  | zero => exact fun _ => Follows.stop timeout
  | succ fuel ih =>
    intro b q hJ
    refine Follows.bind (h b q hJ) fun r p hr => ?_
    cases r with
    | inl b' => exact ih hr
    | inr a => exact Follows.pure hr

theorem Idles.pure (a : α) : Idles hist m q (pure a : Prog ε σ α) := Follows.pure rfl

theorem Idles.stop (e : ε) : Idles hist m q (stop e : Prog ε σ α) := Follows.stop e

theorem Idles.silent (h : ∀ s, hist (x.run s).2 = hist s) : Idles hist m q x :=
  Follows.silent h fun _ => rfl

theorem Idles.gets (f : σ → α) : Idles hist m q (gets f : Prog ε σ α) := Idles.silent fun _ => rfl

/-- An idle program, and the rest. -/
theorem Idles.seq {f : α → Prog ε σ β} {Q' : β → κ → Prop} (hx : Idles hist m q x)
    (hf : ∀ a, Follows hist m q (f a) Q') : Follows hist m q (x >>= f) Q' := by
  refine Follows.bind hx fun a p hp => ?_
  rw [hp]
  exact hf a

theorem Idles.ite {c : Prop} [Decidable c] (hx : Idles hist m q x) (hy : Idles hist m q y) :
    Idles hist m q (if c then x else y) :=
  Follows.ite (fun _ => hx) (fun _ => hy)

/-- `if c then x`, and the rest. -/
theorem Idles.when {c : Prop} [Decidable c] {x : Prog ε σ PUnit} {k : PUnit → Prog ε σ β}
    {Q' : β → κ → Prop} (hx : Idles hist m q x) (hk : ∀ u, Follows hist m q (k u) Q') :
    Follows hist m q (if c then x >>= k else k ⟨⟩) Q' :=
  Follows.ite (fun _ => Idles.seq hx hk) fun _ => hk ⟨⟩

theorem Idles.iter {timeout : ε} {body : β → Prog ε σ (β ⊕ α)}
    (h : ∀ b, Idles hist m q (body b)) (fuel : Nat) (b : β) :
    Idles hist m q (iter timeout body fuel b) := by
  refine Follows.iter (J := fun _ p => p = q) (fun b p hp => ?_) fuel rfl
  rw [hp]
  refine (h b).weaken fun r p' hp' => ?_
  cases r with
  | inl b' => exact hp'
  | inr a => exact hp'

theorem Idles.each {body : α → Prog ε σ Unit} (h : ∀ a, Idles hist m q (body a)) :
    ∀ as : List α, Idles hist m q (each body as)
  | [] => Idles.pure ()
  | a :: as => Idles.seq (h a) fun _ => Idles.each h as

/-- A program that adds only events of a kind the monitor takes no notice of. -/
theorem Idles.of_events {S : η → Prop} (hS : ∀ e, S e → m.next q e = some q)
    (h : ∀ s, ∃ es, hist (x.run s).2 = hist s ++ es ∧ ∀ e ∈ es, S e) : Idles hist m q x := by
  refine Follows.of_run fun s => ?_
  obtain ⟨es, hes, hall⟩ := h s
  refine ⟨es, q, hes, ?_, fun _ => rfl⟩
  clear hes
  induction es with
  | nil => rfl
  | cons e es ih =>
    obtain ⟨he, hes⟩ := List.forall_mem_cons.mp hall
    rw [m.run_cons, hS e he]
    exact ih hes

/-- The whole history of a run that starts without one. -/
theorem Follows.accepted (h : Follows hist m q x Q) {s : σ} (hs : hist s = []) :
    ∃ p, m.run q (hist (x.run s).2) = some p := by
  obtain ⟨es, p, hes, hrun, -⟩ := h s
  rw [hs, List.nil_append] at hes
  exact ⟨p, by rw [hes]; exact hrun⟩

end Rules

/-! ## One more event at the end -/

/-- The program adds what the monitor accepts from `q` on, and then at most one event, of the
kind `F`. -/
def FollowsLast (hist : σ → List η) (m : Monitor κ η) (q : κ) (x : Prog ε σ α) (F : η → Prop) :
    Prop :=
  ∀ s, ∃ es p, ∃ last : Option η, hist (x.run s).2 = hist s ++ (es ++ last.toList) ∧
    m.run q es = some p ∧ ∀ e, last = some e → F e

section LastRules

variable {hist : σ → List η} {m : Monitor κ η} {q : κ} {Q : α → κ → Prop} {x : Prog ε σ α}
  {F : η → Prop}

/-- The last event comes from the handler. -/
theorem FollowsLast.rescue {handler : ε → Prog ε σ α} (hx : Follows hist m q x Q)
    (hhandler : ∀ e s, ∃ last : Option η,
      hist ((handler e).run s).2 = hist s ++ last.toList ∧ ∀ e, last = some e → F e) :
    FollowsLast hist m q (rescue x handler) F := by
  intro s
  obtain ⟨es, p, hes, hrun, -⟩ := hx s
  cases hxs : x.run s with
  | mk r t =>
    rw [hxs] at hes
    cases r with
    | ok a =>
      rw [run_rescue_ok hxs]
      refine ⟨es, p, none, ?_, hrun, fun _ h => nomatch h⟩
      rw [hes, Option.toList_none, List.append_nil]
    | error e =>
      obtain ⟨last, hlast, hF⟩ := hhandler e t
      rw [run_rescue_error hxs]
      exact ⟨es, p, last, by rw [hlast, hes, List.append_assoc], hrun, hF⟩

/-- The whole history of a run that starts without one. -/
theorem FollowsLast.accepted (h : FollowsLast hist m q x F) {s : σ} (hs : hist s = []) :
    ∃ es p, ∃ last : Option η, hist (x.run s).2 = es ++ last.toList ∧ m.run q es = some p ∧
      ∀ e, last = some e → F e := by
  obtain ⟨es, p, last, hes, hrun, hlast⟩ := h s
  rw [hs, List.nil_append] at hes
  exact ⟨es, p, last, hes, hrun, hlast⟩

end LastRules

end Prog
