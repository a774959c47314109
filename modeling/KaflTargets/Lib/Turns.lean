import KaflTargets.Lib.Monitor

/-!
# Workers that take turns

A supervisor runs one worker after the other and closes the turn of each with a mark. The
history of such a system is the turns one by one (`closed`), and what is in progress.

Results:
1. `System.replay_history`: what holds of the history and the state after every step holds after
   every run.
2. `Monitor.run_turns`: if the mark takes a monitor back to its first state, it only has to
   accept each turn.
3. `Monitor.run_between`: what is started twice was stopped in between.
-/

namespace Turns

variable {ε : Type}

/-- The history of finished turns. -/
def closed (mark : ε) (turns : List (List ε)) : List ε := turns.flatMap (· ++ [mark])

/-- One more turn is over. -/
theorem closed_concat (mark : ε) (turns : List (List ε)) (turn : List ε) :
    closed mark (turns ++ [turn]) = closed mark turns ++ turn ++ [mark] := by
  unfold closed
  rw [List.flatMap_append, List.append_assoc]
  exact congrArg _ (List.append_nil _)

end Turns

theorem System.replay_history {σ α ε : Type} (sys : System σ α ε) {P : List ε → σ → Prop}
    (hstep : ∀ h s a es t, P h s → sys.step s a = some (es, t) → P (h ++ es) t) :
    ∀ (as : List α) {h g : List ε} {s t : σ}, P h s → sys.replay s as = some (g, t) →
      P (h ++ g) t
  | [], h, g, s, t, hP, hrun => by
    simp only [System.replay, Option.some.injEq, Prod.mk.injEq] at hrun
    obtain ⟨rfl, rfl⟩ := hrun
    rwa [List.append_nil]
  | a :: as, h, g, s, t, hP, hrun => by
    obtain ⟨es, u, fs, hfirst, hrest, rfl⟩ := sys.replay_cons hrun
    rw [← List.append_assoc]
    exact replay_history sys hstep as (hstep h s a es u hP hfirst) hrest

namespace Monitor

variable {κ ε : Type} (m : Monitor κ ε)

theorem run_turns {mark : ε} {q₀ : κ} (hmark : ∀ q, m.next q mark = some q₀)
    {turns : List (List ε)} (hturns : ∀ turn ∈ turns, ∃ q, m.run q₀ turn = some q)
    (rest : List ε) : m.run q₀ (Turns.closed mark turns ++ rest) = m.run q₀ rest := by
  induction turns with
  | nil => rfl
  | cons turn turns ih =>
    obtain ⟨q, hturn⟩ := hturns turn List.mem_cons_self
    have hrest := ih fun t ht => hturns t (List.mem_cons_of_mem _ ht)
    show m.run q₀ ((turn ++ [mark]) ++ Turns.closed mark turns ++ rest) = _
    rw [List.append_assoc, List.append_assoc, m.run_append, hturn]
    show (m.next q mark).bind _ = _
    rw [hmark]
    exact hrest

/-- What one monitor accepts, another one accepts that follows its states. -/
theorem run_map {κ' : Type} (m' : Monitor κ' ε) (f : κ → κ')
    (hstep : ∀ q e p, m.next q e = some p → m'.next (f q) e = some (f p)) :
    ∀ (es : List ε) {q r : κ}, m.run q es = some r → m'.run (f q) es = some (f r)
  | [], q, r, h => by
    obtain rfl := Option.some.inj h
    rfl
  | e :: es, q, r, h => by
    obtain ⟨p, hnext, hrun⟩ := m.run_split_cons h
    rw [m'.run_cons, hstep q e p hnext]
    exact run_map m' f hstep es hrun

/-- A state that is not left without `stops` is not left. -/
theorem run_active {Active : κ → Prop} {stops : ε → Prop}
    (hkeep : ∀ q e p, m.next q e = some p → ¬stops e → Active q → Active p) :
    ∀ (es : List ε) {q r : κ}, m.run q es = some r → Active q → (∀ e ∈ es, ¬stops e) → Active r
  | [], q, r, h, hq, _ => by
    obtain rfl := Option.some.inj h
    exact hq
  | e :: es, q, r, h, hq, hnone => by
    obtain ⟨p, hnext, hrun⟩ := m.run_split_cons h
    obtain ⟨he, hes⟩ := List.forall_mem_cons.mp hnone
    exact run_active hkeep es hrun (hkeep q e p hnext he hq) hes

theorem run_between (Active : κ → Prop) (starts stops : ε → Prop)
    (hstart : ∀ q e p, m.next q e = some p → starts e → ¬Active q ∧ Active p)
    (hkeep : ∀ q e p, m.next q e = some p → ¬stops e → Active q → Active p)
    {q r : κ} {before between after : List ε} {e e' : ε}
    (h : m.run q (before ++ e :: (between ++ e' :: after)) = some r) (he : starts e)
    (he' : starts e') : ∃ s ∈ between, stops s := by
  obtain ⟨p, p', -, hnext, hrest⟩ := m.run_next h
  obtain ⟨u, u', hrun, hnext', -⟩ := m.run_next hrest
  by_contra hnone
  have hactive := m.run_active hkeep between hrun (hstart p e p' hnext he).2
    fun s hs hstop => hnone ⟨s, hs, hstop⟩
  exact (hstart u e' u' hnext' he').1 hactive

end Monitor
