import Mathlib.Data.List.TakeWhile
import KaflTargets.Lib.Prog

/-!
# A loop that is fed inputs

A loop takes one input a round and does with it what a `Conduct` says: it adds events to a
history, and either goes on or stops the whole program. `campaign` is what happens to a list of
inputs. A loop whose rounds follow the conduct runs the campaign of the inputs it is fed
(`run_iter_campaign`), which is that of the inputs before the first one that stops, and of that
one (`campaign_eq`).
-/

/-- What is done with an input: the events it adds, and why the program stops, if it does. -/
structure Conduct (η ε : Type) where
  events : List η
  stop : Option ε

/-- The inputs one after the other, until one stops: the events, and why the program stopped.
Without a reason of its own it stops with `timeout`, when the inputs are used up. -/
def campaign {π η ε : Type} (conduct : π → Conduct η ε) (timeout : ε) : List π → List η × ε
  | [] => ([], timeout)
  | input :: inputs =>
    match (conduct input).stop with
    | some e => ((conduct input).events, e)
    | none =>
      ((conduct input).events ++ (campaign conduct timeout inputs).1,
        (campaign conduct timeout inputs).2)

section

variable {π η ε σ : Type} {conduct : π → Conduct η ε} {timeout : ε}

theorem campaign_go {input : π} (h : (conduct input).stop = none) (inputs : List π) :
    campaign conduct timeout (input :: inputs) =
      ((conduct input).events ++ (campaign conduct timeout inputs).1,
        (campaign conduct timeout inputs).2) := by
  rw [campaign, h]

theorem campaign_stop {input : π} {e : ε} (h : (conduct input).stop = some e) (inputs : List π) :
    campaign conduct timeout (input :: inputs) = ((conduct input).events, e) := by
  rw [campaign, h]

/-- The inputs before the first one that stops, and that one. -/
theorem campaign_eq (inputs : List π) :
    campaign conduct timeout inputs =
      ((inputs.takeWhile fun input => (conduct input).stop.isNone).flatMap
            (fun input => (conduct input).events) ++
          ((inputs.find? fun input => (conduct input).stop.isSome).elim []
            fun input => (conduct input).events),
        ((inputs.find? fun input => (conduct input).stop.isSome).bind
          fun input => (conduct input).stop).getD timeout) := by
  induction inputs with
  | nil => rfl
  | cons input inputs ih =>
    cases hstop : (conduct input).stop with
    | some e => simp [campaign_stop hstop, hstop]
    | none => simp [campaign_go hstop, hstop, ih]

theorem campaign_benign {inputs : List π} (h : ∀ input ∈ inputs, (conduct input).stop = none) :
    campaign conduct timeout inputs =
      (inputs.flatMap fun input => (conduct input).events, timeout) := by
  have hnone : inputs.find? (fun input => (conduct input).stop.isSome) = none := by
    rw [List.find?_eq_none]
    intro input hinput
    simp [h input hinput]
  have hall : inputs.takeWhile (fun input => (conduct input).stop.isNone) = inputs := by
    rw [List.takeWhile_eq_self_iff]
    intro input hinput
    simp [h input hinput]
  rw [campaign_eq, hnone, hall]
  simp

/-- From the state `s`, the program does what `c` says: it stops, or it ends with the value `a` in
a state of `Q`. -/
def Prog.Performs {α : Type} (hist : σ → List η) (c : Conduct η ε) (x : Prog ε σ α) (s : σ)
    (a : α) (Q : σ → Prop) : Prop :=
  ∃ t, hist t = hist s ++ c.events ∧
    match c.stop with
    | none => x.run s = (.ok a, t) ∧ Q t
    | some e => x.run s = (.error e, t)

section Performs

variable {α : Type} {hist : σ → List η} {c : Conduct η ε} {x : Prog ε σ α} {s t : σ} {a : α}
  {Q : σ → Prop} {e : ε}

theorem Prog.Performs.of_go (hstop : c.stop = none) (hrun : x.run s = (.ok a, t)) (hQ : Q t)
    (hhist : hist t = hist s ++ c.events) : Prog.Performs hist c x s a Q := by
  refine ⟨t, hhist, ?_⟩
  rw [hstop]
  exact ⟨hrun, hQ⟩

theorem Prog.Performs.of_halt (hstop : c.stop = some e) (hrun : x.run s = (.error e, t))
    (hhist : hist t = hist s ++ c.events) : Prog.Performs hist c x s a Q := by
  refine ⟨t, hhist, ?_⟩
  rw [hstop]
  exact hrun

theorem Prog.Performs.go (h : Prog.Performs hist c x s a Q) (hstop : c.stop = none) :
    ∃ t, x.run s = (.ok a, t) ∧ Q t ∧ hist t = hist s ++ c.events := by
  obtain ⟨t, hhist, hrun⟩ := h
  rw [hstop] at hrun
  exact ⟨t, hrun.1, hrun.2, hhist⟩

theorem Prog.Performs.halt (h : Prog.Performs hist c x s a Q) (hstop : c.stop = some e) :
    ∃ t, x.run s = (.error e, t) ∧ hist t = hist s ++ c.events := by
  obtain ⟨t, hhist, hrun⟩ := h
  rw [hstop] at hrun
  exact ⟨t, hrun, hhist⟩

end Performs

/-- A loop in which the head of round `k` is a state of `At k`, and the round does with the
input `k` what the conduct says. -/
theorem Prog.run_iter_campaign (conduct : π → Conduct η ε) (hist : σ → List η)
    (At : Nat → σ → Prop) {inputs : Nat → π} {body : Unit → Prog ε σ (Unit ⊕ Unit)}
    (hround : ∀ k s, At k s →
      Prog.Performs hist (conduct (inputs k)) (body ()) s (.inl ()) (At (k + 1))) :
    ∀ (n : Nat) {k : Nat} {s : σ}, At k s →
      ∃ t, (Prog.iter timeout body n ()).run s =
          (.error (campaign conduct timeout ((List.range' k n).map inputs)).2, t) ∧
        hist t = hist s ++ (campaign conduct timeout ((List.range' k n).map inputs)).1 := by
  intro n
  induction n with
  | zero => exact fun {k s} _ => ⟨s, rfl, (List.append_nil _).symm⟩
  | succ n ih =>
    intro k s hs
    have hstep := hround k s hs
    rw [List.range'_succ, List.map_cons]
    cases hstop : (conduct (inputs k)).stop with
    | some e =>
      obtain ⟨t, hrun, hhist⟩ := hstep.halt hstop
      rw [campaign_stop hstop]
      exact ⟨t, Prog.run_iter_stop hrun, hhist⟩
    | none =>
      obtain ⟨t, hrun, hat, hhist⟩ := hstep.go hstop
      obtain ⟨u, hrest, hlast⟩ := ih hat
      rw [campaign_go hstop]
      refine ⟨u, (Prog.run_iter_again hrun).trans hrest, ?_⟩
      rw [hlast, hhist, List.append_assoc]

end
