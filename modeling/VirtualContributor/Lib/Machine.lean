import Mathlib.Data.List.Basic

/-!
# Machines

A state machine with named events.  An event that a state does not allow has
no next state.  `Reachable` collects the states of all runs, in any order of the
allowed events, and `Reachable.invariant` is the induction over them.  `exists_done` is for machines
that come to an end.
-/

namespace VirtualContributor.Lib

structure Machine (σ ε : Type) where
  init : σ
  step : σ → ε → Option σ

namespace Machine

variable {σ ε : Type} {M : Machine σ ε}

/-- The states of the runs of the machine. -/
inductive Reachable (M : Machine σ ε) : σ → Prop
  | init : Reachable M M.init
  | step {s s' : σ} {e : ε} : Reachable M s → M.step s e = some s' → Reachable M s'

/-- What holds at first and is kept by every event holds of every run. -/
theorem Reachable.invariant {I : σ → Prop} (hinit : I M.init)
    (hstep : ∀ {s s' e}, I s → M.step s e = some s' → I s') {s : σ} (h : M.Reachable s) : I s := by
  induction h with
  | init => exact hinit
  | step _ he ih => exact hstep ih he

/-- The state after a list of events, if each is allowed in its turn. -/
def after (M : Machine σ ε) (s : σ) (events : List ε) : Option σ := events.foldlM M.step s

theorem Reachable.after {s s' : σ} (h : M.Reachable s) {events : List ε}
    (hevents : M.after s events = some s') : M.Reachable s' := by
  induction events generalizing s with
  | nil => exact Option.some.inj hevents ▸ h
  | cons e events ih =>
    obtain ⟨s₁, hstep, hrest⟩ := Option.bind_eq_some_iff.mp hevents
    exact ih (.step h hstep) hrest

/-- A machine that goes on to a smaller state until it is done gets done. -/
theorem exists_done {done : σ → Prop} (size : σ → Nat)
    (hstep : ∀ s, M.Reachable s → done s ∨ ∃ e s', M.step s e = some s' ∧ size s' < size s) :
    ∃ s, M.Reachable s ∧ done s := by
  have hall : ∀ n s, M.Reachable s → size s ≤ n → ∃ s', M.Reachable s' ∧ done s' := by
    intro n
    induction n with
    | zero =>
      intro s hs hn
      obtain hdone | ⟨_, _, _, hlt⟩ := hstep s hs
      · exact ⟨s, hs, hdone⟩
      · omega
    | succ n ih =>
      intro s hs hn
      obtain hdone | ⟨_, s', he, hlt⟩ := hstep s hs
      · exact ⟨s, hs, hdone⟩
      · exact ih s' (.step hs he) (by omega)
  exact hall _ _ .init (Nat.le_refl _)

end Machine

end VirtualContributor.Lib
