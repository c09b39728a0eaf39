import VirtualContributor.Lib.Program

/-!
# Implementing an interface by programs of another

`Implements W h W' abs` says that the programs `h`, which make calls of one
world, do what the calls of another world may do, with `abs` from the states of
the first to those of the second.  A program that is stopped in the middle must
have left what its call may leave with some answer.

`Implements.runs` and `Implements.reaches` carry this from single calls to
every program.
-/

namespace VirtualContributor.Lib.Program

variable {S T : Signature} {σ τ α β : Type}

/-- A sequence is stopped in its first part, or in its second part after the
first has ended. -/
theorem reaches_bind_iff {W : World S σ} {p : Program S α} {f : α → Program S β} {s s' : σ} :
    Reaches W (p.bind f) s s' ↔
      Reaches W p s s' ∨ ∃ a s₁ t, Runs W p s t a s₁ ∧ Reaches W (f a) s₁ s' := by
  induction p generalizing s with
  | done a =>
    constructor
    · intro h
      exact Or.inr ⟨a, s, [], .done a s, h⟩
    · intro h
      rcases h with h | h
      · cases h
        exact .stop _ _
      · obtain ⟨b, s₁, t, hrun, h⟩ := h
        obtain ⟨rfl, rfl, rfl⟩ := runs_done_iff.mp hrun
        exact h
  | call c next ih =>
    constructor
    · intro h
      cases h with
      | stop => exact Or.inl (.stop _ _)
      | call hw h =>
        rcases (ih _).mp h with h | h
        · exact Or.inl (.call hw h)
        · obtain ⟨a, s₁, t, hrun, h⟩ := h
          exact Or.inr ⟨a, s₁, _, .call hw hrun, h⟩
    · intro h
      rcases h with h | h
      · cases h with
        | stop => exact .stop _ _
        | call hw h => exact .call hw ((ih _).mpr (Or.inl h))
      · obtain ⟨a, s₁, t, hrun, h⟩ := h
        cases hrun with
        | call hw hrun => exact .call hw ((ih _).mpr (Or.inr ⟨a, s₁, _, hrun, h⟩))

/-- The calls of an expanded program are those that the programs of its calls
make. -/
theorem Yields.expand {ok : S.Call → Prop} {ok' : T.Call → Prop} {Q : α → Prop}
    {h : (c : S.Call) → Program T (S.Answer c)} {p : Program S α} (hp : p.Yields ok Q)
    (hh : ∀ c, ok c → (h c).Yields ok' fun _ => True) : (p.expand h).Yields ok' Q := by
  induction p with
  | done a => exact hp
  | call c next ih =>
    rw [expand_call]
    exact Yields.bind (hh c hp.1) fun r _ => ih r (hp.2 r)

/-- The programs `h` do what the calls of `W'` may do. -/
structure Implements (W : World T σ) (h : (c : S.Call) → Program T (S.Answer c))
    (W' : World S τ) (abs : σ → τ) : Prop where
  completed : ∀ c s t r s', Runs W (h c) s t r s' → W' (abs s) c r (abs s')
  stopped : ∀ c s s', Reaches W (h c) s s' → ∃ r, W' (abs s) c r (abs s')

section Implements

variable {W : World T σ} {h : (c : S.Call) → Program T (S.Answer c)} {W' : World S τ}
  {abs : σ → τ} {p : Program S α} {s s' : σ}

/-- A run of the expanded program is a run of the program in the world that is
implemented. -/
theorem Implements.runs (hi : Implements W h W' abs) {t : List (Event T)} {a : α}
    (hr : Runs W (p.expand h) s t a s') : ∃ u, Runs W' p (abs s) u a (abs s') := by
  induction p generalizing s t with
  | done b =>
    obtain ⟨_, rfl, rfl⟩ := runs_done_iff.mp hr
    exact ⟨[], .done a (abs s')⟩
  | call c next ih =>
    obtain ⟨r, s₁, t₁, t₂, _, hcall, hrest⟩ := runs_bind_iff.mp hr
    obtain ⟨u, hu⟩ := ih r hrest
    exact ⟨⟨c, r⟩ :: u, .call (hi.completed c s t₁ r s₁ hcall) hu⟩

/-- Where the expanded program can be stopped the program can be stopped. -/
theorem Implements.reaches (hi : Implements W h W' abs) (hr : Reaches W (p.expand h) s s') :
    Reaches W' p (abs s) (abs s') := by
  induction p generalizing s with
  | done b =>
    cases hr
    exact .stop _ _
  | call c next ih =>
    rcases reaches_bind_iff.mp hr with hstop | hlater
    · obtain ⟨r, hw⟩ := hi.stopped c s s' hstop
      exact .call hw (.stop _ _)
    · obtain ⟨r, s₁, t, hcall, hrest⟩ := hlater
      exact .call (hi.completed c s t r s₁ hcall) (ih r hrest)

end Implements

end VirtualContributor.Lib.Program
