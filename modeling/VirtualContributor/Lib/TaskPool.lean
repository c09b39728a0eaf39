import VirtualContributor.Lib.RelyGuarantee
import VirtualContributor.Lib.Retry

/-!
# Any number of tasks on one state

`Pool W tasks s t tasks' s'` interleaves the calls of a list of programs on one
state.  A task may be left anywhere, so a pool also covers tasks that are
cancelled and tasks that start late.

`Pool.sound` carries the rely-guarantee judgement from single tasks to a pool:
when each task keeps its guarantee under the interference of the others, the
pool runs in the world of the guarantee.

The other rules are for the ways tasks are built: retry loops, and programs whose
calls are programs.
-/

namespace VirtualContributor.Lib.Program

variable {S T : Signature} {σ α ε δ : Type}

/-! ## Pools -/

/-- Tasks that make their calls one at a time, in any order. -/
inductive Pool (W : World S σ) :
    List (Program S α) → σ → List (Event S) → List (Program S α) → σ → Prop
  | stop (tasks : List (Program S α)) (s : σ) : Pool W tasks s [] tasks s
  | step {before after tasks' : List (Program S α)} {c : S.Call}
      {next : S.Answer c → Program S α} {r : S.Answer c} {s s₁ s' : σ} {t : List (Event S)} :
      W s c r s₁ → Pool W (before ++ next r :: after) s₁ t tasks' s' →
      Pool W (before ++ .call c next :: after) s (⟨c, r⟩ :: t) tasks' s'

section Pool

variable {W G : World S σ} {R : Interference σ} {Q : α → σ → Prop}
  {tasks tasks' : List (Program S α)} {s s' : σ} {t : List (Event S)}

/-- Tasks that keep a guarantee which is within their interference run in the
world of the guarantee. -/
theorem Pool.sound (hG : ∀ s c r s', G s c r s' → R.step s s') (h : Pool W tasks s t tasks' s')
    (htasks : ∀ p ∈ tasks, p.Ensures W R G Q s) : Pool G tasks s t tasks' s' := by
  induction h with
  | stop tasks s => exact .stop tasks s
  | @step before after tasks' c next r s s₁ s' t hw _ ih =>
    have hcall := htasks (.call c next) (by simp)
    obtain ⟨hg, hnext⟩ := hcall s (R.refl s) r s₁ hw
    refine .step hg (ih ?_)
    intro p hp
    rcases List.mem_append.mp hp with hp | hp
    · exact (htasks p (by simp [hp])).interfere (hG _ _ _ _ hg)
    · rcases List.mem_cons.mp hp with rfl | hp
      · exact hnext
      · exact (htasks p (by simp [hp])).interfere (hG _ _ _ _ hg)

theorem Pool.mono (hG : ∀ s c r s', W s c r s' → G s c r s')
    (h : Pool W tasks s t tasks' s') : Pool G tasks s t tasks' s' := by
  induction h with
  | stop tasks s => exact .stop tasks s
  | step hw _ ih => exact .step (hG _ _ _ _ hw) ih

/-- Where an event of a pool happened. -/
theorem Pool.split {pre post : List (Event S)} {e : Event S}
    (h : Pool W tasks s (pre ++ e :: post) tasks' s') :
    ∃ tasks₁ s₁ s₂, Pool W tasks s pre tasks₁ s₁ ∧ W s₁ e.call e.answer s₂ := by
  induction pre generalizing tasks s with
  | nil =>
    cases h with
    | step hw _ => exact ⟨_, s, _, .stop _ s, hw⟩
  | cons x pre ih =>
    cases h with
    | step hw hrest =>
      obtain ⟨tasks₁, s₁, s₂, hpool, he⟩ := ih hrest
      exact ⟨tasks₁, s₁, s₂, .step hw hpool, he⟩

/-- A task that runs to its end while the others wait. -/
theorem Runs.pool {p : Program S α} {a : α} (before after : List (Program S α))
    (h : Runs W p s t a s') :
    Pool W (before ++ p :: after) s t (before ++ .done a :: after) s' := by
  induction h with
  | done a s => exact .stop _ s
  | call hw _ ih => exact .step hw ih

/-- A program that runs alone runs in the world of its guarantee. -/
theorem Ensures.guarantee {p : Program S α} {a : α} (h : p.Ensures W R G Q s)
    (hrun : Runs W p s t a s') : Runs G p s t a s' := by
  induction hrun with
  | done a s => exact .done a s
  | @call c next s s₁ s' r t a hw _ ih =>
    obtain ⟨hg, hnext⟩ := h s (R.refl s) r s₁ hw
    exact .call hg (ih hnext)

theorem Pool.append {tasks'' : List (Program S α)} {t' : List (Event S)} {s'' : σ}
    (h : Pool W tasks s t tasks' s') (h' : Pool W tasks' s' t' tasks'' s'') :
    Pool W tasks s (t ++ t') tasks'' s'' := by
  induction h with
  | stop tasks s => exact h'
  | step hw _ ih => exact .step hw (ih h')

end Pool

/-! ## Retry loops and programs of calls -/

section Rules

variable {W G : World S σ} {R : Interference σ} {φ : σ → Prop}

theorem ensures_retryFrom (hφ : R.Stable φ) {policy : RetryPolicy ε δ}
    {attempt : Program S (Except ε α)} {pause : Nat → Program S (Except δ Unit)}
    (hattempt : ∀ s, φ s → attempt.Ensures W R G (fun _ s => φ s) s)
    (hpause : ∀ k s, φ s → (pause k).Ensures W R G (fun _ s => φ s) s) (left made : Nat)
    (last : Option ε) {s : σ} (hs : φ s) :
    (retryFrom policy attempt pause left made last).Ensures W R G (fun _ s => φ s) s := by
  induction left generalizing made last s with
  | zero => exact ensures_done hφ hs
  | succ left ih =>
    refine (hattempt s hs).bind fun o s hs => ?_
    cases o with
    | ok a => exact ensures_done hφ hs
    | error e =>
      dsimp only
      cases policy.fatal e with
      | some d => exact ensures_done hφ hs
      | none =>
        dsimp only
        split
        · exact ensures_done hφ hs
        · refine (hpause made s hs).bind fun o s hs => ?_
          cases o with
          | ok u => exact ih (made + 1) (some e) hs
          | error d => exact ensures_done hφ hs

/-- An assertion that attempts and pauses keep is kept by the loop. -/
theorem ensures_retry (hφ : R.Stable φ) {policy : RetryPolicy ε δ}
    {attempt : Program S (Except ε α)} {pause : Nat → Program S (Except δ Unit)}
    (hattempt : ∀ s, φ s → attempt.Ensures W R G (fun _ s => φ s) s)
    (hpause : ∀ k s, φ s → (pause k).Ensures W R G (fun _ s => φ s) s) (n : Nat) {s : σ}
    (hs : φ s) : (retry policy attempt pause n).Ensures W R G (fun _ s => φ s) s :=
  ensures_retryFrom hφ hattempt hpause n 0 none hs

/-- An assertion that each call keeps is kept by every program of these calls. -/
theorem ensures_expand {W G : World T σ} (hφ : R.Stable φ)
    {h : (c : S.Call) → Program T (S.Answer c)}
    (hh : ∀ c s, φ s → (h c).Ensures W R G (fun _ s => φ s) s) (p : Program S α) {s : σ}
    (hs : φ s) : (p.expand h).Ensures W R G (fun _ s => φ s) s := by
  induction p generalizing s with
  | done a => exact ensures_done hφ hs
  | call c next ih =>
    rw [expand_call]
    exact (hh c s hs).bind fun r s hs => ih r hs

end Rules

end VirtualContributor.Lib.Program
