import VirtualContributor.Lib.Implementation

/-!
# Bounded retries

`retry policy attempt pause n` runs `attempt` up to `n` times.  A failure that
the policy calls fatal ends the loop with the error that the policy gives for
it.  After any other failure but the last one the loop runs `pause k`, where
`k` counts the attempts from zero, and a pause may end the loop as well.

`runs_retry_iff` says which runs such a loop has: some failed attempts with
their pauses (`Retries`) and then one last attempt (`LastAttempt`).
`Reaches.retry` and `Runs.of_retry` are the rules for an invariant that attempts
and pauses keep wherever they are stopped.  `Runs.retry_single` gives the trace
of a loop whose attempts and pauses are single calls.
-/

namespace VirtualContributor.Lib.Program

/-- What a retry loop does with failures: the error that a failure is raised as
when it is not retried, and the error raised when no attempt is left. -/
structure RetryPolicy (ε δ : Type) where
  fatal : ε → Option δ
  exhausted : Option ε → δ

variable {S : Signature} {σ α ε δ : Type}

/-- The loop with `left` attempts left, after `made` attempts of which `last`
is the latest failure. -/
def retryFrom (policy : RetryPolicy ε δ) (attempt : Program S (Except ε α))
    (pause : Nat → Program S (Except δ Unit)) :
    (left made : Nat) → (last : Option ε) → Program S (Except δ α)
  | 0, _, last => done (.error (policy.exhausted last))
  | left + 1, made, _ => attempt.bind fun
    | .ok a => done (.ok a)
    | .error e =>
      match policy.fatal e with
      | some d => done (.error d)
      | none =>
        if left = 0 then done (.error (policy.exhausted (some e)))
        else (pause made).bind fun
          | .ok _ => retryFrom policy attempt pause left (made + 1) (some e)
          | .error d => done (.error d)

/-- Try up to `n` times. -/
def retry (policy : RetryPolicy ε δ) (attempt : Program S (Except ε α))
    (pause : Nat → Program S (Except δ Unit)) (n : Nat) : Program S (Except δ α) :=
  retryFrom policy attempt pause n 0 none

section Runs

variable {W : World S σ} {policy : RetryPolicy ε δ} {attempt : Program S (Except ε α)}
  {pause : Nat → Program S (Except δ Unit)}

/-- The attempts `made`, …, `made + k - 1` failed in a way that is retried, and
the pause after each of them ended. -/
inductive Retries (W : World S σ) (policy : RetryPolicy ε δ) (attempt : Program S (Except ε α))
    (pause : Nat → Program S (Except δ Unit)) :
    (made k : Nat) → σ → List (Event S) → σ → Prop
  | none (made : Nat) (s : σ) : Retries W policy attempt pause made 0 s [] s
  | again {made k : Nat} {s s₁ s₂ s' : σ} {e : ε} {t₁ t₂ t : List (Event S)} :
      Runs W attempt s t₁ (.error e) s₁ → policy.fatal e = .none →
      Runs W (pause made) s₁ t₂ (.ok ()) s₂ →
      Retries W policy attempt pause (made + 1) k s₂ t s' →
      Retries W policy attempt pause made (k + 1) s (t₁ ++ t₂ ++ t) s'

/-- How the loop ends with attempt number `k` of `n`. -/
inductive LastAttempt (W : World S σ) (policy : RetryPolicy ε δ)
    (attempt : Program S (Except ε α)) (pause : Nat → Program S (Except δ Unit)) (n k : Nat) :
    σ → List (Event S) → Except δ α → σ → Prop
  | success {s s' : σ} {t : List (Event S)} {a : α} :
      Runs W attempt s t (.ok a) s' → LastAttempt W policy attempt pause n k s t (.ok a) s'
  | fatal {s s' : σ} {t : List (Event S)} {e : ε} {d : δ} :
      Runs W attempt s t (.error e) s' → policy.fatal e = some d →
      LastAttempt W policy attempt pause n k s t (.error d) s'
  | exhausted {s s' : σ} {t : List (Event S)} {e : ε} :
      Runs W attempt s t (.error e) s' → policy.fatal e = .none → k + 1 = n →
      LastAttempt W policy attempt pause n k s t (.error (policy.exhausted (some e))) s'
  | stopped {s s₁ s' : σ} {t₁ t₂ : List (Event S)} {e : ε} {d : δ} :
      Runs W attempt s t₁ (.error e) s₁ → policy.fatal e = .none → k + 1 < n →
      Runs W (pause k) s₁ t₂ (.error d) s' →
      LastAttempt W policy attempt pause n k s (t₁ ++ t₂) (.error d) s'

theorem runs_retryFrom_succ_iff {left made : Nat} {last : Option ε} {s s' : σ}
    {t : List (Event S)} {r : Except δ α} :
    Runs W (retryFrom policy attempt pause (left + 1) made last) s t r s' ↔
      LastAttempt W policy attempt pause (made + left + 1) made s t r s' ∨
      ∃ e s₁ s₂ t₁ t₂ t₃, 0 < left ∧ t = t₁ ++ t₂ ++ t₃ ∧ Runs W attempt s t₁ (.error e) s₁ ∧
        policy.fatal e = .none ∧ Runs W (pause made) s₁ t₂ (.ok ()) s₂ ∧
        Runs W (retryFrom policy attempt pause left (made + 1) (some e)) s₂ t₃ r s' := by
  rw [retryFrom, runs_bind_iff]
  constructor
  · intro h
    obtain ⟨o, s₁, t₁, t₂, rfl, hattempt, hrest⟩ := h
    cases o with
    | ok a =>
      obtain ⟨rfl, rfl, rfl⟩ := runs_done_iff.mp hrest
      rw [List.append_nil]
      exact Or.inl (.success hattempt)
    | error e =>
      simp only at hrest
      cases hfatal : policy.fatal e with
      | some d =>
        simp only [hfatal] at hrest
        obtain ⟨rfl, rfl, rfl⟩ := runs_done_iff.mp hrest
        rw [List.append_nil]
        exact Or.inl (.fatal hattempt hfatal)
      | none =>
        simp only [hfatal] at hrest
        by_cases hleft : left = 0
        · rw [if_pos hleft] at hrest
          obtain ⟨rfl, rfl, rfl⟩ := runs_done_iff.mp hrest
          rw [List.append_nil]
          exact Or.inl (.exhausted hattempt hfatal (by omega))
        · rw [if_neg hleft] at hrest
          obtain ⟨o, s₂, t₃, t₄, rfl, hpause, hlater⟩ := runs_bind_iff.mp hrest
          cases o with
          | ok u =>
            exact Or.inr ⟨e, s₁, s₂, t₁, t₃, t₄, by omega, (List.append_assoc ..).symm, hattempt,
              hfatal, hpause, hlater⟩
          | error d =>
            obtain ⟨rfl, rfl, rfl⟩ := runs_done_iff.mp hlater
            rw [List.append_nil]
            exact Or.inl (.stopped hattempt hfatal (by omega) hpause)
  · intro h
    rcases h with h | h
    · cases h with
      | success hattempt => exact ⟨_, _, _, [], by simp, hattempt, .done _ _⟩
      | fatal hattempt hfatal =>
        refine ⟨_, _, _, [], by simp, hattempt, ?_⟩
        simp only [hfatal]
        exact .done _ _
      | exhausted hattempt hfatal hn =>
        refine ⟨_, _, _, [], by simp, hattempt, ?_⟩
        simp only [hfatal]
        rw [if_pos (by omega)]
        exact .done _ _
      | stopped hattempt hfatal hn hpause =>
        refine ⟨_, _, _, _, rfl, hattempt, ?_⟩
        simp only [hfatal]
        rw [if_neg (by omega), runs_bind_iff]
        exact ⟨_, _, _, [], by simp, hpause, .done _ _⟩
    · obtain ⟨e, s₁, s₂, t₁, t₂, t₃, hleft, rfl, hattempt, hfatal, hpause, hlater⟩ := h
      refine ⟨_, _, t₁, t₂ ++ t₃, List.append_assoc .., hattempt, ?_⟩
      simp only [hfatal]
      rw [if_neg (by omega), runs_bind_iff]
      exact ⟨_, _, t₂, t₃, rfl, hpause, hlater⟩

theorem runs_retryFrom_iff {left made : Nat} {last : Option ε} {s s' : σ} {t : List (Event S)}
    {r : Except δ α} :
    Runs W (retryFrom policy attempt pause (left + 1) made last) s t r s' ↔
      ∃ k s₁ t₁ t₂, k ≤ left ∧ t = t₁ ++ t₂ ∧ Retries W policy attempt pause made k s t₁ s₁ ∧
        LastAttempt W policy attempt pause (made + left + 1) (made + k) s₁ t₂ r s' := by
  induction left generalizing made last s t with
  | zero =>
    rw [runs_retryFrom_succ_iff]
    constructor
    · intro h
      rcases h with h | ⟨_, _, _, _, _, _, h, _⟩
      · exact ⟨0, s, [], t, Nat.le_refl 0, rfl, .none made s, h⟩
      · omega
    · intro h
      obtain ⟨k, s₁, t₁, t₂, hk, rfl, hretries, hlast⟩ := h
      obtain rfl : k = 0 := by omega
      cases hretries
      exact Or.inl hlast
  | succ left ih =>
    rw [runs_retryFrom_succ_iff]
    have hcount : made + (left + 1) + 1 = made + 1 + left + 1 := by omega
    constructor
    · intro h
      rcases h with h | h
      · exact ⟨0, s, [], t, Nat.zero_le _, rfl, .none made s, h⟩
      · obtain ⟨e, s₁, s₂, t₁, t₂, t₃, _, rfl, hattempt, hfatal, hpause, hlater⟩ := h
        obtain ⟨k, s₃, t₄, t₅, hk, rfl, hretries, hlast⟩ := ih.mp hlater
        refine ⟨k + 1, s₃, t₁ ++ t₂ ++ t₄, t₅, by omega, by simp,
          .again hattempt hfatal hpause hretries, ?_⟩
        rw [hcount, Nat.add_comm k 1, ← Nat.add_assoc]
        exact hlast
    · intro h
      obtain ⟨k, s₁, t₁, t₂, hk, rfl, hretries, hlast⟩ := h
      cases hretries with
      | none => exact Or.inl hlast
      | @again _ k _ s₂ s₃ _ e t₃ t₄ t₅ hattempt hfatal hpause hretries =>
        refine Or.inr ⟨e, s₂, s₃, t₃, t₄, t₅ ++ t₂, by omega, by simp, hattempt, hfatal, hpause,
          ih.mpr ⟨k, s₁, t₅, t₂, by omega, rfl, hretries, ?_⟩⟩
        rw [hcount, Nat.add_comm k 1, ← Nat.add_assoc] at hlast
        exact hlast

/-- The runs of a loop with at least one attempt. -/
theorem runs_retry_iff {n : Nat} (hn : 0 < n) {s s' : σ} {t : List (Event S)}
    {r : Except δ α} :
    Runs W (retry policy attempt pause n) s t r s' ↔
      ∃ k s₁ t₁ t₂, k < n ∧ t = t₁ ++ t₂ ∧ Retries W policy attempt pause 0 k s t₁ s₁ ∧
        LastAttempt W policy attempt pause n k s₁ t₂ r s' := by
  obtain ⟨n, rfl⟩ : ∃ m, n = m + 1 := ⟨n - 1, by omega⟩
  rw [retry, runs_retryFrom_iff]
  simp only [Nat.zero_add, Nat.lt_succ_iff]

/-- Whatever a retried attempt and its pause keep holds after all of them. -/
theorem Retries.preserves {I : σ → Prop} {made k : Nat} {s s' : σ} {t : List (Event S)}
    (h : Retries W policy attempt pause made k s t s')
    (hattempt : ∀ s t e s', I s → Runs W attempt s t (.error e) s' → I s')
    (hpause : ∀ j s t s', I s → Runs W (pause j) s t (.ok ()) s' → I s') (hs : I s) : I s' := by
  induction h with
  | none made s => exact hs
  | again hrun _ hwait _ ih => exact ih (hpause _ _ _ _ (hattempt _ _ _ _ hs hrun) hwait)

/-- An invariant that attempts and pauses keep wherever they are stopped holds
wherever the loop is stopped. -/
theorem Reaches.retryFrom {I : σ → Prop} (hattempt : ∀ s s', I s → Reaches W attempt s s' → I s')
    (hpause : ∀ k s s', I s → Reaches W (pause k) s s' → I s') {left made : Nat}
    {last : Option ε} {s s' : σ}
    (h : Reaches W (retryFrom policy attempt pause left made last) s s') (hs : I s) : I s' := by
  induction left generalizing made last s with
  | zero =>
    cases h
    exact hs
  | succ left ih =>
    rw [Program.retryFrom] at h
    rcases reaches_bind_iff.mp h with h | h
    · exact hattempt _ _ hs h
    · obtain ⟨o, s₁, t, hrun, h⟩ := h
      have hs₁ : I s₁ := hattempt _ _ hs hrun.reaches
      cases o with
      | ok a =>
        cases h
        exact hs₁
      | error e =>
        simp only at h
        cases hfatal : policy.fatal e with
        | some d =>
          simp only [hfatal] at h
          cases h
          exact hs₁
        | none =>
          simp only [hfatal] at h
          split at h
          · cases h
            exact hs₁
          · rcases reaches_bind_iff.mp h with h | h
            · exact hpause _ _ _ hs₁ h
            · obtain ⟨o, s₂, t, hrun, h⟩ := h
              have hs₂ : I s₂ := hpause _ _ _ hs₁ hrun.reaches
              cases o with
              | ok u => exact ih h hs₂
              | error d =>
                cases h
                exact hs₂

theorem Reaches.retry {I : σ → Prop} (hattempt : ∀ s s', I s → Reaches W attempt s s' → I s')
    (hpause : ∀ k s s', I s → Reaches W (pause k) s s' → I s') {n : Nat} {s s' : σ}
    (h : Reaches W (retry policy attempt pause n) s s') (hs : I s) : I s' :=
  Reaches.retryFrom hattempt hpause h hs

/-- The value of a loop is the value of an attempt that starts where the
invariant holds. -/
theorem Runs.of_retry {I : σ → Prop} (hattempt : ∀ s s', I s → Reaches W attempt s s' → I s')
    (hpause : ∀ k s s', I s → Reaches W (pause k) s s' → I s') {n : Nat} (hn : 0 < n) {s s' : σ}
    {t : List (Event S)} {a : α} (h : Runs W (retry policy attempt pause n) s t (.ok a) s')
    (hs : I s) : ∃ s₁ t₁, I s₁ ∧ Runs W attempt s₁ t₁ (.ok a) s' := by
  obtain ⟨k, s₁, t₁, t₂, _, _, hretries, hlast⟩ := (runs_retry_iff hn).mp h
  cases hlast with
  | success hrun =>
    refine ⟨s₁, t₂, hretries.preserves ?_ ?_ hs, hrun⟩
    · intro s t e s' hs hrun
      exact hattempt _ _ hs hrun.reaches
    · intro j s t s' hs hrun
      exact hpause _ _ _ hs hrun.reaches

end Runs

/-! ## Attempts of one call -/

section Single

/-- The program that makes one call and reads its answer. -/
def single (c : S.Call) (f : S.Answer c → α) : Program S α := call c fun x => done (f x)

theorem runs_single_iff {W : World S σ} {c : S.Call} {f : S.Answer c → α} {s s' : σ}
    {t : List (Event S)} {a : α} :
    Runs W (single c f) s t a s' ↔ ∃ x, W s c x s' ∧ t = [⟨c, x⟩] ∧ a = f x := by
  rw [single, runs_call_iff]
  constructor
  · intro h
    obtain ⟨x, s₁, t', hw, rfl, h⟩ := h
    obtain ⟨rfl, rfl, rfl⟩ := runs_done_iff.mp h
    exact ⟨x, hw, rfl, rfl⟩
  · intro h
    obtain ⟨x, hw, rfl, rfl⟩ := h
    exact ⟨x, s', [], hw, rfl, .done _ _⟩

variable {c : S.Call} {p : Nat → S.Call}

/-- The calls of some failed attempts and of the pauses between them. -/
def ladder (fail : ε → S.Answer c) (slept : (k : Nat) → S.Answer (p k)) :
    Nat → List ε → List (Event S)
  | _, [] => []
  | k, e :: es => ⟨c, fail e⟩ :: ⟨p k, slept k⟩ :: ladder fail slept (k + 1) es

variable {W : World S σ} {policy : RetryPolicy ε δ} {f : S.Answer c → Except ε α}
  {g : (k : Nat) → S.Answer (p k) → Except δ Unit}

theorem Retries.ladder (fail : ε → S.Answer c) (slept : (k : Nat) → S.Answer (p k))
    (hf : ∀ x e, f x = .error e → x = fail e) (hg : ∀ k y, g k y = .ok () → y = slept k)
    {made k : Nat} {s s' : σ} {t : List (Event S)}
    (h : Retries W policy (single c f) (fun k => single (p k) (g k)) made k s t s') :
    ∃ es : List ε, es.length = k ∧ (∀ e ∈ es, policy.fatal e = .none) ∧
      t = Program.ladder fail slept made es := by
  induction h with
  | none => exact ⟨[], rfl, by simp, rfl⟩
  | @again made k s s₁ s₂ s' e t₁ t₂ t hrun hfatal hwait _ ih =>
    obtain ⟨es, hlength, hes, rfl⟩ := ih
    obtain ⟨x, _, rfl, hx⟩ := runs_single_iff.mp hrun
    obtain ⟨y, _, rfl, hy⟩ := runs_single_iff.mp hwait
    rw [hf x e hx.symm, hg made y hy.symm]
    refine ⟨e :: es, by simp [hlength], ?_, rfl⟩
    intro e' he'
    rcases List.mem_cons.mp he' with rfl | he'
    · exact hfatal
    · exact hes e' he'

/-- How a loop whose attempts are single calls ends. -/
inductive Ending (policy : RetryPolicy ε δ) (f : S.Answer c → Except ε α)
    (g : (k : Nat) → S.Answer (p k) → Except δ Unit) (fail : ε → S.Answer c) (n k : Nat) :
    List (Event S) → Except δ α → Prop
  | success {x : S.Answer c} {a : α} : f x = .ok a →
      Ending policy f g fail n k [⟨c, x⟩] (.ok a)
  | fatal {e : ε} {d : δ} : policy.fatal e = some d →
      Ending policy f g fail n k [⟨c, fail e⟩] (.error d)
  | exhausted {e : ε} : policy.fatal e = none → k + 1 = n →
      Ending policy f g fail n k [⟨c, fail e⟩] (.error (policy.exhausted (some e)))
  | stopped {e : ε} {y : S.Answer (p k)} {d : δ} : policy.fatal e = none → k + 1 < n →
      g k y = .error d → Ending policy f g fail n k [⟨c, fail e⟩, ⟨p k, y⟩] (.error d)

/-- The trace of a loop whose attempts are single calls: the failures that are
retried with the pauses after them, and the ending. -/
theorem Runs.retry_single (fail : ε → S.Answer c) (slept : (k : Nat) → S.Answer (p k))
    (hf : ∀ x e, f x = .error e → x = fail e) (hg : ∀ k y, g k y = .ok () → y = slept k)
    {n : Nat} (hn : 0 < n) {s s' : σ}
    {t : List (Event S)} {r : Except δ α}
    (h : Runs W (retry policy (single c f) (fun k => single (p k) (g k)) n) s t r s') :
    ∃ (es : List ε) (tail : List (Event S)), es.length < n ∧
      (∀ e ∈ es, policy.fatal e = none) ∧ t = Program.ladder fail slept 0 es ++ tail ∧
      Ending policy f g fail n es.length tail r := by
  obtain ⟨k, s₁, t₁, t₂, hk, rfl, hretries, hlast⟩ := (runs_retry_iff hn).mp h
  obtain ⟨es, rfl, hes, rfl⟩ := hretries.ladder fail slept hf hg
  refine ⟨es, t₂, hk, hes, rfl, ?_⟩
  cases hlast with
  | success hrun =>
    obtain ⟨x, _, rfl, hx⟩ := runs_single_iff.mp hrun
    exact .success hx.symm
  | fatal hrun hfatal =>
    obtain ⟨x, _, rfl, hx⟩ := runs_single_iff.mp hrun
    rw [hf x _ hx.symm]
    exact .fatal hfatal
  | exhausted hrun hfatal hn =>
    obtain ⟨x, _, rfl, hx⟩ := runs_single_iff.mp hrun
    rw [hf x _ hx.symm]
    exact .exhausted hfatal hn
  | stopped hrun hfatal hn hpause =>
    obtain ⟨x, _, rfl, hx⟩ := runs_single_iff.mp hrun
    obtain ⟨y, _, rfl, hy⟩ := runs_single_iff.mp hpause
    rw [hf x _ hx.symm]
    exact .stopped hfatal hn hy.symm

end Single

end VirtualContributor.Lib.Program
