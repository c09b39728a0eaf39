import VirtualContributor.Lib.FailStop
import VirtualContributor.Lib.RelyGuarantee

/-!
# Rely-guarantee rules for programs that can raise

`Establishes W R G φ p Q s` is the rely-guarantee judgement of a program that
can raise: every call is a step of `G`, `φ` holds however it ends, and `Q` holds
when it returns a value.  The rules follow sequences, handlers, and programs of
one interface among the calls of two.
-/

namespace VirtualContributor.Lib.Program

variable {S T : Signature} {σ α β ε : Type}

section Establishes

variable {W G : World S σ} {R : Interference σ} {φ : σ → Prop}

/-- Every call of the program is a step of `G`, `φ` holds when it ends, and `Q`
when it returns a value. -/
def Establishes (W : World S σ) (R : Interference σ) (G : World S σ) (φ : σ → Prop)
    (p : ExceptT ε (Program S) α) (Q : α → σ → Prop) (s : σ) : Prop :=
  p.run.Ensures W R G (fun r s => φ s ∧ ∀ a, r = .ok a → Q a s) s

variable {Q : α → σ → Prop} {Q' : β → σ → Prop} {s : σ}

theorem establishes_except (hφ : R.Stable φ) {x : Except ε α} (hQ : ∀ a, R.Stable (Q a))
    (hs : φ s) (h : ∀ a, x = .ok a → Q a s) :
    Establishes W R G φ (liftM x : ExceptT ε (Program S) α) Q s := by
  intro s' hr
  exact ⟨hφ hr hs, fun a ha => hQ a hr (h a ha)⟩

theorem establishes_pure (hφ : R.Stable φ) {a : α} (hQ : R.Stable (Q a)) (hs : φ s) (h : Q a s) :
    Establishes W R G φ (pure a : ExceptT ε (Program S) α) Q s := by
  intro s' hr
  refine ⟨hφ hr hs, fun b hb => ?_⟩
  obtain rfl := Except.ok.inj hb
  exact hQ hr h

/-- One call, made where `ψ` holds. -/
theorem establishes_call (hφ : R.Stable φ) {ψ : σ → Prop} (hψ : R.Stable ψ)
    (hQ : ∀ a, R.Stable (Q a)) {c : S.Call} {f : S.Answer c → Except ε α} (hs : φ s) (hs' : ψ s)
    (h : ∀ s r s', φ s → ψ s → W s c r s' → G s c r s' ∧ φ s' ∧ ∀ a, f r = .ok a → Q a s') :
    Establishes W R G φ (ExceptT.mk (.call c fun r => .done (f r))) Q s := by
  refine ensures_call (hφ.and hψ) ⟨hs, hs'⟩ fun s r s' hs hw => ?_
  obtain ⟨hg, hφs, hvalue⟩ := h s r s' hs.1 hs.2 hw
  refine ⟨hg, fun s'' hr => ⟨hφ hr hφs, fun a ha => hQ a hr (hvalue a ha)⟩⟩

theorem Establishes.bind (hφ : R.Stable φ) {p : ExceptT ε (Program S) α}
    {f : α → ExceptT ε (Program S) β} (hp : Establishes W R G φ p Q s)
    (hf : ∀ a s, φ s → Q a s → Establishes W R G φ (f a) Q' s) :
    Establishes W R G φ (p >>= f) Q' s := by
  refine Ensures.bind hp fun r s hr => ?_
  cases r with
  | ok a => exact hf a s hr.1 (hr.2 a rfl)
  | error exc =>
    intro s' hstep
    exact ⟨hφ hstep hr.1, fun b hb => absurd hb nofun⟩

theorem Establishes.mono {Q' : α → σ → Prop} {p : ExceptT ε (Program S) α}
    (h : Establishes W R G φ p Q s) (hQ : ∀ a s, Q a s → Q' a s) :
    Establishes W R G φ p Q' s :=
  Ensures.mono h fun _ s hr => ⟨hr.1, fun a ha => hQ a s (hr.2 a ha)⟩

/-- A handler keeps what the program establishes of its value. -/
theorem Establishes.attempt (hφ : R.Stable φ) {Q : α → Prop} {critical : ε → Bool}
    {p : ExceptT ε (Program S) α} (h : Establishes W R G φ p (fun a _ => Q a) s) :
    Establishes W R G φ (attempt critical p) (fun o _ => ∀ a, o = some a → Q a) s := by
  refine Ensures.bind h fun r s hr => fun s' hstep => ⟨hφ hstep hr.1, fun o ho a ha => ?_⟩
  subst ha
  cases r with
  | ok b =>
    obtain rfl := Option.some.inj (Except.ok.inj ho)
    exact hr.2 b rfl
  | error exc =>
    have hhandled : (if critical exc then .error exc else .ok none) = Except.ok (some a) := ho
    split at hhandled
    · cases hhandled
    · cases hhandled

theorem Ensures.inLeft {W G : World (S.sum T) σ} {p : Program S α} {Q : α → σ → Prop} {s : σ}
    (h : p.Ensures (World.onLeft W) R (World.onLeft G) Q s) : p.inLeft.Ensures W R G Q s := by
  induction p generalizing s with
  | done a => exact h
  | call c next ih =>
    intro s₁ hr r s₂ hw
    obtain ⟨hg, hnext⟩ := h s₁ hr r s₂ hw
    exact ⟨hg, ih r hnext⟩

theorem Establishes.inLeft {W G : World (S.sum T) σ} {p : ExceptT ε (Program S) α}
    {Q : α → σ → Prop} {s : σ}
    (h : Establishes (World.onLeft W) R (World.onLeft G) φ p Q s) :
    Establishes W R G φ (exceptInLeft p) Q s :=
  Ensures.inLeft h

end Establishes

end VirtualContributor.Lib.Program
