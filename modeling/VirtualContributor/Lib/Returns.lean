import VirtualContributor.Lib.Program

/-!
# Values of programs that can raise

`Returns p Q` says that every value the program returns satisfies `Q`, whatever
the answers are.  The rules follow sequences and loops.  The last section runs
such a program against a function of its calls.
-/

namespace VirtualContributor.Lib.Program

variable {S : Signature} {ε α β : Type}

/-- Every value that the program returns satisfies `Q`. -/
def Returns (p : ExceptT ε (Program S) α) (Q : α → Prop) : Prop :=
  p.run.Yields (fun _ => True) fun r => ∀ a, r = .ok a → Q a

section Rules

variable {p : ExceptT ε (Program S) α} {f : α → ExceptT ε (Program S) β} {P : α → Prop}
  {Q : β → Prop}

theorem returns_pure {a : α} (h : P a) : Returns (pure a : ExceptT ε (Program S) α) P := by
  rintro _ ⟨⟩
  exact h

/-- A computation without calls. -/
theorem returns_of_except {r : Except ε α} (h : ∀ a, r = .ok a → P a) :
    Returns (liftM r : ExceptT ε (Program S) α) P := h

theorem returns_true (p : ExceptT ε (Program S) α) : Returns p fun _ => True :=
  (yields_true p.run).mono (fun _ h => h) fun _ _ _ _ => trivial

theorem Returns.bind (hp : Returns p P) (hf : ∀ a, P a → Returns (f a) Q) :
    Returns (p >>= f) Q := by
  refine Yields.bind hp fun r hr => ?_
  cases r with
  | error exc => exact fun a h => absurd h nofun
  | ok a => exact hf a (hr a rfl)

/-- The loop rule. -/
theorem Returns.foldlM {f : β → α → ExceptT ε (Program S) β} {xs : List α}
    (hf : ∀ b, Q b → ∀ x ∈ xs, Returns (f b x) Q) {b : β} (hb : Q b) :
    Returns (xs.foldlM f b) Q := by
  induction xs generalizing b with
  | nil => exact returns_pure hb
  | cons x xs ih =>
    rw [List.foldlM_cons]
    exact (hf b hb x List.mem_cons_self).bind fun b' hb' =>
      ih (fun b hb x hx => hf b hb x (List.mem_cons_of_mem _ hx)) hb'

theorem Returns.of_runs {σ : Type} {W : World S σ} (h : Returns p P) {s s' : σ}
    {t : List (Event S)} {a : α} (hrun : Runs W p.run s t (.ok a) s') : P a :=
  (Yields.calls h hrun).1 a rfl

end Rules

section Answers

variable (g : (c : S.Call) → S.Answer c)

/-- The result of a program when each call always gets the same answer. -/
def result (p : ExceptT ε (Program S) α) : Except ε α := p.run.answer g

@[simp] theorem result_pure (a : α) :
    result g (pure a : ExceptT ε (Program S) α) = .ok a := rfl

@[simp] theorem result_except (r : Except ε α) :
    result g (liftM r : ExceptT ε (Program S) α) = r := rfl

@[simp] theorem result_bind (p : ExceptT ε (Program S) α) (f : α → ExceptT ε (Program S) β) :
    result g (p >>= f) = result g p >>= fun a => result g (f a) := by
  unfold result
  show (p.run.bind _).answer g = _
  rw [answer_bind]
  cases p.run.answer g with
  | error exc => rfl
  | ok a => rfl

theorem result_foldlM (f : β → α → ExceptT ε (Program S) β) (xs : List α) (b : β) :
    result g (xs.foldlM f b) = xs.foldlM (fun b x => result g (f b x)) b := by
  induction xs generalizing b with
  | nil => rfl
  | cons x xs ih =>
    rw [List.foldlM_cons, List.foldlM_cons, result_bind]
    exact congrArg _ (funext fun b' => ih b')

end Answers

end VirtualContributor.Lib.Program
