import Mathlib.Data.List.Forall2

/-!
# Computations that may fail

Rules for `Except` computations: what a computation that returned has checked
on its way (`bind_eq_ok`, `forM_eq_ok`, `mapM_eq_ok`), and which errors it can
end with (`FailsOnly`).  A sequence fails only with errors of a kind exactly
when each part does at the point where it is reached; `failsOnly_foldlM` says
this of a loop.
-/

namespace VirtualContributor.Lib

variable {ε α β σ : Type}

theorem bind_eq_ok {x : Except ε α} {f : α → Except ε β} {b : β} :
    (x >>= f) = .ok b ↔ ∃ a, x = .ok a ∧ f a = .ok b := by
  cases x <;> simp [bind, Except.bind]

/-- A check, followed by the rest. -/
theorem check_bind_eq_ok {x : Except ε PUnit} {f : PUnit → Except ε β} {b : β} :
    (x >>= f) = .ok b ↔ x = .ok () ∧ f () = .ok b := by
  rw [bind_eq_ok]
  exact ⟨fun ⟨_, hx, hf⟩ => ⟨hx, hf⟩, fun ⟨hx, hf⟩ => ⟨(), hx, hf⟩⟩

/-- Two sequences agree when the second steps agree on what the first returns. -/
theorem bind_congr_of_ok {x : Except ε α} {f g : α → Except ε β}
    (h : ∀ a, x = .ok a → f a = g a) : (x >>= f) = (x >>= g) := by
  cases x with
  | error e => rfl
  | ok a => exact h a rfl

/-- Checks of the items of a list. -/
theorem forM_eq_ok {f : α → Except ε PUnit} {xs : List α} :
    xs.forM f = .ok () ↔ ∀ x ∈ xs, f x = .ok () := by
  induction xs with
  | nil => simp [pure, Except.pure]
  | cons x xs ih =>
    change (f x >>= fun _ => xs.forM f) = .ok () ↔ _
    rw [check_bind_eq_ok, List.forall_mem_cons, ← ih]

theorem mapM_eq_ok {f : α → Except ε β} {xs : List α} {ys : List β} :
    xs.mapM f = .ok ys ↔ List.Forall₂ (fun x y => f x = .ok y) xs ys := by
  induction xs generalizing ys with
  | nil =>
    rw [List.mapM_nil, List.forall₂_nil_left_iff]
    exact ⟨fun h => (Except.ok.inj h).symm, fun h => congrArg _ h.symm⟩
  | cons x xs ih =>
    rw [List.mapM_cons, bind_eq_ok]
    simp only [bind_eq_ok, ih]
    constructor
    · rintro ⟨y, hy, ys, hys, h⟩
      obtain rfl := Except.ok.inj h
      exact .cons hy hys
    · rintro (_ | ⟨hy, hys⟩)
      exact ⟨_, hy, _, hys, rfl⟩

theorem exists_mapM_eq_ok {f : α → Except ε β} {xs : List α} :
    (∃ ys, xs.mapM f = .ok ys) ↔ ∀ x ∈ xs, ∃ y, f x = .ok y := by
  induction xs with
  | nil => simp [pure, Except.pure]
  | cons x xs ih =>
    rw [List.forall_mem_cons, ← ih, List.mapM_cons]
    simp only [bind_eq_ok]
    constructor
    · intro h
      obtain ⟨_, y, hy, ys, hys, _⟩ := h
      exact ⟨⟨y, hy⟩, ys, hys⟩
    · intro h
      obtain ⟨⟨y, hy⟩, ys, hys⟩ := h
      exact ⟨y :: ys, y, hy, ys, hys, rfl⟩

theorem mapM_congr_of_mem {f g : α → Except ε β} {xs : List α} (h : ∀ x ∈ xs, f x = g x) :
    xs.mapM f = xs.mapM g := by
  induction xs with
  | nil => rfl
  | cons x xs ih =>
    rw [List.forall_mem_cons] at h
    rw [List.mapM_cons, List.mapM_cons, h.1, ih h.2]

theorem foldlM_congr_of_mem {f g : σ → α → Except ε σ} {xs : List α}
    (h : ∀ x ∈ xs, ∀ s, f s x = g s x) (s : σ) : xs.foldlM f s = xs.foldlM g s := by
  induction xs generalizing s with
  | nil => rfl
  | cons x xs ih =>
    rw [List.forall_mem_cons] at h
    rw [List.foldlM_cons, List.foldlM_cons, h.1 s]
    exact bind_congr_of_ok fun s' _ => ih h.2 s'

/-- A loop returns when every round does, if the state has no say in it. -/
theorem exists_foldlM_eq_ok {f : σ → α → Except ε σ} {P : α → Prop} {xs : List α}
    (h : ∀ x ∈ xs, ∀ s, (∃ s', f s x = .ok s') ↔ P x) (s : σ) :
    (∃ s', xs.foldlM f s = .ok s') ↔ ∀ x ∈ xs, P x := by
  induction xs generalizing s with
  | nil => simp [pure, Except.pure]
  | cons x xs ih =>
    rw [List.forall_mem_cons] at h ⊢
    rw [List.foldlM_cons, ← h.1 s]
    simp only [bind_eq_ok]
    constructor
    · intro hloop
      obtain ⟨s', middle, hmiddle, hrest⟩ := hloop
      exact ⟨⟨middle, hmiddle⟩, (ih h.2 middle).mp ⟨s', hrest⟩⟩
    · intro hloop
      obtain ⟨⟨middle, hmiddle⟩, hrest⟩ := hloop
      obtain ⟨s', hs'⟩ := (ih h.2 middle).mpr hrest
      exact ⟨s', middle, hmiddle, hs'⟩

/-- In related lists, every item on the left has a partner. -/
theorem exists_right_of_forall₂ {R : α → β → Prop} {xs : List α} {ys : List β}
    (h : List.Forall₂ R xs ys) {x : α} (hmem : x ∈ xs) : ∃ y ∈ ys, R x y := by
  induction h with
  | nil => cases hmem
  | cons hxy _ ih =>
    rcases List.mem_cons.mp hmem with rfl | hmem
    · exact ⟨_, List.mem_cons_self, hxy⟩
    · obtain ⟨y, hy, hR⟩ := ih hmem
      exact ⟨y, List.mem_cons_of_mem _ hy, hR⟩

theorem exists_left_of_forall₂ {R : α → β → Prop} {xs : List α} {ys : List β}
    (h : List.Forall₂ R xs ys) {y : β} (hmem : y ∈ ys) : ∃ x ∈ xs, R x y :=
  exists_right_of_forall₂ (R := flip R) (List.Forall₂.flip h) hmem

/-- Related lists, one after the other. -/
theorem forall₂_trans {γ : Type} {R : α → β → Prop} {S : β → γ → Prop} {U : α → γ → Prop}
    (h : ∀ x y z, R x y → S y z → U x z) {xs : List α} {ys : List β} {zs : List γ}
    (hxy : List.Forall₂ R xs ys) (hyz : List.Forall₂ S ys zs) : List.Forall₂ U xs zs := by
  induction hxy generalizing zs with
  | nil =>
    obtain rfl := List.forall₂_nil_left_iff.mp hyz
    exact .nil
  | cons hR _ ih =>
    obtain ⟨z, zs, hS, htail, rfl⟩ := List.forall₂_cons_left_iff.mp hyz
    exact .cons (h _ _ _ hR hS) (ih htail)

/-! ## The errors a computation can end with -/

/-- Every error of the computation satisfies `P`. -/
def FailsOnly (P : ε → Prop) (x : Except ε α) : Prop := ∀ e, x = .error e → P e

section

variable {P : ε → Prop}

@[simp] theorem failsOnly_ok (a : α) : FailsOnly P (.ok a : Except ε α) := by
  simp [FailsOnly]

@[simp] theorem failsOnly_pure (a : α) : FailsOnly P (pure a : Except ε α) := failsOnly_ok a

@[simp] theorem failsOnly_error (e : ε) : FailsOnly P (.error e : Except ε α) ↔ P e := by
  simp [FailsOnly]

theorem failsOnly_iff {x : Except ε α} :
    FailsOnly P x ↔ (∃ a, x = .ok a) ∨ ∃ e, P e ∧ x = .error e := by
  cases x with
  | error e => simp
  | ok a => simp

theorem failsOnly_bind {x : Except ε α} {f : α → Except ε β} :
    FailsOnly P (x >>= f) ↔ FailsOnly P x ∧ ∀ a, x = .ok a → FailsOnly P (f a) := by
  cases x with
  | error e => simp [bind, Except.bind]
  | ok a => simp [bind, Except.bind]

/-- A check that can fail only in the kind, followed by the rest. -/
theorem failsOnly_check {x : Except ε PUnit} {f : PUnit → Except ε β} (hx : FailsOnly P x) :
    FailsOnly P (x >>= f) ↔ (x = .ok () → FailsOnly P (f ())) := by
  rw [failsOnly_bind]
  exact ⟨fun h => h.2 (), fun h => ⟨hx, fun _ => h⟩⟩

theorem failsOnly_forM {f : α → Except ε PUnit} {xs : List α}
    (h : ∀ x ∈ xs, FailsOnly P (f x)) : FailsOnly P (xs.forM f) := by
  induction xs with
  | nil => exact failsOnly_pure ()
  | cons x xs ih =>
    obtain ⟨hx, hxs⟩ := List.forall_mem_cons.mp h
    change FailsOnly P (f x >>= fun _ => xs.forM f)
    rw [failsOnly_check hx]
    exact fun _ => ih hxs

theorem failsOnly_mapM {f : α → Except ε β} {xs : List α} (h : ∀ x ∈ xs, FailsOnly P (f x)) :
    FailsOnly P (xs.mapM f) := by
  induction xs with
  | nil => exact failsOnly_pure []
  | cons x xs ih =>
    obtain ⟨hx, hxs⟩ := List.forall_mem_cons.mp h
    rw [List.mapM_cons]
    refine failsOnly_bind.mpr ⟨hx, fun _ _ => failsOnly_bind.mpr ⟨ih hxs, fun _ _ => ?_⟩⟩
    exact failsOnly_pure _

/-- A loop fails only in the kind when each round that it reaches does. -/
theorem failsOnly_foldlM {f : σ → α → Except ε σ} {xs : List α} {s : σ} :
    FailsOnly P (xs.foldlM f s) ↔
      ∀ pre x post, xs = pre ++ x :: post → ∀ s', pre.foldlM f s = .ok s' →
        FailsOnly P (f s' x) := by
  induction xs generalizing s with
  | nil => simp
  | cons x xs ih =>
    rw [List.foldlM_cons, failsOnly_bind]
    constructor
    · rintro ⟨hx, hxs⟩ pre y post heq s' hpre
      cases pre with
      | nil =>
        obtain ⟨rfl, rfl⟩ := List.cons.inj heq
        obtain rfl := Except.ok.inj hpre
        exact hx
      | cons z pre =>
        obtain ⟨rfl, rfl⟩ := List.cons.inj heq
        rw [List.foldlM_cons, bind_eq_ok] at hpre
        obtain ⟨t, ht, hpre⟩ := hpre
        exact ih.mp (hxs t ht) pre y post rfl s' hpre
    · intro h
      refine ⟨h [] x xs rfl s rfl, fun t ht => ih.mpr ?_⟩
      rintro pre y post rfl s' hpre
      refine h (x :: pre) y post rfl s' ?_
      rw [List.foldlM_cons, bind_eq_ok]
      exact ⟨t, ht, hpre⟩

/-- The same for a loop that counts its rounds from `k`. -/
theorem failsOnly_foldlM_zipIdx {f : σ → α × Nat → Except ε σ} {xs : List α} {k : Nat} {s : σ} :
    FailsOnly P ((xs.zipIdx k).foldlM f s) ↔
      ∀ pre x post, xs = pre ++ x :: post → ∀ s', (pre.zipIdx k).foldlM f s = .ok s' →
        FailsOnly P (f s' (x, k + pre.length)) := by
  rw [failsOnly_foldlM]
  constructor
  · rintro h pre x post rfl s' hpre
    refine h (pre.zipIdx k) _ (post.zipIdx (k + pre.length + 1)) ?_ s' hpre
    rw [List.zipIdx_append, List.zipIdx_cons]
  · intro h pre y post heq s' hpre
    obtain ⟨pre', rest, rfl, rfl, hrest⟩ := List.zipIdx_eq_append_iff.mp heq
    obtain ⟨x, post', rfl, rfl, rfl⟩ := List.zipIdx_eq_cons_iff.mp hrest.symm
    exact h pre' x post' rfl s' hpre

end

end VirtualContributor.Lib
