import Mathlib.Data.List.Pairwise
import VirtualContributor.Lib.StableSort

/-!
# Representatives

The best elements of different classes.  `firstOfEach` keeps the first element
of each class, which in a sorted list is the best one, and the first `n` of those
are the representatives of the `n` best classes: `representatives_take`.
-/

namespace VirtualContributor.Lib

section FirstOfEach

variable {β γ : Type} [DecidableEq γ] {cls : β → γ}

/-- The first element of each class that has not been seen. -/
def firstOfEach (cls : β → γ) : List γ → List β → List β
  | _, [] => []
  | seen, x :: xs =>
    if cls x ∈ seen then firstOfEach cls seen xs
    else x :: firstOfEach cls (cls x :: seen) xs

theorem firstOfEach_sublist (cls : β → γ) (seen : List γ) (xs : List β) :
    (firstOfEach cls seen xs).Sublist xs := by
  induction xs generalizing seen with
  | nil => exact List.Sublist.refl []
  | cons x xs ih =>
    rw [firstOfEach]
    split
    · exact (ih seen).cons x
    · exact (ih _).cons_cons x

theorem not_mem_of_mem_firstOfEach {seen : List γ} {xs : List β} {x : β}
    (h : x ∈ firstOfEach cls seen xs) : cls x ∉ seen := by
  induction xs generalizing seen with
  | nil => exact absurd h List.not_mem_nil
  | cons y ys ih =>
    rw [firstOfEach] at h
    split at h
    · exact ih h
    · rename_i hnew
      obtain rfl | h := List.mem_cons.mp h
      · exact hnew
      · exact fun hseen => ih h (List.mem_cons_of_mem _ hseen)

/-- No two elements are of one class. -/
theorem pairwise_firstOfEach (cls : β → γ) (seen : List γ) (xs : List β) :
    (firstOfEach cls seen xs).Pairwise fun a b => cls a ≠ cls b := by
  induction xs generalizing seen with
  | nil => exact .nil
  | cons x xs ih =>
    rw [firstOfEach]
    split
    · exact ih seen
    · refine List.pairwise_cons.mpr ⟨fun y hy heq => ?_, ih _⟩
      exact not_mem_of_mem_firstOfEach hy (heq ▸ List.mem_cons_self)

/-- Every element has its class kept by itself or by an earlier element. -/
theorem exists_firstOfEach {R : β → β → Prop} {seen : List γ} {xs : List β}
    (hpairwise : xs.Pairwise R) {x : β} (hx : x ∈ xs) (hnew : cls x ∉ seen) :
    ∃ e ∈ firstOfEach cls seen xs, cls e = cls x ∧ (e = x ∨ R e x) := by
  induction xs generalizing seen with
  | nil => exact absurd hx List.not_mem_nil
  | cons y ys ih =>
    obtain ⟨hy, hrest⟩ := List.pairwise_cons.mp hpairwise
    rw [firstOfEach]
    split
    case isTrue hseen =>
      obtain rfl | hx := List.mem_cons.mp hx
      · exact absurd hseen hnew
      · exact ih hrest hx hnew
    case isFalse hseen =>
      obtain rfl | hx := List.mem_cons.mp hx
      · exact ⟨x, List.mem_cons_self, rfl, .inl rfl⟩
      · by_cases hsame : cls x = cls y
        · exact ⟨y, List.mem_cons_self, hsame.symm, .inr (hy x hx)⟩
        · obtain ⟨e, he, hcls, horder⟩ :=
            @ih (cls y :: seen) hrest hx (by simp [hsame, hnew])
          exact ⟨e, List.mem_cons_of_mem _ he, hcls, horder⟩

/-- What is kept depends on which elements are of one class, and on what was
seen. -/
theorem firstOfEach_congr {δ : Type} [DecidableEq δ] {cls' : β → δ} {before xs : List β}
    (h : ∀ a ∈ before ++ xs, ∀ b ∈ before ++ xs, cls a = cls b ↔ cls' a = cls' b) :
    firstOfEach cls (before.map cls) xs = firstOfEach cls' (before.map cls') xs := by
  induction xs generalizing before with
  | nil => rfl
  | cons x xs ih =>
    have hseen : cls x ∈ before.map cls ↔ cls' x ∈ before.map cls' := by
      rw [List.mem_map, List.mem_map]
      constructor
      · rintro ⟨a, ha, heq⟩
        exact ⟨a, ha, (h a (by simp [ha]) x (by simp)).mp heq⟩
      · rintro ⟨a, ha, heq⟩
        exact ⟨a, ha, (h a (by simp [ha]) x (by simp)).mpr heq⟩
    rw [firstOfEach, firstOfEach]
    by_cases hmem : cls x ∈ before.map cls
    · rw [if_pos hmem, if_pos (hseen.mp hmem)]
      exact ih fun a ha b hb => h a (by simp at ha ⊢; tauto) b (by simp at hb ⊢; tauto)
    · rw [if_neg hmem, if_neg fun hmem' => hmem (hseen.mpr hmem'), ← List.map_cons,
        ← List.map_cons]
      exact congrArg (x :: ·)
        (ih fun a ha b hb => h a (by simp at ha ⊢; tauto) b (by simp at hb ⊢; tauto))

theorem firstOfEach_map {α : Type} (f : α → β) (seen : List γ) (xs : List α) :
    firstOfEach cls seen (xs.map f) = (firstOfEach (cls ∘ f) seen xs).map f := by
  induction xs generalizing seen with
  | nil => rfl
  | cons x xs ih =>
    rw [List.map_cons, firstOfEach, firstOfEach, Function.comp_apply]
    split
    · exact ih seen
    · rw [List.map_cons, ih]

/-- Elements that are not kept may be taken out before. -/
theorem firstOfEach_filter {p : β → Bool} {seen : List γ} {xs : List β}
    (h : ∀ x ∈ firstOfEach cls seen xs, p x = true) :
    firstOfEach cls seen (xs.filter p) = firstOfEach cls seen xs := by
  induction xs generalizing seen with
  | nil => rfl
  | cons x xs ih =>
    rw [firstOfEach] at h ⊢
    by_cases hseen : cls x ∈ seen
    · rw [if_pos hseen] at h ⊢
      rw [← ih h, List.filter_cons]
      split
      · rw [firstOfEach, if_pos hseen]
      · rfl
    · rw [if_neg hseen] at h ⊢
      obtain ⟨hx, hrest⟩ := List.forall_mem_cons.mp h
      rw [List.filter_cons_of_pos hx, firstOfEach, if_neg hseen, ih hrest]

/-- An element is kept when its class was not seen and no element before it is of
its class. -/
theorem mem_firstOfEach_iff {seen : List γ} {xs : List β} {x : β} :
    x ∈ firstOfEach cls seen xs ↔
      cls x ∉ seen ∧ ∃ before after, xs = before ++ x :: after ∧ ∀ y ∈ before, cls y ≠ cls x := by
  induction xs generalizing seen with
  | nil => simp [firstOfEach]
  | cons z xs ih =>
    rw [firstOfEach]
    by_cases hseen : cls z ∈ seen
    · rw [if_pos hseen, ih]
      apply and_congr_right
      intro hx
      constructor
      · rintro ⟨before, after, rfl, hbefore⟩
        refine ⟨z :: before, after, rfl, List.forall_mem_cons.mpr ⟨fun heq => ?_, hbefore⟩⟩
        exact hx (heq ▸ hseen)
      · rintro ⟨_ | ⟨y, before⟩, after, heq, hbefore⟩
        · exact absurd ((List.cons.inj heq).1 ▸ hseen) hx
        · exact ⟨before, after, (List.cons.inj heq).2, (List.forall_mem_cons.mp hbefore).2⟩
    · rw [if_neg hseen, List.mem_cons, ih, List.mem_cons, not_or]
      constructor
      · rintro (rfl | ⟨⟨hne, hx⟩, before, after, rfl, hbefore⟩)
        · exact ⟨hseen, [], xs, rfl, nofun⟩
        · exact ⟨hx, z :: before, after, rfl, List.forall_mem_cons.mpr ⟨Ne.symm hne, hbefore⟩⟩
      · rintro ⟨hx, _ | ⟨y, before⟩, after, heq, hbefore⟩
        · exact .inl (List.cons.inj heq).1.symm
        · obtain ⟨rfl, rfl⟩ := List.cons.inj heq
          obtain ⟨hne, hbefore⟩ := List.forall_mem_cons.mp hbefore
          exact .inr ⟨⟨Ne.symm hne, hx⟩, before, after, rfl, hbefore⟩

end FirstOfEach

section Representatives

variable {α κ γ : Type} [LinearOrder κ] [DecidableEq γ]

/-- The representatives of the `n` best classes of some elements with their
positions: the best element of each, in order. -/
structure Representatives (key : α → κ) (cls : α × Nat → γ) (n : Nat)
    (candidate : α × Nat → Prop) (kept : List (α × Nat)) : Prop where
  candidates : ∀ e ∈ kept, candidate e
  sorted : kept.Pairwise (Precedes key)
  distinct : kept.Pairwise fun a b => cls a ≠ cls b
  best : ∀ e ∈ kept, ∀ f, candidate f → cls e = cls f → e = f ∨ Precedes key e f
  /-- A class without a representative is behind all that have one, and only
  `n` of them leave a class without one. -/
  highest : ∀ f, candidate f → (∃ e ∈ kept, cls e = cls f) ∨
    kept.length = n ∧ ∀ e ∈ kept, Precedes key e f
  count : kept.length ≤ n

/-- In a sorted list, the first of each class are the best. -/
theorem representatives_take {key : α → κ} {cls : α × Nat → γ} {xs : List (α × Nat)}
    (hsorted : xs.Pairwise (Precedes key)) (n : Nat) :
    Representatives key cls n (· ∈ xs) ((firstOfEach cls [] xs).take n) := by
  have hsub := (List.take_sublist n (firstOfEach cls [] xs)).trans (firstOfEach_sublist cls [] xs)
  have hdistinct := pairwise_firstOfEach cls [] xs
  have hfirst : ∀ f ∈ xs, ∃ e ∈ firstOfEach cls [] xs, cls e = cls f ∧ (e = f ∨ Precedes key e f) :=
    fun f hf => exists_firstOfEach hsorted hf List.not_mem_nil
  refine ⟨fun e he => hsub.subset he, hsorted.sublist hsub,
    hdistinct.sublist (List.take_sublist n _), ?_, ?_, List.length_take_le n _⟩
  · intro e he f hf hcls
    obtain ⟨e', he', hcls', horder⟩ := hfirst f hf
    have hsame : e = e' := by
      by_contra hne
      have : Std.Symm fun a b : α × Nat => cls a ≠ cls b := ⟨fun _ _ => Ne.symm⟩
      exact hdistinct.forall (List.mem_of_mem_take he) he' hne (hcls.trans hcls'.symm)
    rw [hsame]
    exact horder
  · intro f hf
    obtain ⟨e', he', hcls', horder⟩ := hfirst f hf
    rw [← List.take_append_drop n (firstOfEach cls [] xs), List.mem_append] at he'
    obtain he' | he' := he'
    · exact .inl ⟨e', he', hcls'⟩
    · right
      have hlong : n < (firstOfEach cls [] xs).length := by
        have hpos := List.length_pos_of_mem he'
        rw [List.length_drop] at hpos
        omega
      refine ⟨by rw [List.length_take]; omega, fun e he => ?_⟩
      have hall := hsorted.sublist (firstOfEach_sublist cls [] xs)
      rw [← List.take_append_drop n (firstOfEach cls [] xs)] at hall
      have hbehind := (List.pairwise_append.mp hall).2.2 e he e' he'
      obtain rfl | horder := horder
      · exact hbehind
      · exact hbehind.trans horder

end Representatives

end VirtualContributor.Lib
