import Mathlib

/-!
# Stable sorting by a key

A list sorted by a key keeps the order of the elements whose keys are equal.
Equal elements of a list are told apart by their positions, so the order is one
on elements with positions: `Precedes` compares the keys first.

* `exists_placed`: a sorted list, with the position of each of its elements.
-/

namespace VirtualContributor.Lib

open List.MergeSort.Internal

variable {α κ : Type} [LinearOrder κ] {key : α → κ}

/-- Of two elements with their positions, the one that comes first. -/
def Precedes (key : α → κ) (a b : α × Nat) : Prop :=
  key a.1 < key b.1 ∨ key a.1 = key b.1 ∧ a.2 < b.2

theorem Precedes.trans {a b c : α × Nat} (hab : Precedes key a b) (hbc : Precedes key b c) :
    Precedes key a c := by
  obtain hab | ⟨hab, hpos⟩ := hab
  · obtain hbc | ⟨hbc, _⟩ := hbc
    · exact .inl (lt_trans hab hbc)
    · exact .inl (hbc ▸ hab)
  · obtain hbc | ⟨hbc, hpos'⟩ := hbc
    · exact .inl (hab ▸ hbc)
    · exact .inr ⟨hab.trans hbc, Nat.lt_trans hpos hpos'⟩

theorem Precedes.asymm {a b : α × Nat} (hab : Precedes key a b) : ¬Precedes key b a := by
  intro hba
  obtain hlt | ⟨_, hpos⟩ := hab.trans hba
  · exact lt_irrefl _ hlt
  · exact Nat.lt_irrefl _ hpos

/-- Of two different positions one precedes the other. -/
theorem Precedes.total {a b : α × Nat} (hne : a.2 ≠ b.2) : Precedes key a b ∨ Precedes key b a := by
  obtain hlt | heq | hgt := lt_trichotomy (key a.1) (key b.1)
  · exact .inl (.inl hlt)
  · obtain hpos | hpos := Nat.lt_or_gt_of_ne hne
    · exact .inl (.inr ⟨heq, hpos⟩)
    · exact .inr (.inr ⟨heq.symm, hpos⟩)
  · exact .inr (.inl hgt)

theorem precedes_of_zipIdxLE {a b : α × Nat}
    (h : List.zipIdxLE (fun a b => decide (key a ≤ key b)) a b = true) (hne : a.2 ≠ b.2) :
    Precedes key a b := by
  unfold List.zipIdxLE at h
  simp only [decide_eq_true_eq] at h
  split at h
  · rename_i hle
    split at h
    · rename_i hge
      simp only [decide_eq_true_eq] at h
      exact .inr ⟨le_antisymm hle hge, Nat.lt_of_le_of_ne h hne⟩
    · rename_i hge
      exact .inl (not_le.mp hge)
  · cases h

theorem nodup_positions (xs : List α) : (xs.zipIdx.map Prod.snd).Nodup := by
  rw [List.zipIdx_map_snd]
  exact List.nodup_range'

/-- A sorted list, with the position of each of its elements. -/
theorem exists_placed (key : α → κ) (xs : List α) :
    ∃ placed : List (α × Nat),
      placed.map Prod.fst = xs.mergeSort (fun a b => decide (key a ≤ key b)) ∧
        placed.Perm xs.zipIdx ∧ placed.Pairwise (Precedes key) := by
  have htrans : ∀ a b c : α, decide (key a ≤ key b) = true → decide (key b ≤ key c) = true →
      decide (key a ≤ key c) = true := by
    intro a b c hab hbc
    simp only [decide_eq_true_eq] at hab hbc ⊢
    exact le_trans hab hbc
  have htotal : ∀ a b : α, (decide (key a ≤ key b) || decide (key b ≤ key a)) = true := by
    intro a b
    simpa using le_total (key a) (key b)
  have hperm := List.mergeSort_perm xs.zipIdx (List.zipIdxLE fun a b => decide (key a ≤ key b))
  have hsorted := List.pairwise_mergeSort (List.zipIdxLE_trans htrans)
    (List.zipIdxLE_total htotal) xs.zipIdx
  have hnodup : (xs.zipIdx.mergeSort
      (List.zipIdxLE fun a b => decide (key a ≤ key b))).Pairwise fun a b => a.2 ≠ b.2 := by
    rw [← List.pairwise_map]
    exact (hperm.map Prod.snd).nodup_iff.mpr (nodup_positions xs)
  refine ⟨_, List.mergeSort_zipIdx, hperm, ?_⟩
  exact hsorted.imp₂ (fun _ _ => precedes_of_zipIdxLE) hnodup

end VirtualContributor.Lib
