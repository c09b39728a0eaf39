import Mathlib.Algebra.Order.BigOperators.Group.List
import Mathlib.Algebra.Order.Field.Basic
import Mathlib.Data.Nat.Cast.Order.Field
import Mathlib.Data.List.Nodup
import Mathlib.Order.WithBot

/-!
# Rankings and reciprocal ranks

The rank of an element in a list is its position, and `⊤` for an element that
the list lacks.  A weighted arm gives an element its weight times the
reciprocal of its rank; the fused score is the sum over the arms.  An element
that is ranked no worse in every arm, and better in one that counts, has the
higher score (`fusedScore_lt`).

`pair_sublist_of_lt` is about lists in the order of a key: of two members, the
one of smaller key comes first.
-/

namespace VirtualContributor.Lib

section

variable {α : Type} [DecidableEq α]

/-- The position of an element, or `⊤`. -/
def rank (xs : List α) (a : α) : WithTop Nat :=
  if a ∈ xs then WithTop.some (xs.idxOf a) else ⊤

theorem rank_of_mem {xs : List α} {a : α} (h : a ∈ xs) :
    rank xs a = WithTop.some (xs.idxOf a) := if_pos h

theorem rank_of_not_mem {xs : List α} {a : α} (h : a ∉ xs) : rank xs a = ⊤ := if_neg h

/-- Only a member has a rank below another. -/
theorem mem_of_rank_lt {xs : List α} {a : α} {r : WithTop Nat} (h : rank xs a < r) : a ∈ xs := by
  by_contra hmem
  rw [rank_of_not_mem hmem] at h
  exact not_top_lt h

/-- The occurrence of an element among the positions of a list without
duplicates. -/
theorem filter_zipIdx_eq {xs : List α} (hxs : xs.Nodup) (a : α) (k : Nat) :
    (xs.zipIdx k).filter (fun e => e.1 = a) = if a ∈ xs then [(a, k + xs.idxOf a)] else [] := by
  induction xs generalizing k with
  | nil => rfl
  | cons x xs ih =>
    obtain ⟨hx, hxs⟩ := List.nodup_cons.mp hxs
    rw [List.zipIdx_cons, List.filter_cons, ih hxs]
    by_cases ha : x = a
    · subst ha
      rw [if_pos (decide_eq_true rfl), if_neg hx, if_pos List.mem_cons_self,
        List.idxOf_cons_self, Nat.add_zero]
    · rw [if_neg (by simpa using ha)]
      by_cases hmem : a ∈ xs
      · rw [if_pos hmem, if_pos (List.mem_cons_of_mem _ hmem), List.idxOf_cons_ne _ ha,
          Nat.add_assoc, Nat.add_comm 1]
      · rw [if_neg hmem, if_neg (by simp [hmem, Ne.symm ha])]

/-- A list without duplicates is in the order of its own ranks. -/
theorem pairwise_rank_lt {xs : List α} (hxs : xs.Nodup) :
    xs.Pairwise fun a b => rank xs a < rank xs b := by
  rw [List.pairwise_iff_getElem]
  intro i j hi hj hij
  rw [rank_of_mem (List.getElem_mem hi), rank_of_mem (List.getElem_mem hj),
    hxs.idxOf_getElem i hi, hxs.idxOf_getElem j hj]
  exact WithTop.coe_lt_coe.mpr hij

/-- A parallel list, read off at the ranks. -/
theorem map_getD_idxOf {β : Type} {xs : List α} (hxs : xs.Nodup) {ys : List β}
    (hlength : ys.length = xs.length) (default : β) :
    (xs.map fun x => ys.getD (xs.idxOf x) default) = ys := by
  apply List.ext_getElem
  · rw [List.length_map, hlength]
  · intro i hi hi'
    rw [List.getElem_map, hxs.idxOf_getElem, List.getD_eq_getElem?_getD,
      List.getElem?_eq_getElem hi', Option.getD_some]

end

/-! ## Reciprocal rank scores -/

section

variable {𝕜 : Type} [Field 𝕜]

/-- The reciprocal of a rank that is shifted by `k + 1`. -/
def reciprocal (k : Nat) : WithTop Nat → 𝕜
  | some r => 1 / ((k + r + 1 : Nat) : 𝕜)
  | none => 0

theorem reciprocal_coe (k r : Nat) :
    reciprocal k (WithTop.some r) = (1 / ((k + r + 1 : Nat) : 𝕜)) := rfl

theorem reciprocal_top (k : Nat) : (reciprocal k ⊤ : 𝕜) = 0 := rfl

variable {α : Type} [DecidableEq α]

/-- The sum of what the weighted arms give to an element. -/
def fusedScore (k : Nat) (arms : List (List α × 𝕜)) (a : α) : 𝕜 :=
  (arms.map fun arm => arm.2 * reciprocal k (rank arm.1 a)).sum

variable [LinearOrder 𝕜]

/-- Ranked no worse in every arm, and better in one of positive weight. -/
structure Dominates (arms : List (List α × 𝕜)) (a b : α) : Prop where
  no_worse : ∀ arm ∈ arms, rank arm.1 a ≤ rank arm.1 b
  better : ∃ arm ∈ arms, 0 < arm.2 ∧ rank arm.1 a < rank arm.1 b

/-- A dominating element is a member of some arm. -/
theorem Dominates.exists_mem {arms : List (List α × 𝕜)} {a b : α} (h : Dominates arms a b) :
    ∃ arm ∈ arms, a ∈ arm.1 := by
  obtain ⟨arm, hmem, _, hlt⟩ := h.better
  exact ⟨arm, hmem, mem_of_rank_lt hlt⟩

variable [IsStrictOrderedRing 𝕜]

/-- A better rank has the larger reciprocal. -/
theorem reciprocal_lt (k : Nat) {r s : WithTop Nat} (h : r < s) :
    (reciprocal k s : 𝕜) < reciprocal k r := by
  obtain ⟨n, rfl⟩ := WithTop.ne_top_iff_exists.mp h.ne_top
  have hpos : (0 : 𝕜) < ((k + n + 1 : Nat) : 𝕜) := Nat.cast_pos.mpr (Nat.succ_pos _)
  rw [reciprocal_coe]
  induction s using WithTop.recTopCoe with
  | top =>
    rw [reciprocal_top]
    exact one_div_pos.mpr hpos
  | coe m =>
    have hlt : n < m := WithTop.coe_lt_coe.mp h
    rw [reciprocal_coe]
    apply one_div_lt_one_div_of_lt hpos
    exact_mod_cast Nat.add_lt_add_right (Nat.add_lt_add_left hlt k) 1

theorem reciprocal_le (k : Nat) {r s : WithTop Nat} (h : r ≤ s) :
    (reciprocal k s : 𝕜) ≤ reciprocal k r := by
  rcases h.eq_or_lt with rfl | hlt
  · exact le_rfl
  · exact (reciprocal_lt k hlt).le

theorem fusedScore_lt {k : Nat} {arms : List (List α × 𝕜)} (hweights : ∀ arm ∈ arms, 0 ≤ arm.2)
    {a b : α} (h : Dominates arms a b) : fusedScore k arms b < fusedScore k arms a := by
  apply List.sum_lt_sum
  · intro arm hmem
    exact mul_le_mul_of_nonneg_left (reciprocal_le k (h.no_worse arm hmem)) (hweights arm hmem)
  · obtain ⟨arm, hmem, hpos, hlt⟩ := h.better
    exact ⟨arm, hmem, mul_lt_mul_of_pos_left (reciprocal_lt k hlt) hpos⟩

end

/-! ## Lists in the order of a key -/

section

variable {α κ : Type} [LinearOrder κ] {key : α → κ}

/-- Of two members of a list in strict order, the one of smaller key comes
first. -/
theorem pair_sublist_of_lt {xs : List α} (h : xs.Pairwise fun a b => key a < key b) {a b : α}
    (ha : a ∈ xs) (hb : b ∈ xs) (hlt : key a < key b) : [a, b].Sublist xs := by
  induction xs with
  | nil => cases ha
  | cons x xs ih =>
    obtain ⟨hx, hxs⟩ := List.pairwise_cons.mp h
    rcases List.mem_cons.mp ha with rfl | hmem
    · rcases List.mem_cons.mp hb with rfl | hb
      · exact absurd hlt (lt_irrefl _)
      · exact (List.singleton_sublist.mpr hb).cons_cons _
    · rcases List.mem_cons.mp hb with rfl | hb
      · exact absurd hlt (hx a hmem).not_gt
      · exact (ih hxs hmem hb).cons _

/-- A prefix that has the later of two members has the earlier one, before
it. -/
theorem pair_sublist_take {xs : List α} (h : xs.Pairwise fun a b => key a < key b) {a b : α}
    (ha : a ∈ xs) (hlt : key a < key b) {n : Nat} (hb : b ∈ xs.take n) :
    [a, b].Sublist (xs.take n) := by
  apply pair_sublist_of_lt (h.sublist (List.take_sublist n xs)) ?_ hb hlt
  rw [← List.take_append_drop n xs, List.mem_append] at ha
  apply ha.resolve_right
  intro hdrop
  rw [← List.take_append_drop n xs, List.pairwise_append] at h
  exact absurd hlt (h.2.2 b hb a hdrop).not_gt

end

end VirtualContributor.Lib
