import Mathlib.Data.List.Basic

/-!
# Prefixes within a budget

`fitting charge budget xs` is the prefix of `xs` that a loop keeps when it
adds elements for as long as the charge of what it keeps stays within the
budget.  For a charge that grows with the list it is the longest prefix within
the budget (`extendWithin_longest`).
-/

namespace VirtualContributor.Lib

variable {α : Type} (charge : List α → Nat) (budget : Nat)

/-- Add the elements of a list, up to the first that does not fit. -/
def extendWithin : List α → List α → List α
  | kept, [] => kept
  | kept, x :: xs =>
    if budget < charge (kept ++ [x]) then kept else extendWithin (kept ++ [x]) xs

def fitting (xs : List α) : List α := extendWithin charge budget [] xs

variable {charge budget}

theorem exists_extendWithin_eq (kept xs : List α) :
    ∃ n, extendWithin charge budget kept xs = kept ++ xs.take n := by
  induction xs generalizing kept with
  | nil => exact ⟨0, (List.append_nil kept).symm⟩
  | cons x xs ih =>
    unfold extendWithin
    split
    · exact ⟨0, (List.append_nil kept).symm⟩
    · obtain ⟨n, hn⟩ := ih (kept ++ [x])
      refine ⟨n + 1, ?_⟩
      rw [hn, List.take_succ_cons, List.append_assoc]
      rfl

theorem charge_extendWithin_le {kept : List α} (h : charge kept ≤ budget) (xs : List α) :
    charge (extendWithin charge budget kept xs) ≤ budget := by
  induction xs generalizing kept with
  | nil => exact h
  | cons x xs ih =>
    unfold extendWithin
    split
    · exact h
    · rename_i hfits
      exact ih (Nat.le_of_not_lt hfits)

theorem exists_fitting_eq (charge : List α → Nat) (budget : Nat) (xs : List α) :
    ∃ n, fitting charge budget xs = xs.take n :=
  exists_extendWithin_eq [] xs

theorem charge_fitting_le (h : charge [] ≤ budget) (xs : List α) :
    charge (fitting charge budget xs) ≤ budget :=
  charge_extendWithin_le h xs

/-- A charge that grows with the list. -/
def Grows (charge : List α → Nat) : Prop := ∀ xs ys, charge xs ≤ charge (xs ++ ys)

theorem extendWithin_of_fits (hgrows : Grows charge) {kept : List α} (xs ys : List α)
    (h : charge (kept ++ xs) ≤ budget) :
    extendWithin charge budget kept (xs ++ ys) = extendWithin charge budget (kept ++ xs) ys := by
  induction xs generalizing kept with
  | nil => rw [List.append_nil]; rfl
  | cons x xs ih =>
    have hsplit : kept ++ x :: xs = (kept ++ [x]) ++ xs := by rw [List.append_assoc]; rfl
    rw [hsplit] at h ⊢
    have hfits : ¬budget < charge (kept ++ [x]) :=
      Nat.not_lt.mpr (Nat.le_trans (hgrows (kept ++ [x]) xs) h)
    rw [List.cons_append, extendWithin, if_neg hfits]
    exact ih h

/-- No prefix within the budget is longer. -/
theorem extendWithin_longest (hgrows : Grows charge) {kept xs : List α} {n : Nat}
    (h : charge (kept ++ xs.take n) ≤ budget) :
    kept ++ xs.take n <+: extendWithin charge budget kept xs := by
  have hsplit := extendWithin_of_fits hgrows (xs.take n) (xs.drop n) h
  rw [List.take_append_drop] at hsplit
  rw [hsplit]
  obtain ⟨m, hm⟩ := @exists_extendWithin_eq _ charge budget (kept ++ xs.take n) (xs.drop n)
  rw [hm]
  exact List.prefix_append _ _

/-- Nothing is added to what is over the budget. -/
theorem extendWithin_of_over (hgrows : Grows charge) {kept : List α} (h : budget < charge kept)
    (xs : List α) : extendWithin charge budget kept xs = kept := by
  cases xs with
  | nil => rfl
  | cons x xs =>
    unfold extendWithin
    exact if_pos (Nat.lt_of_lt_of_le h (hgrows kept [x]))

/-- Everything fits. -/
theorem fitting_eq_self (hgrows : Grows charge) {xs : List α} (h : charge xs ≤ budget) :
    fitting charge budget xs = xs := by
  have hall := @extendWithin_of_fits _ charge budget hgrows [] xs [] h
  rw [List.append_nil] at hall
  exact hall

end VirtualContributor.Lib
