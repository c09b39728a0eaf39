import Mathlib.Data.List.Basic

/-!
# Joined fields

A list of fields is joined with a separator that the fields may contain
themselves.  `pieces` are the parts between two separators of the joined list,
and `layout` says how many separators each field contains.

* `join_eq_iff`: two joined lists are equal when the pieces are.
* `eq_of_pieces_of_layout`: pieces and layout determine the fields.
-/

namespace VirtualContributor.Lib

variable {α : Type} [DecidableEq α] {sep : α}

/-- The parts into which the separators cut the fields. -/
def pieces (sep : α) (fields : List (List α)) : List (List α) :=
  fields.flatMap (List.splitOn sep)

/-- How many separators each field contains. -/
def layout (sep : α) (fields : List (List α)) : List Nat := fields.map (List.count sep)

theorem length_splitOn (field : List α) :
    (field.splitOn sep).length = field.count sep + 1 := by
  induction field with
  | nil => rfl
  | cons c cs ih =>
    rw [List.splitOn_cons_eq_if_modifyHead]
    by_cases hc : c = sep
    · simp [hc, ih]
    · simp [hc, ih]

theorem splitOn_injective : Function.Injective (List.splitOn sep) := by
  intro field field' h
  have hjoin := congrArg ([sep].intercalate ·) h
  simpa only [List.intercalate_splitOn] using hjoin

/-- Splitting a joined list gives the pieces of its fields. -/
theorem splitOn_join {fields : List (List α)} (hne : fields ≠ []) :
    ([sep].intercalate fields).splitOn sep = pieces sep fields := by
  induction fields with
  | nil => exact absurd rfl hne
  | cons field fields ih =>
    by_cases hrest : fields = []
    · subst hrest
      simp [pieces]
    · have hcut : [sep].intercalate (field :: fields)
          = field ++ sep :: [sep].intercalate fields := by
        rw [List.intercalate_cons_of_ne_nil hrest]
        simp
      rw [hcut, List.splitOn_append_cons_self, ih hrest]
      rfl

/-- Two lists of fields join to one list when they have the same pieces. -/
theorem join_eq_iff {fields fields' : List (List α)} (hne : fields ≠ []) (hne' : fields' ≠ []) :
    [sep].intercalate fields = [sep].intercalate fields' ↔
      pieces sep fields = pieces sep fields' := by
  rw [← splitOn_join hne, ← splitOn_join hne']
  exact splitOn_injective.eq_iff.symm

theorem eq_of_pieces_of_layout {fields fields' : List (List α)}
    (hpieces : pieces sep fields = pieces sep fields')
    (hlayout : layout sep fields = layout sep fields') : fields = fields' := by
  induction fields generalizing fields' with
  | nil => simpa [layout] using hlayout
  | cons field fields ih =>
    cases fields' with
    | nil => simp [layout] at hlayout
    | cons field' fields' =>
      simp only [layout, List.map_cons, List.cons.injEq] at hlayout
      simp only [pieces, List.flatMap_cons] at hpieces
      have hlength : (field.splitOn sep).length = (field'.splitOn sep).length := by
        rw [length_splitOn, length_splitOn, hlayout.1]
      obtain ⟨hfirst, hrest⟩ := List.append_inj hpieces hlength
      rw [splitOn_injective hfirst, ih hrest hlayout.2]

end VirtualContributor.Lib
