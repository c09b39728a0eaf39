import Mathlib.Data.List.GetD
import VirtualContributor.Lib.StableSort
import VirtualContributor.Retrieval.Rerank

/-!
# Vector order

What a reranker without a lexical share does to the order of the vector scores.

* `rerank_perm`: at every weight the indices are rearranged.
* `rerank_zero_iff`: at weight zero they are in the order of the vector scores,
  unless the scores lie so close together that all of them are rescaled to
  zero.
-/

namespace VirtualContributor.Retrieval

open Lib

/-- The indices of some scores from the highest down, equal scores in their
order. -/
structure StableDescending (scores : List Rat) (order : List Nat) : Prop where
  perm : order.Perm (List.range scores.length)
  ordered : order.Pairwise fun i j =>
    scores.getD j 0 < scores.getD i 0 ∨ scores.getD i 0 = scores.getD j 0 ∧ i < j

/-- Some scores are far enough apart to be rescaled. -/
def Spread (scores : List Rat) : Prop := ∃ a ∈ scores, ∃ b ∈ scores, MIN_RANGE ≤ a - b

/-- No score is above an earlier one. -/
def NonIncreasing (scores : List Rat) : Prop := scores.Pairwise (· ≥ ·)

/-! ## Sorting indices -/

/-- `sorted(range(len(scores)), key=lambda i: -scores[i])`. -/
def descendingIndices (scores : List Rat) : List Nat :=
  (List.range scores.length).mergeSort fun i j => -scores.getD i 0 ≤ -scores.getD j 0

theorem stableDescending_indices (scores : List Rat) :
    StableDescending scores (descendingIndices scores) := by
  obtain ⟨placed, hmap, hperm, hordered⟩ :=
    exists_placed (fun i => -scores.getD i 0) (List.range scores.length)
  have hsame : ∀ e ∈ placed, e.1 = e.2 := by
    intro e he
    obtain ⟨hi, hget⟩ := List.mem_zipIdx' (hperm.mem_iff.mp he)
    rw [hget, List.getElem_range]
  constructor
  · exact List.mergeSort_perm _ _
  · show (descendingIndices scores).Pairwise _
    unfold descendingIndices
    rw [← hmap, List.pairwise_map]
    refine hordered.imp_of_mem ?_
    intro a b ha hb hab
    obtain hlt | ⟨heq, hpos⟩ := hab
    · exact .inl (neg_lt_neg_iff.mp hlt)
    · rw [← hsame a ha, ← hsame b hb] at hpos
      exact .inr ⟨neg_inj.mp heq, hpos⟩

/-- Scores that compare alike have the same order. -/
theorem StableDescending.congr {scores scores' : List Rat} {order : List Nat}
    (hlength : scores.length = scores'.length)
    (hcompare : ∀ i < scores.length, ∀ j < scores.length,
      scores.getD i 0 < scores.getD j 0 ↔ scores'.getD i 0 < scores'.getD j 0)
    (h : StableDescending scores order) : StableDescending scores' order := by
  have hmem : ∀ i ∈ order, i < scores.length := fun i hi =>
    List.mem_range.mp (h.perm.mem_iff.mp hi)
  refine ⟨hlength ▸ h.perm, h.ordered.imp_of_mem ?_⟩
  intro i j hi hj hij
  obtain hlt | ⟨heq, hpos⟩ := hij
  · exact .inl ((hcompare j (hmem j hj) i (hmem i hi)).mp hlt)
  · refine .inr ⟨le_antisymm ?_ ?_, hpos⟩
    · exact not_lt.mp (mt (hcompare j (hmem j hj) i (hmem i hi)).mpr heq.not_gt)
    · exact not_lt.mp (mt (hcompare i (hmem i hi) j (hmem j hj)).mpr heq.not_lt)

/-- There is one such order. -/
theorem StableDescending.unique {scores : List Rat} {order order' : List Nat}
    (h : StableDescending scores order) (h' : StableDescending scores order') : order = order' := by
  refine (h.perm.trans h'.perm.symm).eq_of_pairwise ?_ h.ordered h'.ordered
  intro i j _ _ hij hji
  obtain hlt | ⟨heq, hpos⟩ := hij
  · obtain hlt' | ⟨heq', _⟩ := hji
    · exact absurd hlt hlt'.asymm
    · exact absurd hlt heq'.not_lt
  · obtain hlt' | ⟨_, hpos'⟩ := hji
    · exact absurd heq hlt'.ne
    · exact absurd hpos hpos'.asymm

/-! ## Rescaling -/

/-- A list of scores has a lowest and a highest, and rescaling is by them. -/
theorem minmax_eq {scores : List Rat} (hne : scores ≠ []) :
    ∃ low ∈ scores, ∃ high ∈ scores, (∀ v ∈ scores, low ≤ v ∧ v ≤ high) ∧
      minmax scores = if high - low < MIN_RANGE then scores.map fun _ => 0
        else scores.map fun v => (v - low) / (high - low) := by
  obtain ⟨low, hlow⟩ := Option.ne_none_iff_exists'.mp (mt List.min?_eq_none_iff.mp hne)
  obtain ⟨high, hhigh⟩ := Option.ne_none_iff_exists'.mp (mt List.max?_eq_none_iff.mp hne)
  obtain ⟨hlowmem, hlowle⟩ := List.min?_eq_some_iff.mp hlow
  obtain ⟨hhighmem, hhighle⟩ := List.max?_eq_some_iff.mp hhigh
  refine ⟨low, hlowmem, high, hhighmem, fun v hv => ⟨hlowle v hv, hhighle v hv⟩, ?_⟩
  unfold minmax
  rw [hlow, hhigh]

theorem min_range_pos : 0 < MIN_RANGE := by decide +kernel

/-- Scores in a narrow range are rescaled to zero. -/
theorem minmax_of_not_spread {scores : List Rat} (h : ¬Spread scores) :
    minmax scores = scores.map fun _ => 0 := by
  by_cases hne : scores = []
  · subst hne
    rfl
  · obtain ⟨low, hlow, high, hhigh, _, heq⟩ := minmax_eq hne
    rw [heq, if_pos]
    by_contra hwide
    exact h ⟨high, hhigh, low, hlow, not_lt.mp hwide⟩

/-- Scores in a wide range compare as before. -/
theorem minmax_lt_iff {scores : List Rat} (h : Spread scores) {i j : Nat}
    (hi : i < scores.length) (hj : j < scores.length) :
    (minmax scores).getD i 0 < (minmax scores).getD j 0 ↔ scores.getD i 0 < scores.getD j 0 := by
  obtain ⟨a, ha, b, hb, hwide⟩ := h
  obtain ⟨low, _, high, _, hbounds, heq⟩ := minmax_eq (List.ne_nil_of_mem ha)
  have hrange : MIN_RANGE ≤ high - low :=
    hwide.trans (sub_le_sub (hbounds a ha).2 (hbounds b hb).1)
  have hpos : 0 < high - low := min_range_pos.trans_le hrange
  rw [heq, if_neg (not_lt.mpr hrange)]
  simp only [List.getD_eq_getElem?_getD, List.getElem?_map, List.getElem?_eq_getElem hi,
    List.getElem?_eq_getElem hj, Option.map_some, Option.getD_some]
  rw [div_lt_div_iff_of_pos_right hpos, sub_lt_sub_iff_right]

/-! ## The reranker -/

@[simp] theorem length_blend (vectorScores lexical : List Rat) (weight : Rat) :
    (blend vectorScores lexical weight).length = min vectorScores.length lexical.length := by
  unfold blend
  rw [List.length_zipWith, length_minmax, length_minmax]

/-- Without a lexical share the blend is the rescaled vector scores. -/
theorem blend_zero {vectorScores lexical : List Rat}
    (hlength : vectorScores.length = lexical.length) :
    blend vectorScores lexical 0 = minmax vectorScores := by
  have hparallel : (minmax vectorScores).length = (minmax lexical).length := by
    rw [length_minmax, length_minmax, hlength]
  have hfirst := List.map_fst_zip hparallel.le
  rw [List.zip, List.map_zipWith] at hfirst
  unfold blend
  simp only [sub_zero, one_mul, zero_mul, add_zero]
  exact hfirst

namespace LexicalReranker

theorem rerank_eq (S : Scoring) (reranker : LexicalReranker) (query : String)
    {documents : List String} {vectorScores : List Rat}
    (hparallel : vectorScores.length = documents.length) :
    reranker.rerank S query documents vectorScores =
      .ok (descendingIndices
        (blend vectorScores (lexicalScores S query documents) reranker.lexicalWeight)) := by
  have hlength : (blend vectorScores (lexicalScores S query documents)
      reranker.lexicalWeight).length = documents.length := by
    rw [length_blend, length_lexicalScores, hparallel, Nat.min_self]
  unfold rerank
  by_cases hempty : documents = []
  · subst hempty
    rw [if_pos rfl]
    unfold descendingIndices
    rw [hlength, List.length_nil, List.range_zero, List.mergeSort_nil]
  · rw [if_neg hempty, if_neg (not_not.mpr hparallel)]
    unfold descendingIndices
    rw [hlength]

/-- Every weight gives an arrangement of the indices. -/
theorem rerank_perm (S : Scoring) (reranker : LexicalReranker) (query : String)
    {documents : List String} {vectorScores : List Rat}
    (hparallel : vectorScores.length = documents.length) :
    ∃ order, reranker.rerank S query documents vectorScores = .ok order ∧
      order.Perm (List.range documents.length) := by
  refine ⟨_, rerank_eq S reranker query hparallel, ?_⟩
  have hperm := (stableDescending_indices
    (blend vectorScores (lexicalScores S query documents) reranker.lexicalWeight)).perm
  rwa [length_blend, length_lexicalScores, hparallel, Nat.min_self] at hperm

/-- At weight zero, scores in a wide range keep their order. -/
theorem stableDescending_of_spread {vectorScores : List Rat} (h : Spread vectorScores) :
    StableDescending vectorScores (descendingIndices (minmax vectorScores)) := by
  refine (stableDescending_indices (minmax vectorScores)).congr (length_minmax _) ?_
  intro i hi j hj
  rw [length_minmax] at hi hj
  exact minmax_lt_iff h hi hj

/-- Scores that are all the same leave the indices as they are. -/
theorem descendingIndices_constant (scores : List Rat) :
    descendingIndices (scores.map fun _ => 0) = List.range scores.length := by
  unfold descendingIndices
  rw [List.length_map]
  apply List.mergeSort_of_pairwise
  apply List.pairwise_lt_range.imp_of_mem
  intro i j hi hj _
  have hi := List.mem_range.mp hi
  have hj := List.mem_range.mp hj
  rw [decide_eq_true_eq, List.getD_eq_getElem _ 0 (by simpa using hi),
    List.getD_eq_getElem _ 0 (by simpa using hj), List.getElem_map, List.getElem_map]

theorem stableDescending_range_iff {scores : List Rat} :
    StableDescending scores (List.range scores.length) ↔ NonIncreasing scores := by
  unfold NonIncreasing
  rw [List.pairwise_iff_getElem]
  constructor
  · intro h i j hi hj hij
    have hpair := List.pairwise_iff_getElem.mp h.ordered i j (by simpa using hi) (by simpa using hj)
      hij
    simp only [List.getElem_range, List.getD_eq_getElem _ 0 hi, List.getD_eq_getElem _ 0 hj] at hpair
    obtain hlt | ⟨heq, _⟩ := hpair
    · exact hlt.le
    · exact heq.ge
  · intro h
    refine ⟨.rfl, List.pairwise_lt_range.imp_of_mem ?_⟩
    intro i j hi hj hij
    have hi := List.mem_range.mp hi
    have hj := List.mem_range.mp hj
    have hle := h i j hi hj hij
    rw [List.getD_eq_getElem _ 0 hi, List.getD_eq_getElem _ 0 hj]
    rcases hle.lt_or_eq with hlt | heq
    · exact .inl hlt
    · exact .inr ⟨heq.symm, hij⟩

/-- At weight zero the order is that of the vector scores, exactly when these
are spread or in order already; and every weight gives an arrangement of the
indices. -/
theorem rerank_zero_iff (S : Scoring) (query : String) (documents : List String)
    (vectorScores : List Rat) (hparallel : vectorScores.length = documents.length) :
    ((∃ order, (LexicalReranker.mk 0).rerank S query documents vectorScores = .ok order ∧
        StableDescending vectorScores order) ↔
      Spread vectorScores ∨ NonIncreasing vectorScores) ∧
    ∀ reranker : LexicalReranker,
      ∃ order, reranker.rerank S query documents vectorScores = .ok order ∧
        order.Perm (List.range documents.length) := by
  refine ⟨?_, fun reranker => rerank_perm S reranker query hparallel⟩
  have hlexical : vectorScores.length = (lexicalScores S query documents).length := by
    rw [length_lexicalScores, hparallel]
  rw [rerank_eq S _ query hparallel, blend_zero hlexical]
  simp only [Except.ok.injEq, exists_eq_left']
  by_cases hspread : Spread vectorScores
  · exact iff_of_true (stableDescending_of_spread hspread) (.inl hspread)
  · rw [minmax_of_not_spread hspread, descendingIndices_constant, stableDescending_range_iff]
    exact ⟨.inr, fun h => h.resolve_left hspread⟩

end LexicalReranker

/-! ## Two documents -/

/-- Text functions of ASCII, and a logarithm that knows no value but zero. -/
def asciiScoring : Scoring where
  text := asciiUnicode
  log _ := 0

theorem rerank_zero_iff_apart :
    ∃ order, (LexicalReranker.mk 0).rerank asciiScoring "a" ["b", "a"] [1 / 10, 2 / 10] =
        .ok order ∧ StableDescending [1 / 10, 2 / 10] order := by
  have hspread : Spread [1 / 10, 2 / 10] :=
    ⟨2 / 10, by simp, 1 / 10, by simp, by decide +kernel⟩
  exact (LexicalReranker.rerank_zero_iff asciiScoring "a" ["b", "a"] [1 / 10, 2 / 10] rfl).1.mpr
    (.inl hspread)

/-- Two scores in ascending order, closer than the range that is rescaled. -/
def closeScores : List Rat := [0, 1 / 10 ^ 13]

theorem close_scores_keep_input_order :
    (LexicalReranker.mk 0).rerank asciiScoring "a" ["b", "a"] closeScores = .ok [0, 1] ∧
      ¬StableDescending closeScores [0, 1] := by
  have hspread : ¬Spread closeScores := by
    unfold Spread closeScores
    simp only [List.mem_cons, List.not_mem_nil, or_false, exists_eq_or_imp, exists_eq_left]
    decide +kernel
  constructor
  · rw [LexicalReranker.rerank_eq asciiScoring _ "a" rfl, blend_zero (by simp [closeScores]),
      minmax_of_not_spread hspread, LexicalReranker.descendingIndices_constant]
    rfl
  · intro h
    have hpair := List.pairwise_cons.mp h.ordered
    obtain hlt | ⟨heq, _⟩ := hpair.1 1 (by simp)
    · exact absurd hlt (by decide +kernel)
    · exact absurd heq (by decide +kernel)

end VirtualContributor.Retrieval
