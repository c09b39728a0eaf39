import VirtualContributor.Lib.Checks
import VirtualContributor.Plugins.Expert
import VirtualContributor.Retrieval.ContextSize

/-!
# Which passages an expert answer is grounded in

The stages after the retriever rewrite four parallel lists.  Seen row by row
they keep the ranked order of the retrieved rows, drop those below the
threshold, and keep a prefix of the rest: `SelectedPassages` says so of the
outcome, and `selectPassages_selects` proves it for every retrieved result
and every permutation of a reranker.

* `filterAndFormat_eq`: after re-ranking or without it, the threshold keeps
  the eligible rows in ranked order, each with its own document, metadata,
  distance and id.
* `enforceContextBudget_eq`: the context budget keeps the longest prefix of
  the rows whose charge, separators included, fits.
-/

namespace VirtualContributor.Plugins

open Lib Retrieval

/-! ## Retrieved rows -/

/-- The retrieved row at an index of the store's result.  Lists that are
shorter than the documents are filled up; `missing` fills the distances. -/
def retrievedRow (missing : Option Rat) (result : QueryResult) (i : Nat) : Row where
  document := (firstRow result.documents).getD i ""
  metadata := (firstRow result.metadatas).getD i []
  distance := (firstRow result.distances).getD i missing
  id := (firstRow result.ids).getD i ""

/-- Whether the threshold lets a retrieved row through: its score passes, or
its distance is `None`.  A row beyond the list of distances scores zero. -/
def eligible (result : QueryResult) (scoreThreshold : Rat) (i : Nat) : Bool :=
  match (firstRow result.distances)[i]? with
  | some none => true
  | some (some distance) => scoreThreshold ≤ 1 - distance
  | none => scoreThreshold ≤ 0

def Row.passage (row : Row) : Passage := (row.document, row.metadata)

/-- The ranked order of the retrieved rows: that of the reranker, if there is
one. -/
structure RankedBy (plugin : ExpertPlugin) (query : String) (result : QueryResult)
    (order : List Nat) : Prop where
  permutation : order.Perm (List.range (firstRow result.documents).length)
  unranked : plugin.reranker = none → order = List.range (firstRow result.documents).length
  reranked : ∀ rerank, plugin.reranker = some rerank → firstRow result.documents ≠ [] →
    rerank query (firstRow result.documents)
      (vectorScores (firstRow result.documents) (firstRow result.distances)) =
        .ok (order.map Int.ofNat)

/-! ## Re-ranking -/

theorem indexOr_ofNat {α : Type} (xs : List α) (default : α) (i : Nat) :
    indexOr xs default (Int.ofNat i) = .ok (xs.getD i default) := by
  unfold indexOr
  rw [List.getD_eq_getElem?_getD]
  split
  · rename_i hlt
    have h : i < xs.length := Int.ofNat_lt.mp hlt
    rw [pythonIndex_ofNat h, List.getElem?_eq_getElem h]
    rfl
  · rename_i hge
    have h : xs.length ≤ i := Nat.le_of_not_lt fun hlt => hge (Int.ofNat_lt.mpr hlt)
    rw [List.getElem?_eq_none h]
    rfl

theorem mapM_indices {α : Type} {f : Int → Except Exc α} {g : Nat → α} {order : List Nat}
    (h : ∀ i ∈ order, f (Int.ofNat i) = .ok (g i)) :
    (order.map Int.ofNat).mapM f = .ok (order.map g) := by
  rw [mapM_eq_ok, List.forall₂_map_left_iff, List.forall₂_map_right_iff]
  exact List.forall₂_same.mpr h

/-- The result in another order. -/
def reordered (result : QueryResult) (order : List Nat) : QueryResult where
  documents := [order.map fun i => (firstRow result.documents).getD i ""]
  metadatas := [order.map fun i => (firstRow result.metadatas).getD i []]
  distances := [order.map fun i => (firstRow result.distances).getD i (some 1)]
  ids := [order.map fun i => (firstRow result.ids).getD i ""]

/-- A permutation of the indices permutes the four lists alike. -/
theorem applyRerank_eq {rerank : Rerank} {query : String} {result : QueryResult}
    {order : List Nat} (hne : firstRow result.documents ≠ [])
    (hperm : order.Perm (List.range (firstRow result.documents).length))
    (hrerank : rerank query (firstRow result.documents)
      (vectorScores (firstRow result.documents) (firstRow result.distances)) =
        .ok (order.map Int.ofNat)) :
    applyRerank rerank query result = .ok (reordered result order) := by
  have hdocuments : (order.map Int.ofNat).mapM (pythonIndex (firstRow result.documents)) =
      .ok (order.map fun i => (firstRow result.documents).getD i "") := by
    apply mapM_indices
    intro i hmem
    have hlt : i < (firstRow result.documents).length := List.mem_range.mp (hperm.mem_iff.mp hmem)
    rw [pythonIndex_ofNat hlt, List.getD_eq_getElem?_getD, List.getElem?_eq_getElem hlt]
    rfl
  unfold applyRerank
  dsimp only
  rw [if_neg (by simpa using hne), hrerank]
  show (do
    let documents ← (order.map Int.ofNat).mapM (pythonIndex (firstRow result.documents))
    let metadatas ← (order.map Int.ofNat).mapM (indexOr (firstRow result.metadatas) [])
    let distances ← (order.map Int.ofNat).mapM (indexOr (firstRow result.distances) (some 1))
    let ids ← (order.map Int.ofNat).mapM (indexOr (firstRow result.ids) "")
    pure (QueryResult.mk [documents] [metadatas] [distances] [ids])) = _
  rw [hdocuments, mapM_indices fun i _ => indexOr_ofNat _ _ i,
    mapM_indices fun i _ => indexOr_ofNat _ _ i, mapM_indices fun i _ => indexOr_ofNat _ _ i]
  rfl

/-! ## The relevance threshold -/

/-- The row that the threshold keeps at an index. -/
def eligibleRow (missing : Option Rat) (result : QueryResult) (scoreThreshold : Rat) (i : Nat) :
    Option Row :=
  if eligible result scoreThreshold i then some (retrievedRow missing result i) else none

/-- Without re-ranking a row is looked up at its own index. -/
theorem keptRow_of_lt {result : QueryResult} {scoreThreshold : Rat} {i : Nat} :
    keptRow result scoreThreshold ((firstRow result.documents).getD i "", i) =
      eligibleRow none result scoreThreshold i := by
  unfold keptRow eligibleRow eligible retrievedRow
  rfl

/-- After re-ranking a row is looked up at the place of its index in the
order. -/
theorem keptRow_reordered {result : QueryResult} {scoreThreshold : Rat} {order : List Nat}
    {i place : Nat} (hplace : order[place]? = some i) :
    keptRow (reordered result order) scoreThreshold
        ((firstRow result.documents).getD i "", place) =
      eligibleRow (some 1) result scoreThreshold i := by
  have hdistance : (firstRow (reordered result order).distances)[place]? =
      some ((firstRow result.distances).getD i (some 1)) := by
    show (order.map fun i => (firstRow result.distances).getD i (some 1))[place]? = _
    rw [List.getElem?_map, hplace]
    rfl
  have hmetadata : (firstRow (reordered result order).metadatas).getD place [] =
      (firstRow result.metadatas).getD i [] := by
    show (order.map fun i => (firstRow result.metadatas).getD i []).getD place [] = _
    rw [List.getD_eq_getElem?_getD, List.getElem?_map, hplace]
    rfl
  have hid : (firstRow (reordered result order).ids).getD place "" =
      (firstRow result.ids).getD i "" := by
    show (order.map fun i => (firstRow result.ids).getD i "").getD place "" = _
    rw [List.getD_eq_getElem?_getD, List.getElem?_map, hplace]
    rfl
  unfold keptRow eligibleRow eligible retrievedRow
  dsimp only
  rw [hdistance, hmetadata, hid, List.getD_eq_getElem?_getD]
  cases (firstRow result.distances)[i]? with
  | none => simp
  | some distance => cases distance <;> rfl

/-- The rows that the threshold keeps are the eligible ones. -/
theorem filterMap_eligibleRow (missing : Option Rat) (result : QueryResult) (scoreThreshold : Rat)
    (order : List Nat) :
    order.filterMap (eligibleRow missing result scoreThreshold) =
      (order.filter (eligible result scoreThreshold)).map (retrievedRow missing result) := by
  induction order with
  | nil => rfl
  | cons i order ih =>
    by_cases hkept : eligible result scoreThreshold i = true
    · have hrow :
          eligibleRow missing result scoreThreshold i = some (retrievedRow missing result i) :=
        if_pos hkept
      rw [List.filterMap_cons_some hrow, List.filter_cons, if_pos hkept, List.map_cons, ih]
    · have hnone : eligibleRow missing result scoreThreshold i = none := if_neg hkept
      rw [List.filterMap_cons_none hnone, List.filter_cons, if_neg hkept, ih]

/-- What the threshold keeps of lists that are read off in an order. -/
theorem filterMap_keptRow {missing : Option Rat} {result ranked : QueryResult}
    {scoreThreshold : Rat} {order : List Nat}
    (hdocuments : firstRow ranked.documents =
      order.map fun i => (firstRow result.documents).getD i "")
    (hrows : ∀ i place, order[place]? = some i →
      keptRow ranked scoreThreshold ((firstRow result.documents).getD i "", place) =
        eligibleRow missing result scoreThreshold i) :
    (firstRow ranked.documents).zipIdx.filterMap (keptRow ranked scoreThreshold) =
      (order.filter (eligible result scoreThreshold)).map (retrievedRow missing result) := by
  have hplaces : order.zipIdx.filterMap (fun e => eligibleRow missing result scoreThreshold e.1) =
      order.filterMap (eligibleRow missing result scoreThreshold) := by
    conv_rhs => rw [← List.zipIdx_map_fst 0 order, List.filterMap_map]
    rfl
  rw [hdocuments, List.zipIdx_map, List.filterMap_map, ← filterMap_eligibleRow, ← hplaces]
  apply List.filterMap_congr
  intro e hmem
  exact hrows e.1 e.2 (List.mem_zipIdx_iff_getElem?.mp hmem)

/-- The blocks of some rows. -/
def renderRows (T : UnicodeText) (hierarchy : Bool) (rows : List Row) : List String :=
  renderBlocks T hierarchy (rows.map Row.passage)

theorem filterAndFormat_of_rows {T : UnicodeText} {ranked : QueryResult} {scoreThreshold : Rat}
    {hierarchy : Bool} {rows : List Row}
    (hrows : (firstRow ranked.documents).zipIdx.filterMap (keptRow ranked scoreThreshold) = rows) :
    filterAndFormat T ranked scoreThreshold hierarchy =
      (renderRows T hierarchy rows, resultOfRows rows) := by
  unfold filterAndFormat renderRows renderBlocks
  rw [hrows, List.zipIdx_map, List.map_map]
  rfl

/-- What fills up a list of distances. -/
def missingDistance (plugin : ExpertPlugin) : Option Rat :=
  if plugin.reranker.isSome then some 1 else none

theorem map_getD_range {α : Type} (xs : List α) (default : α) :
    (List.range xs.length).map (fun i => xs.getD i default) = xs := by
  apply List.ext_getElem
  · rw [List.length_map, List.length_range]
  · intro i hi hi'
    rw [List.getElem_map, List.getElem_range, List.getD_eq_getElem?_getD,
      List.getElem?_eq_getElem hi', Option.getD_some]

/-- The rows that are eligible, in ranked order. -/
def eligibleRows (plugin : ExpertPlugin) (result : QueryResult) (scoreThreshold : Rat)
    (order : List Nat) : List Row :=
  (order.filter (eligible result scoreThreshold)).map
    (retrievedRow (missingDistance plugin) result)

/-- Re-ranking and the threshold leave the eligible rows, in ranked order. -/
theorem filterAndFormat_eq {plugin : ExpertPlugin} {query : String} {result : QueryResult}
    {order : List Nat} (h : RankedBy plugin query result order) (T : UnicodeText)
    (scoreThreshold : Rat) (hierarchy : Bool) :
    ∃ ranked, plugin.maybeRerank query result = .ok ranked ∧
      filterAndFormat T ranked scoreThreshold hierarchy =
        (renderRows T hierarchy (eligibleRows plugin result scoreThreshold order),
          resultOfRows (eligibleRows plugin result scoreThreshold order)) := by
  unfold ExpertPlugin.maybeRerank eligibleRows missingDistance
  cases hreranker : plugin.reranker with
  | none =>
    have horder := h.unranked hreranker
    refine ⟨result, rfl, filterAndFormat_of_rows (filterMap_keptRow ?_ ?_)⟩
    · rw [horder, map_getD_range]
    · intro i place hplace
      have hsame : place = i := by
        rw [horder] at hplace
        obtain ⟨hlt, heq⟩ := List.getElem?_eq_some_iff.mp hplace
        rw [List.getElem_range] at heq
        exact heq
      subst hsame
      exact keptRow_of_lt
  | some rerank =>
    by_cases hne : firstRow result.documents = []
    · have hnil : order = [] := by
        have hperm := h.permutation
        rw [hne] at hperm
        exact hperm.eq_nil
      refine ⟨result, ?_, filterAndFormat_of_rows ?_⟩
      · exact if_pos (by rw [hne]; rfl)
      · rw [hne, hnil]
        rfl
    · refine ⟨reordered result order,
        applyRerank_eq hne h.permutation (h.reranked rerank hreranker hne),
        filterAndFormat_of_rows (filterMap_keptRow rfl ?_)⟩
      intro i place hplace
      exact keptRow_reordered hplace

/-! ## The cut to the top K -/

theorem takeRows_resultOfRows (k : Nat) (rows : List Row) :
    takeRows k (resultOfRows rows) = resultOfRows (rows.take k) := by
  unfold takeRows resultOfRows
  simp only [firstRow, List.headD_cons, List.map_take]

theorem take_renderRows {T : UnicodeText} {hierarchy : Bool} (rows : List Row) (k : Nat) :
    (renderRows T hierarchy rows).take k = renderRows T hierarchy (rows.take k) := by
  unfold renderRows
  rw [take_renderBlocks, List.map_take]

/-- The first elements, when there is a reranker. -/
def cutToTopK {α : Type} (plugin : ExpertPlugin) (xs : List α) : List α :=
  if plugin.reranker.isNone then xs else xs.take plugin.rerankTopK

theorem truncateToTopK_eq {T : UnicodeText} {hierarchy : Bool} (plugin : ExpertPlugin)
    (rows : List Row) :
    plugin.truncateToTopK (renderRows T hierarchy rows) (resultOfRows rows) =
      (renderRows T hierarchy (cutToTopK plugin rows), resultOfRows (cutToTopK plugin rows)) := by
  unfold ExpertPlugin.truncateToTopK cutToTopK
  split
  · rfl
  · rw [take_renderRows, takeRows_resultOfRows]

theorem cutToTopK_map {α β : Type} (plugin : ExpertPlugin) (f : α → β) (xs : List α) :
    cutToTopK plugin (xs.map f) = (cutToTopK plugin xs).map f := by
  unfold cutToTopK
  split
  · rfl
  · rw [List.map_take]

theorem cutToTopK_isPrefix {α : Type} (plugin : ExpertPlugin) (xs : List α) :
    cutToTopK plugin xs <+: xs := by
  unfold cutToTopK
  split
  · exact List.prefix_refl xs
  · exact List.take_prefix _ xs

theorem length_cutToTopK_le {α : Type} {plugin : ExpertPlugin}
    (h : plugin.reranker.isSome = true) (xs : List α) :
    (cutToTopK plugin xs).length ≤ plugin.rerankTopK := by
  have hsome : ¬plugin.reranker.isNone = true := by simp [Option.isSome_iff_ne_none.mp h]
  unfold cutToTopK
  rw [if_neg hsome]
  exact List.length_take_le _ xs

/-! ## The context budget -/

section

variable (T : UnicodeText) (hierarchy : Bool)

/-- What the context of some rows is charged: their blocks and the separators
between them. -/
def rowsCharge (rows : List Row) : Nat :=
  blocksCharge T hierarchy (rows.map Row.passage) + interBlockBudgetSize rows.length

/-- What the budget loop has kept when it has kept some rows. -/
def Budgeted.ofRows (rows : List Row) : Budgeted where
  blocks := renderRows T hierarchy rows
  documents := rows.map Row.document
  metadatas := rows.map Row.metadata
  distances := rows.map Row.distance
  ids := rows.map Row.id
  accumulated := rowsCharge T hierarchy rows

variable {T hierarchy}

theorem grows_rowsCharge : Grows (rowsCharge T hierarchy) := by
  intro xs ys
  unfold rowsCharge
  have hblocks := @grows_blocksCharge T hierarchy (xs.map Row.passage)
    (ys.map Row.passage)
  have hseparators : interBlockBudgetSize xs.length ≤ interBlockBudgetSize (xs ++ ys).length := by
    unfold interBlockBudgetSize
    rw [List.length_append]
    exact Nat.mul_le_mul_right _ (by omega)
  rw [List.map_append]
  exact Nat.add_le_add hblocks hseparators

theorem rowsCharge_append (rows : List Row) (row : Row) :
    rowsCharge T hierarchy (rows ++ [row]) =
      rowsCharge T hierarchy rows +
        (interBlockBudgetSize (rows.length + 1) - interBlockBudgetSize rows.length +
          renderedDocumentBudgetSize
            (renderDocumentBlock T rows.length.succPNat row.document row.metadata hierarchy)
            row.document) := by
  have hseparators : interBlockBudgetSize rows.length ≤ interBlockBudgetSize (rows.length + 1) :=
    Nat.mul_le_mul_right _ (by omega)
  unfold rowsCharge
  rw [List.map_append, List.map_singleton, blocksCharge_append, List.length_append,
    List.length_singleton, List.length_map]
  unfold Row.passage
  dsimp only
  generalize renderedDocumentBudgetSize _ _ = size
  omega

theorem ofRows_append (rows : List Row) (row : Row) :
    Budgeted.ofRows T hierarchy (rows ++ [row]) =
      { blocks := renderRows T hierarchy rows ++
          [renderDocumentBlock T rows.length.succPNat row.document row.metadata hierarchy]
        documents := rows.map Row.document ++ [row.document]
        metadatas := rows.map Row.metadata ++ [row.metadata]
        distances := rows.map Row.distance ++ [row.distance]
        ids := rows.map Row.id ++ [row.id]
        accumulated := rowsCharge T hierarchy (rows ++ [row]) } := by
  unfold Budgeted.ofRows renderRows
  simp only [List.map_append, List.map_singleton, renderBlocks_append, List.length_map]
  rfl

theorem getElem?_map_middle {α : Type} (f : Row → α) (kept rest : List Row) (row : Row) :
    ((kept ++ row :: rest).map f)[kept.length]? = some (f row) := by
  rw [List.getElem?_map, List.getElem?_append_right (Nat.le_refl _), Nat.sub_self]
  rfl

/-- One round of the loop. -/
theorem keepBlocks_cons {kept rest : List Row} {row : Row} (budget : Nat)
    (blocks : List (String × Nat)) :
    keepBlocks (resultOfRows (kept ++ row :: rest)) budget (.ofRows T hierarchy kept)
        ((renderDocumentBlock T kept.length.succPNat row.document row.metadata hierarchy,
          kept.length) :: blocks) =
      if budget < rowsCharge T hierarchy (kept ++ [row]) then .ofRows T hierarchy kept
      else keepBlocks (resultOfRows (kept ++ row :: rest)) budget
        (.ofRows T hierarchy (kept ++ [row])) blocks := by
  have hlength : (renderRows T hierarchy kept).length = kept.length := by
    unfold renderRows
    rw [length_renderBlocks, List.length_map]
  have hcontent : (firstRow (resultOfRows (kept ++ row :: rest)).documents).getD kept.length "" =
      row.document := by
    rw [List.getD_eq_getElem?_getD]
    exact congrArg (Option.getD · "") (getElem?_map_middle Row.document kept rest row)
  have hmetadata : (firstRow (resultOfRows (kept ++ row :: rest)).metadatas)[kept.length]? =
      some row.metadata := getElem?_map_middle Row.metadata kept rest row
  have hdistance : (firstRow (resultOfRows (kept ++ row :: rest)).distances)[kept.length]? =
      some row.distance := getElem?_map_middle Row.distance kept rest row
  have hid : (firstRow (resultOfRows (kept ++ row :: rest)).ids)[kept.length]? = some row.id :=
    getElem?_map_middle Row.id kept rest row
  have hcharge := @rowsCharge_append T hierarchy kept row
  rw [keepBlocks, ofRows_append, hcharge]
  simp only [hcontent, hmetadata, hdistance, hid, Budgeted.ofRows, hlength, Nat.add_assoc]
  rfl

/-- The loop keeps the rows that fit. -/
theorem keepBlocks_eq (budget : Nat) (kept rest : List Row) :
    keepBlocks (resultOfRows (kept ++ rest)) budget (.ofRows T hierarchy kept)
        ((rest.zipIdx kept.length).map fun e =>
          (renderDocumentBlock T e.2.succPNat e.1.document e.1.metadata hierarchy, e.2)) =
      .ofRows T hierarchy (extendWithin (rowsCharge T hierarchy) budget kept rest) := by
  induction rest generalizing kept with
  | nil => rfl
  | cons row rest ih =>
    have hsplit : kept ++ row :: rest = (kept ++ [row]) ++ rest := by
      rw [List.append_assoc]
      rfl
    rw [List.zipIdx_cons, List.map_cons, keepBlocks_cons, extendWithin]
    split
    · rfl
    · have hrest := ih (kept ++ [row])
      rw [List.length_append, List.length_singleton, ← hsplit] at hrest
      exact hrest

/-- The budget keeps the longest prefix of the rows that fits. -/
theorem enforceContextBudget_eq (rows : List Row) (budget : Nat) :
    enforceContextBudget (renderRows T hierarchy rows) (resultOfRows rows) budget =
      (renderRows T hierarchy (fitting (rowsCharge T hierarchy) budget rows),
        resultOfRows (fitting (rowsCharge T hierarchy) budget rows)) := by
  have htotal : totalBudgetSize (renderRows T hierarchy rows)
      (firstRow (resultOfRows rows).documents) = rowsCharge T hierarchy rows := by
    have htexts : firstRow (resultOfRows rows).documents =
        (rows.map Row.passage).map Prod.fst := by
      rw [List.map_map]
      rfl
    unfold totalBudgetSize rowsCharge renderRows
    rw [htexts, ← blocksCharge_eq, length_renderBlocks, List.length_map]
  have hblocks : (renderRows T hierarchy rows).zipIdx =
      (rows.zipIdx ([] : List Row).length).map fun e =>
        (renderDocumentBlock T e.2.succPNat e.1.document e.1.metadata hierarchy, e.2) := by
    apply List.ext_getElem?
    intro i
    unfold renderRows
    rw [List.getElem?_zipIdx, List.getElem?_map, List.getElem?_zipIdx, getElem?_renderBlocks,
      List.getElem?_map, List.length_nil, Nat.zero_add]
    cases rows[i]? with
    | none => rfl
    | some row => rfl
  unfold enforceContextBudget
  rw [htotal]
  split
  · rename_i hfits
    rw [fitting_eq_self grows_rowsCharge hfits]
  · dsimp only
    have hloop := @keepBlocks_eq T hierarchy budget [] rows
    rw [hblocks]
    have hstart : ({} : Budgeted) = .ofRows T hierarchy [] := rfl
    rw [hstart]
    rw [List.nil_append] at hloop
    rw [hloop]
    rfl

end

/-! ## The outcome -/

section

variable (T : UnicodeText) (plugin : ExpertPlugin) (result : QueryResult)
  (profile : RetrievalProfile) (hierarchy : Bool) (order : List Nat)

/-- The outcome is made from retrieved rows: a prefix of the eligible ones in
ranked order, which are listed by their indices. -/
structure SelectedPassages (kept : List Nat) (outcome : RetrievalOutcome) : Prop where
  ranked : kept <+: order.filter (eligible result profile.scoreThreshold)
  blocks : outcome.blocks = kept.zipIdx.map fun e =>
    renderDocumentBlock T e.2.succPNat (retrievedRow (missingDistance plugin) result e.1).document
      (retrievedRow (missingDistance plugin) result e.1).metadata hierarchy
  sources : outcome.result = resultOfRows (kept.map (retrievedRow (missingDistance plugin) result))
  passes : ∀ i ∈ kept, eligible result profile.scoreThreshold i = true
  top_k : plugin.reranker.isSome = true → kept.length ≤ plugin.rerankTopK
  within_budget : outcome.blocks ≠ [] →
    (joinDocumentBlocks outcome.blocks).length ≤ profile.maxContextChars

end

section

variable {σ : Type} {host : ExpertHost σ} {plugin : ExpertPlugin} {result : QueryResult}

/-- The context of the rows that fit is within the budget. -/
theorem length_joinDocumentBlocks_fitting {T : UnicodeText} {hierarchy : Bool} {budget : Nat}
    {rows : List Row}
    (hne : renderRows T hierarchy (fitting (rowsCharge T hierarchy) budget rows) ≠ []) :
    (joinDocumentBlocks
      (renderRows T hierarchy (fitting (rowsCharge T hierarchy) budget rows))).length ≤ budget := by
  have hcharge : rowsCharge T hierarchy (fitting (rowsCharge T hierarchy) budget rows) ≤ budget :=
    charge_fitting_le (Nat.zero_le budget) rows
  generalize fitting (rowsCharge T hierarchy) budget rows = kept at hne hcharge
  have hblocks := @sum_length_add_labelExcess T hierarchy
    (kept.map Row.passage)
  unfold rowsCharge at hcharge
  unfold renderRows at hne ⊢
  rw [length_joinDocumentBlocks hne, length_renderBlocks, List.length_map]
  omega

/-- A prefix of the rows of some indices. -/
theorem renderRows_map {T : UnicodeText} {hierarchy : Bool} (f : Nat → Row) (indices : List Nat) :
    renderRows T hierarchy (indices.map f) = indices.zipIdx.map fun e =>
      renderDocumentBlock T e.2.succPNat (f e.1).document (f e.1).metadata hierarchy := by
  unfold renderRows renderBlocks
  rw [List.map_map, List.zipIdx_map, List.map_map]
  rfl

theorem selectPassages_selects {query : String} {order : List Nat}
    (horder : RankedBy plugin query result order) (profile : RetrievalProfile)
    (hierarchy : Bool) :
    ∃ kept outcome, plugin.selectPassages host query profile hierarchy result = .ok outcome ∧
      SelectedPassages host.text plugin result profile hierarchy order kept outcome := by
  obtain ⟨ranked, hranked, hformatted⟩ :=
    filterAndFormat_eq horder host.text profile.scoreThreshold hierarchy
  let cut := cutToTopK plugin (order.filter (eligible result profile.scoreThreshold))
  let row := retrievedRow (missingDistance plugin) result
  have htruncated : plugin.truncateToTopK
        (filterAndFormat host.text ranked profile.scoreThreshold hierarchy).1
        (filterAndFormat host.text ranked profile.scoreThreshold hierarchy).2 =
      (renderRows host.text hierarchy (cut.map row), resultOfRows (cut.map row)) := by
    rw [hformatted, truncateToTopK_eq]
    unfold eligibleRows
    rw [cutToTopK_map]
  obtain ⟨n, hn⟩ := exists_fitting_eq (rowsCharge host.text hierarchy) profile.maxContextChars
    (cut.map row)
  have hkept : (cut.take n).map row =
      fitting (rowsCharge host.text hierarchy) profile.maxContextChars (cut.map row) := by
    rw [hn, List.map_take]
  have hbegin : cut.take n <+: order.filter (eligible result profile.scoreThreshold) :=
    (List.take_prefix n cut).trans (cutToTopK_isPrefix plugin _)
  let outcome : RetrievalOutcome :=
    { blocks := renderRows host.text hierarchy ((cut.take n).map row)
      result := resultOfRows ((cut.take n).map row)
      initialCount := (renderRows host.text hierarchy (cut.map row)).length
      mode := .flat }
  refine ⟨cut.take n, outcome, ?_, ?_⟩
  · unfold ExpertPlugin.selectPassages
    rw [hranked]
    show Except.ok _ = Except.ok outcome
    rw [htruncated, enforceContextBudget_eq, ← hkept]
  · exact {
      ranked := hbegin
      blocks := renderRows_map row (cut.take n)
      sources := rfl
      passes := fun i hmem => (List.mem_filter.mp (hbegin.subset hmem)).2
      top_k := fun hsome =>
        (List.length_take_le' n cut).trans (length_cutToTopK_le hsome _)
      within_budget := by
        dsimp only [outcome]
        rw [hkept]
        exact length_joinDocumentBlocks_fitting }

/-- How many rows the retriever is asked for. -/
def poolSize (plugin : ExpertPlugin) (profile : RetrievalProfile) : Nat :=
  if plugin.reranker.isSome then max profile.nResults plugin.rerankCandidateN
  else profile.nResults

theorem outcome_retrievePipeline (store : StoreAnswers) (collection query : String)
    (profile : RetrievalProfile) (filter : Option Where) (hierarchy : Bool) :
    store.outcome (plugin.retrievePipeline host collection query profile filter hierarchy) =
      store.outcome (retrieve host.text host.providesLexical collection query plugin.hybridConfig
        (poolSize plugin profile) filter) >>=
      plugin.selectPassages host query profile hierarchy :=
  store.outcome_bind _ _

/-- Whatever the store returns, the outcome of the pipeline is made from a
prefix of the eligible rows in ranked order. -/
theorem pipeline_selects_passages (host : ExpertHost σ) (plugin : ExpertPlugin)
    (store : StoreAnswers) (collection query : String) (profile : RetrievalProfile)
    (filter : Option Where) (hierarchy : Bool) (result : QueryResult) (order : List Nat)
    (hretrieved : store.outcome (retrieve host.text host.providesLexical collection query
      plugin.hybridConfig (poolSize plugin profile) filter) = .ok result)
    (horder : RankedBy plugin query result order) :
    ∃ kept outcome, store.outcome
        (plugin.retrievePipeline host collection query profile filter hierarchy) = .ok outcome ∧
      SelectedPassages host.text plugin result profile hierarchy order kept outcome := by
  obtain ⟨kept, outcome, hselected, hspec⟩ :=
    @selectPassages_selects _ host _ _ _ _ horder profile hierarchy
  refine ⟨kept, outcome, ?_, hspec⟩
  rw [outcome_retrievePipeline, hretrieved]
  exact hselected

/-- Three documents, with lists of different lengths beside them. -/
def raggedResult : QueryResult where
  documents := [["red", "green", "blue"]]
  metadatas := [[[("title", .str "t")]]]
  distances := [[some (1 / 10), none]]
  ids := [["a", "b"]]

/-- A plugin that turns the order of the rows around. -/
def reversingPlugin : ExpertPlugin where
  reranker := some fun _ documents _ => .ok ((List.range documents.length).reverse.map Int.ofNat)
  rerankTopK := 2

theorem pipeline_selects_passages_ragged :
    ∃ kept outcome,
      ({ query := fun _ => .ok raggedResult, queryLexical := fun _ => .ok .empty } :
          StoreAnswers).outcome
        (reversingPlugin.retrievePipeline plainHost "c" "colour" ⟨true, 5, 3 / 10, 20000⟩ none
          false) = .ok outcome ∧
      SelectedPassages plainHost.text reversingPlugin raggedResult ⟨true, 5, 3 / 10, 20000⟩ false
        [2, 1, 0] kept outcome := by
  apply pipeline_selects_passages
  · rfl
  · exact {
      permutation := by decide
      unranked := nofun
      reranked := by
        rintro rerank hrerank _
        obtain rfl := Option.some.inj hrerank
        rfl }

end

end VirtualContributor.Plugins
