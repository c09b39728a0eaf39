import Mathlib
import VirtualContributor.Retrieval.DocumentBlocks

/-!
# The passages of an expert answer

What `ExpertPlugin` does to a query result before it is the context of an
answer: re-ranking, the relevance threshold, the cut to the top K and the
context budget.  Each of them rewrites the four parallel lists of the result.
-/

namespace VirtualContributor.Plugins

open Lib Retrieval

/-- `RerankerPort.rerank`: the candidate indices, best first. -/
abbrev Rerank := String → List String → List Rat → Except Exc (List Int)

/-- Which retrieval produced the rows. -/
inductive RetrievalMode where
  | scopedSuccess
  | flat
deriving DecidableEq

/-- `RetrievalOutcome`: the final blocks and rows. -/
structure RetrievalOutcome where
  blocks : List String
  result : QueryResult
  initialCount : Nat
  mode : RetrievalMode

/-! ## Re-ranking -/

/-- `xs[i]`. -/
def pythonIndex {α : Type} (xs : List α) (i : Int) : Except Exc α :=
  let position := if i < 0 then xs.length + i else i
  match if 0 ≤ position then xs[position.toNat]? else none with
  | some x => .ok x
  | none => .error { typeName := "IndexError", text := "list index out of range" }

theorem pythonIndex_ofNat {α : Type} {xs : List α} {i : Nat} (h : i < xs.length) :
    pythonIndex xs (Int.ofNat i) = .ok xs[i] := by
  have hnonneg : ¬(Int.ofNat i < 0) := Int.not_lt.mpr (Int.natCast_nonneg i)
  unfold pythonIndex
  dsimp only
  rw [if_neg hnonneg, if_pos (Int.not_lt.mp hnonneg)]
  show (match xs[i]? with | some x => Except.ok x | none => _) = _
  rw [List.getElem?_eq_getElem h]

/-- `xs[i] if i < len(xs) else default`. -/
def indexOr {α : Type} (xs : List α) (default : α) (i : Int) : Except Exc α :=
  if i < xs.length then pythonIndex xs i else .ok default

/-- The similarities of the rows; a row without a distance enters neutral. -/
def vectorScores (documents : List String) (distances : List (Option Rat)) : List Rat :=
  documents.zipIdx.map fun entry =>
    match distances[entry.2]? with
    | some (some distance) => 1 - distance
    | _ => 0

/-- `_apply_rerank`. -/
def applyRerank (rerank : Rerank) (query : String) (result : QueryResult) :
    Except Exc QueryResult :=
  let docs := firstRow result.documents
  if docs.isEmpty then .ok result
  else do
    let order ← rerank query docs (vectorScores docs (firstRow result.distances))
    let documents ← order.mapM (pythonIndex docs)
    let metadatas ← order.mapM (indexOr (firstRow result.metadatas) [])
    let distances ← order.mapM (indexOr (firstRow result.distances) (some 1))
    let ids ← order.mapM (indexOr (firstRow result.ids) "")
    return {
      documents := [documents]
      metadatas := [metadatas]
      distances := [distances]
      ids := [ids] }

/-! ## The relevance threshold -/

/-- One row of a result. -/
structure Row where
  document : String
  metadata : Metadata
  distance : Option Rat
  id : String

/-- The result with the given rows. -/
def resultOfRows (rows : List Row) : QueryResult where
  documents := [rows.map Row.document]
  metadatas := [rows.map Row.metadata]
  distances := [rows.map Row.distance]
  ids := [rows.map Row.id]

/-- The row of a document, if it passes the threshold.  A distance of `None`
passes, and a distance missing from a short list scores zero. -/
def keptRow (result : QueryResult) (scoreThreshold : Rat) (entry : String × Nat) : Option Row :=
  let distance := (firstRow result.distances)[entry.2]?
  let keep : Bool :=
    match distance with
    | some none => true
    | some (some d) => scoreThreshold ≤ 1 - d
    | none => scoreThreshold ≤ 0
  if keep then
    some
      { document := entry.1
        metadata := (firstRow result.metadatas).getD entry.2 []
        distance := distance.getD none
        id := (firstRow result.ids).getD entry.2 "" }
  else none

/-- `_filter_and_format`. -/
def filterAndFormat (T : UnicodeText) (result : QueryResult) (scoreThreshold : Rat)
    (hierarchy : Bool) : List String × QueryResult :=
  let rows := (firstRow result.documents).zipIdx.filterMap (keptRow result scoreThreshold)
  let blocks := rows.zipIdx.map fun entry =>
    renderDocumentBlock T entry.2.succPNat entry.1.document entry.1.metadata hierarchy
  (blocks, resultOfRows rows)

/-! ## The cut to the top K -/

/-- The first `k` rows of a result. -/
def takeRows (k : Nat) (result : QueryResult) : QueryResult where
  documents := [(firstRow result.documents).take k]
  metadatas := [(firstRow result.metadatas).take k]
  distances := [(firstRow result.distances).take k]
  ids := [(firstRow result.ids).take k]

/-! ## The context budget -/

/-- What the budget loop has kept. -/
structure Budgeted where
  blocks : List String := []
  documents : List String := []
  metadatas : List Metadata := []
  distances : List (Option Rat) := []
  ids : List String := []
  accumulated : Nat := 0

/-- The loop over the blocks, in their order.  It ends at the first block that
does not fit. -/
def keepBlocks (result : QueryResult) (budget : Nat) : Budgeted → List (String × Nat) → Budgeted
  | kept, [] => kept
  | kept, (block, i) :: rest =>
    let content := (firstRow result.documents).getD i ""
    let documentSize := renderedDocumentBudgetSize block content
    let separatorSize :=
      interBlockBudgetSize (kept.blocks.length + 1) - interBlockBudgetSize kept.blocks.length
    if budget < kept.accumulated + separatorSize + documentSize then kept
    else
      keepBlocks result budget
        { blocks := kept.blocks ++ [block]
          documents := kept.documents ++ [content]
          metadatas := kept.metadatas ++ (firstRow result.metadatas)[i]?.toList
          distances := kept.distances ++ (firstRow result.distances)[i]?.toList
          ids := kept.ids ++ (firstRow result.ids)[i]?.toList
          accumulated := kept.accumulated + (separatorSize + documentSize) } rest

/-- The size of the joined blocks, as it is charged. -/
def totalBudgetSize (blocks documents : List String) : Nat :=
  ((blocks.zip documents).map fun pair => renderedDocumentBudgetSize pair.1 pair.2).sum +
    interBlockBudgetSize blocks.length

/-- `_enforce_context_budget`. -/
def enforceContextBudget (blocks : List String) (result : QueryResult) (budget : Nat) :
    List String × QueryResult :=
  if totalBudgetSize blocks (firstRow result.documents) ≤ budget then (blocks, result)
  else
    let kept := keepBlocks result budget {} blocks.zipIdx
    (kept.blocks,
      { documents := [kept.documents]
        metadatas := [kept.metadatas]
        distances := [kept.distances]
        ids := [kept.ids] })

end VirtualContributor.Plugins
