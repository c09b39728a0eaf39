import Mathlib
import VirtualContributor.Messaging.Events
import VirtualContributor.Plugins.ExpertPassages
import VirtualContributor.Retrieval.HybridRetrieval
import VirtualContributor.Retrieval.Routing

/-!
# The passages of a guidance answer

`GuidancePlugin.handle` merges what three collections returned into one list
of passages, ranks it, drops what is below the threshold or from a page that
is already there, and cuts it to the top K and to the context budget.
-/

namespace VirtualContributor.Plugins

open Lib Retrieval Messaging

/-- The libraries beside the ports: the text tables, the validation of a
`Source` from its URL, title and score, and whether a question is complex. -/
structure GuidanceHost where
  text : UnicodeText
  source : Json → Json → Option Rat → Except Exc Source
  isComplex : String → Bool

structure GuidancePlugin where
  nResults : Nat := 5
  scoreThreshold : Rat := 3 / 10
  maxContextChars : Nat := 20000
  answeringTemperature : Option Rat := none
  chainOfThoughtEnabled : Bool := true
  hybridConfig : Option HybridSettings := none
  reranker : Option Rerank := none
  rerankCandidateN : Nat := 20
  rerankTopK : Nat := 5
  queryRouter : Option Classify := none
  routingTable : RouteClass → Option RetrievalProfile := DEFAULT_ROUTING_TABLE

/-- `DEFAULT_COLLECTIONS`. -/
def DEFAULT_COLLECTIONS : List String :=
  ["alkem.io-knowledge", "welcome.alkem.io-knowledge", "www.alkemio.org-knowledge"]

/-- A passage of a collection, with its rank there. -/
structure RankedPassage where
  rank : Nat
  document : String
  source : Source
  metadata : Metadata

namespace GuidancePlugin

variable (host : GuidanceHost) (plugin : GuidancePlugin)

/-! ## One collection -/

/-- `rows[0][i] if rows else default`. -/
def cellOr {α : Type} (rows : List (List α)) (default : α) (i : Nat) : Except Exc α :=
  match rows with
  | [] => .ok default
  | row :: _ => pythonIndex row i

/-- The body of the loop over the documents. -/
def rankedPassage (collection : String) (result : QueryResult) (i : Nat) (document : String) :
    Except Exc RankedPassage := do
  let distance ← cellOr result.distances (some 1) i
  let score := distance.map fun d => 1 - d
  let metadata ← cellOr result.metadatas [] i
  let sourceUrl := dictGet metadata "source" (.str collection)
  let source ← host.source sourceUrl (dictGet metadata "title" .null) score
  return { rank := i, document, source, metadata }

/-- The loop over the documents.  An exception ends it, and the passages
before it stay. -/
def rankedPassages (collection : String) (result : QueryResult) :
    List (String × Nat) → List RankedPassage
  | [] => []
  | (document, i) :: rest =>
    match rankedPassage host collection result i document with
    | .error _ => []
    | .ok passage => passage :: rankedPassages collection result rest

/-- `_query_collection`, after the query. -/
def collectionPassages (collection : String) : Except Exc QueryResult → List RankedPassage
  | .error _ => []
  | .ok result => rankedPassages host collection result (firstRow result.documents).zipIdx

/-! ## Ranking -/

/-- `score if score is not None else 0.0`, which is also `score or 0.0`. -/
def scoreOrZero (source : Source) : Rat := source.score.getD 0

/-- The sort key with hybrid retrieval: the rank, whether there is a score,
and the score from the highest down. -/
def hybridKey (passage : RankedPassage) : Nat ×ₗ Bool ×ₗ Rat :=
  toLex (passage.rank, toLex (passage.source.score.isSome, -scoreOrZero passage.source))

/-- The ranking of the merged passages. -/
def sortPassages (ranked : List RankedPassage) : List RankedPassage :=
  let hybridEnabled : Bool :=
    match plugin.hybridConfig with
    | none => false
    | some config => config.hybridRetrievalEnabled
  if hybridEnabled then ranked.mergeSort fun a b => hybridKey a ≤ hybridKey b
  else ranked.mergeSort fun a b => -scoreOrZero a.source ≤ -scoreOrZero b.source

/-- Re-rank the merged pool. -/
def rerankPassages (question : String) (passages : List RankedPassage) :
    Except Exc (List RankedPassage) :=
  match plugin.reranker with
  | none => .ok passages
  | some rerank => do
    let order ← rerank question (passages.map RankedPassage.document)
      (passages.map fun passage => scoreOrZero passage.source)
    order.mapM (pythonIndex passages)

/-! ## Selection -/

/-- `src.score is None or src.score >= score_threshold`. -/
def passesThreshold (scoreThreshold : Rat) (passage : RankedPassage) : Bool :=
  match passage.source.score with
  | none => true
  | some score => scoreThreshold ≤ score

/-- The page of a passage; a passage without a source is a page of its own. -/
def sourceKey (passage : RankedPassage) (idx : Nat) : String :=
  match passage.source.source with
  | none | some "" => s!"__no_source_{idx}__"
  | some source => source

/-- The loop that keeps the first passage of each page. -/
def dedupe : List String → List (RankedPassage × Nat) → List RankedPassage
  | _, [] => []
  | seenSources, (passage, idx) :: rest =>
    let key := sourceKey passage idx
    if key ∈ seenSources then dedupe seenSources rest
    else passage :: dedupe (key :: seenSources) rest

/-- The passages up to the context budget. -/
def selectPassages (question : String) (profile : RetrievalProfile)
    (ranked : List RankedPassage) : Except Exc (List RankedPassage) := do
  let passages ← plugin.rerankPassages question (plugin.sortPassages ranked)
  let passing := passages.filter (passesThreshold profile.scoreThreshold)
  let deduped := dedupe [] passing.zipIdx
  return deduped.take (if plugin.reranker.isSome then plugin.rerankTopK else profile.nResults)

/-! ## The context budget -/

/-- The loop over the blocks with their passages.  It ends at the first that
does not fit. -/
def keepPassages (budget : Nat) : List String × List RankedPassage → Nat →
    List (String × RankedPassage) → List String × List RankedPassage
  | kept, _, [] => kept
  | kept, accumulated, (block, passage) :: rest =>
    let size := renderedDocumentBudgetSize block passage.document
    if budget < accumulated + size then kept
    else keepPassages budget (kept.1 ++ [block], kept.2 ++ [passage]) (accumulated + size) rest

/-- The blocks of the passages, numbered from 1. -/
def formattedBlocks (passages : List RankedPassage) : List String :=
  passages.zipIdx.map fun e =>
    renderDocumentBlock host.text e.2.succPNat e.1.document e.1.metadata false

/-- The blocks and the passages that the budget keeps. -/
def enforceBudget (budget : Nat) (passages : List RankedPassage) :
    List String × List RankedPassage :=
  let blocks := formattedBlocks host passages
  let total :=
    ((blocks.zip passages).map fun e => renderedDocumentBudgetSize e.1 e.2.document).sum
  if budget < total then keepPassages budget ([], []) 0 (blocks.zip passages)
  else (blocks, passages)

/-! ## The context -/

/-- What the passages of an answer come to. -/
structure GuidanceContext where
  blocks : List String
  passages : List RankedPassage

/-- The string that the blocks are joined to. -/
def GuidanceContext.context (kept : GuidanceContext) : String := joinDocumentBlocks kept.blocks

/-- From the outcomes of the three queries to the kept blocks.  A route
without retrieval has queried nothing. -/
def guidanceContext (question : String) (profile : RetrievalProfile)
    (outcomes : List (String × Except Exc QueryResult)) : Except Exc GuidanceContext := do
  let ranked :=
    if profile.retrieve then outcomes.flatMap fun e => collectionPassages host e.1 e.2 else []
  let passages ← plugin.selectPassages question profile ranked
  let kept := enforceBudget host profile.maxContextChars passages
  return { blocks := kept.1, passages := kept.2 }

end GuidancePlugin

end VirtualContributor.Plugins
