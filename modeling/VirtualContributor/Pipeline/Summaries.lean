import VirtualContributor.Pipeline.Embedding
import VirtualContributor.Pipeline.Prompts

/-!
# Summaries and the overview

`_map_reduce_summarize`, `DocumentSummaryStep` and
`BodyOfKnowledgeSummaryStep`.

The source runs the map calls and the documents concurrently and applies the
results afterwards in input order.  The calls touch neither the store nor
each other's results, so they are made in input order here.
-/

namespace VirtualContributor.Pipeline

open Lib Program

/-- The separator of partial summaries. -/
def SEPARATOR : String := "\n\n---\n\n"

/-! ## Map-reduce summarisation -/

/-- The prompts and sizes of one use of `_map_reduce_summarize`. -/
structure MapReduce where
  mapRole : LlmRole
  reduceRole : LlmRole
  maxLength : Nat
  mapSystem : String
  mapTemplate : String → Nat → String
  reduceSystem : String
  reduceTemplate : String → Nat → String
  reduceFanin : Nat := 6

namespace MapReduce

/-- One map call.  A failed call gives no partial summary. -/
def mapOne (m : MapReduce) (budget : Nat) (chunk : String) : Ingest (Option String) := do
  match ← llmInvoke m.mapRole ⟨m.mapSystem, m.mapTemplate chunk budget⟩ with
  | .ok mini => pure (some mini)
  | .error _ => pure none

/-- Merge one batch.  A batch of one is passed on, and a failed call falls
back to concatenation. -/
def reduceOne (m : MapReduce) (batch : List String) : Ingest String := do
  match batch with
  | [mini] => pure mini
  | _ =>
    match ← llmInvoke m.reduceRole
        ⟨m.reduceSystem, m.reduceTemplate (SEPARATOR.intercalate batch) m.maxLength⟩ with
    | .ok merged => pure merged
    | .error _ => pure (SEPARATOR.intercalate batch)

/-- One level of the reduce tree. -/
def reduceLevel (m : MapReduce) (minis : List String) : Ingest (List String) :=
  (slices m.reduceFanin minis).mapM (reduceOne m)

/-- Levels until one summary remains.  The first argument bounds their
number. -/
def reduceLevels (m : MapReduce) : Nat → List String → Ingest String
  | 0, minis => pure (minis.headD "")
  | fuel + 1, minis =>
    if minis.length > 1 then do
      let next ← reduceLevel m minis
      reduceLevels m fuel next
    else pure (minis.headD "")

/-- `_map_reduce_summarize`. -/
def summarize (m : MapReduce) (chunks : List String) : Ingest (Except String String) := do
  match chunks with
  | [] => pure (.ok "")
  | _ =>
    if m.reduceFanin < 2 then pure (.error "reduce_fanin must be >= 2")
    else
      match chunks with
      | [chunk] =>
        let mini ← mapOne m m.maxLength chunk
        pure (.ok (mini.getD ""))
      | _ =>
        let budget := max 500 (m.maxLength / max 2 chunks.length)
        let mapped ← chunks.mapM (mapOne m budget)
        let minis := (mapped.filterMap id).filter (· ≠ "")
        match minis with
        | [] => pure (.ok "")
        | _ => do return .ok (← reduceLevels m minis.length minis)

end MapReduce

/-! ## `DocumentSummaryStep` -/

structure DocumentSummaryStep where
  summaryLength : Nat := 2500
  chunkThreshold : Nat := 4
  embedBatchSize : Nat := 50

namespace DocumentSummaryStep

def mapReduce (step : DocumentSummaryStep) : MapReduce where
  mapRole := .summary
  reduceRole := .bok
  maxLength := step.summaryLength
  mapSystem := DOCUMENT_REFINE_SYSTEM
  mapTemplate := DOCUMENT_MAP_TEMPLATE
  reduceSystem := DOCUMENT_REDUCE_SYSTEM
  reduceTemplate := DOCUMENT_REDUCE_TEMPLATE
  reduceFanin := 10

/-- The chunks of one document. -/
def docChunks (ctx : PipelineContext) (docId : String) : List Chunk :=
  ctx.chunks.filter (fun c => c.docId = docId)

/-- The document ids of all chunks, in order of first appearance. -/
def docIds (ctx : PipelineContext) : List String :=
  (OrderedSet.ofList (ctx.chunks.map Chunk.docId)).toList

/-- The documents that get a summary. -/
def docsToSummarize (step : DocumentSummaryStep) (ctx : PipelineContext) : List String :=
  (docIds ctx).filter fun d =>
    (docChunks ctx d).length ≥ step.chunkThreshold &&
      (!ctx.changeDetectionRan || d ∈ ctx.changedDocumentIds)

/-- The storage ids of the summaries of changed documents that dropped below
the threshold. -/
def staleSummaryIds (step : DocumentSummaryStep) (ctx : PipelineContext) : List String :=
  if ctx.changeDetectionRan then
    ((docIds ctx).filter fun d =>
      d ∈ ctx.changedDocumentIds && (docChunks ctx d).length < step.chunkThreshold).map
        fun d => s!"{d}-summary-0"
  else []

/-- The chunk of a summary: the position of the document it summarises. -/
def summaryChunk (docId summary : String) (source : DocumentMetadata) : Chunk where
  content := summary
  metadata :=
    { documentId := summaryDocumentId docId
      source := source.source
      type := source.type
      title := source.title
      embeddingType := some EMBEDDING_TYPE_SUMMARY
      spaceId := source.spaceId
      spaceName := source.spaceName
      subspaceId := source.subspaceId
      subspaceName := source.subspaceName
      calloutId := source.calloutId
      depth := source.depth }
  chunkIndex := 0

/-- The outcome of one document: the chunk of its summary, or the error to
record, with the positions of the chunks it summarises. -/
structure SummaryResult where
  docId : String
  outcome : Except String Chunk
  docChunks : List Nat

/-- `_summarize_one`. -/
def summarizeOne (step : DocumentSummaryStep) (ctx : PipelineContext) (docId : String) :
    Ingest SummaryResult := do
  let failed (error : String) : SummaryResult := ⟨docId, .error error, []⟩
  match ← step.mapReduce.summarize ((docChunks ctx docId).map Chunk.content) with
  | .error exc =>
    pure (failed s!"DocumentSummaryStep: summarization failed for {docId}: {exc}")
  | .ok summary =>
    if isBlank summary then
      pure (failed s!"DocumentSummaryStep: summarization produced no content for {docId}")
    else
      match (docChunks ctx docId).head? with
      | none => pure (failed
          s!"DocumentSummaryStep: summarization failed for {docId}: list index out of range")
      | some first =>
        pure ⟨docId, .ok (summaryChunk docId summary first.metadata),
          positionsWhere ctx.chunks (fun c => c.docId = docId)⟩

/-- Apply one result: record the error, or keep the summary and append its
chunk.  The second component collects the positions to embed. -/
def applyResult (acc : PipelineContext × List (String × List Nat)) (result : SummaryResult) :
    PipelineContext × List (String × List Nat) :=
  match result.outcome with
  | .error error => (acc.1.addError error, acc.2)
  | .ok chunk =>
    ({ acc.1 with
        documentSummaries := acc.1.documentSummaries.set result.docId chunk.content
        chunks := acc.1.chunks ++ [chunk] },
      acc.2 ++ [(result.docId, result.docChunks ++ [acc.1.chunks.length])])

def failure (docId : String) (batch : Nat) (exc : String) : String :=
  s!"DocumentSummaryStep: inline embedding failed for {docId} batch {batch}: {exc}"

def execute (step : DocumentSummaryStep) (ctx : PipelineContext) : Ingest PipelineContext := do
  let toSummarize := docsToSummarize step ctx
  let ctx := { ctx with orphanIds := ctx.orphanIds.insertAll (staleSummaryIds step ctx) }
  let results ← toSummarize.mapM (summarizeOne step ctx)
  let (ctx, targets) := results.foldl applyResult (ctx, [])
  targets.foldlM (fun ctx (docId, positions) =>
    embedMissing step.embedBatchSize (failure docId) positions ctx) ctx

def toStep (step : DocumentSummaryStep) : PipelineStep where
  name := "document_summary"
  execute := fun ctx => do return (← step.execute ctx, none)

end DocumentSummaryStep

/-! ## `BodyOfKnowledgeSummaryStep` -/

structure BodyOfKnowledgeSummaryStep where
  summaryLength : Nat := 2500
  maxSectionChars : Nat := 30000

namespace BodyOfKnowledgeSummaryStep

def mapReduce (step : BodyOfKnowledgeSummaryStep) : MapReduce where
  mapRole := .summary
  reduceRole := .bok
  maxLength := step.summaryLength
  mapSystem := BOK_OVERVIEW_SYSTEM
  mapTemplate := BOK_MAP_TEMPLATE
  reduceSystem := BOK_REDUCE_SYSTEM
  reduceTemplate := BOK_REDUCE_TEMPLATE
  reduceFanin := 10

/-- `_bok_exists`. -/
def bokExists : Ingest Bool := do
  match ← storeGet (some BOK_SUMMARY_DOCUMENT_ID) false with
  | .ok result => pure (result.ids.length > 0)
  | .error _ => pure false

/-- The first space id and name of a list of metadata, a depth-0 one if there
is one. -/
def rootPosition (ctx : PipelineContext) : Option String × Option String :=
  let metas := (ctx.documents.map Document.metadata ++ ctx.chunks.map Chunk.metadata).filter
    (fun m => truthy m.spaceId)
  match metas.find? (fun m => m.depth = 0) with
  | some m => (m.spaceId, m.spaceName)
  | none =>
    match metas.head? with
    | some m => (m.spaceId, m.spaceName)
    | none => (none, none)

/-- The chunks that are no summaries: those the step falls back on when no raw
chunks were accumulated. -/
def rawChunks (ctx : PipelineContext) : List Chunk :=
  ctx.chunks.filter (fun c => c.metadata.embeddingType ≠ some EMBEDDING_TYPE_SUMMARY)

/-- The texts of the chunks by document. -/
def chunksByDoc (ctx : PipelineContext) : OrderedDict String (List String) :=
  if ctx.rawChunksByDoc.isEmpty then
    (rawChunks ctx).foldl (fun d c => d.push c.docId c.content) .empty
  else ctx.rawChunksByDoc

/-- The document ids that contribute a section, in order. -/
def seenDocIds (ctx : PipelineContext) : List String :=
  if ctx.rawChunksByDoc.isEmpty then
    (OrderedSet.ofList ((rawChunks ctx).map Chunk.docId)).toList
  else
    (OrderedSet.ofList ((ctx.documents.map Document.id).filter
      (fun d => (ctx.rawChunksByDoc.get? d).isSome))).toList

/-- One section for each document: its summary, else its chunks. -/
def sections (ctx : PipelineContext) : List String :=
  (seenDocIds ctx).filterMap fun d =>
    match ctx.documentSummaries.get? d with
    | some summary => some summary
    | none => ((chunksByDoc ctx).get? d).map ("\n".intercalate ·)

/-- The loop that groups sections by size: the finished groups, the current
one and its size. -/
def groupInto (limit : Nat) (acc : List String × List String × Nat) (text : String) :
    List String × List String × Nat :=
  let (grouped, current, size) := acc
  if !current.isEmpty && size + text.length > limit then
    (grouped ++ [SEPARATOR.intercalate current], [text], text.length)
  else (grouped, current ++ [text], size + text.length)

/-- The sections as they go to the model. -/
def groupedSections (step : BodyOfKnowledgeSummaryStep) (texts : List String) : List String :=
  if texts.length > 1 then
    let (grouped, current, _) := texts.foldl (groupInto (max 1000 step.maxSectionChars)) ([], [], 0)
    let grouped := if current.isEmpty then grouped else grouped ++ [SEPARATOR.intercalate current]
    if grouped.length < texts.length then grouped else texts
  else texts

/-- The chunk of the overview. -/
def bokChunk (ctx : PipelineContext) (summary : String) : Chunk where
  content := summary
  metadata :=
    { documentId := BOK_SUMMARY_DOCUMENT_ID
      source := "generated"
      type := "bodyOfKnowledgeSummary"
      title := "Body of Knowledge Overview"
      embeddingType := some EMBEDDING_TYPE_SUMMARY
      spaceId := (rootPosition ctx).1
      spaceName := (rootPosition ctx).2
      depth := 0 }
  chunkIndex := 0

/-- The entry of the inline write, which bypasses `StoreStep`. -/
def bokEntry (chunk : Chunk) (embedding : Embedding) : Entry where
  id := s!"{chunk.docId}-0"
  document := chunk.content
  metadata :=
    { documentId := some chunk.docId
      source := chunk.metadata.source
      type := chunk.metadata.type
      title := chunk.metadata.title
      embeddingType := chunk.metadata.embeddingType
      chunkIndex := 0
      uri := none
      hierarchy := hierarchyMetadata chunk.metadata }
  embedding := embedding

/-- Embed and store the overview at once.  When either call fails the chunk is
left to the finalize steps, with the embedding it has by then. -/
def persist (ctx : PipelineContext) (chunk : Chunk) : Ingest PipelineContext := do
  match ← embedTexts [chunk.content] with
  | .ok (embedding :: _) =>
    match ← storeIngest [bokEntry chunk embedding] with
    | .ok _ => pure { ctx with chunksStored := ctx.chunksStored + 1 }
    | .error _ =>
      pure { ctx with chunks := ctx.chunks ++ [{ chunk with embedding := some embedding }] }
  | _ => pure { ctx with chunks := ctx.chunks ++ [chunk] }

/-- Generate the overview from the sections and persist it. -/
def generate (step : BodyOfKnowledgeSummaryStep) (ctx : PipelineContext) (texts : List String) :
    Ingest PipelineContext := do
  match ← step.mapReduce.summarize (groupedSections step texts) with
  | .ok summary => persist ctx (bokChunk ctx summary)
  | .error exc =>
    pure (ctx.addError s!"BodyOfKnowledgeSummaryStep: overview generation failed: {exc}")

/-- Whether the run found nothing to do: change detection ran and saw neither
a changed nor a removed document. -/
def nothingChanged (ctx : PipelineContext) : Bool :=
  ctx.changeDetectionRan && ctx.changedDocumentIds.isEmpty && ctx.removedDocumentIds.isEmpty

/-- The part of `execute` after the early return. -/
def refresh (step : BodyOfKnowledgeSummaryStep) (ctx : PipelineContext) :
    Ingest PipelineContext :=
  if (seenDocIds ctx).isEmpty then
    -- The corpus is empty: the overview goes when documents were removed.
    if ctx.removedDocumentIds.isEmpty then pure ctx
    else pure { ctx with orphanIds := ctx.orphanIds.insert "body-of-knowledge-summary-0" }
  else if (sections ctx).isEmpty then pure ctx
  else generate step ctx (sections ctx)

def execute (step : BodyOfKnowledgeSummaryStep) (ctx : PipelineContext) :
    Ingest PipelineContext := do
  if nothingChanged ctx then
    if ← bokExists then pure ctx else refresh step ctx
  else refresh step ctx

def toStep (step : BodyOfKnowledgeSummaryStep) : PipelineStep where
  name := "body_of_knowledge_summary"
  execute := fun ctx => do return (← step.execute ctx, none)

end BodyOfKnowledgeSummaryStep

end VirtualContributor.Pipeline
