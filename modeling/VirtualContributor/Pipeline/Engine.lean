import VirtualContributor.Pipeline.ChangeDetection
import VirtualContributor.Pipeline.Chunking
import VirtualContributor.Pipeline.Summaries

/-!
# The engine and the plugins' pipelines

`IngestEngine` runs a list of steps over a context, either once or batch by
batch with a finalize pass.  `IngestPipeline` is the configuration with which
both ingest plugins wire it.
-/

namespace VirtualContributor.Pipeline

open Lib Program

namespace IngestEngine

/-! ## Running steps -/

/-- One turn of `_run_steps`: a destructive step is skipped when errors were
recorded before it, and a raised exception is recorded. -/
def runStep (ctx : PipelineContext) (step : PipelineStep) : Ingest PipelineContext :=
  if step.destructive && !ctx.errors.isEmpty then
    pure (ctx.addError
      (s!"{step.name}: skipped " ++
        s!"(destructive step gated by {ctx.errors.length} prior error(s))"))
  else do
    match ← step.execute ctx with
    | (ctx, none) => pure ctx
    | (ctx, some exc) => pure (ctx.addError s!"{step.name}: {exc}")

def runSteps (steps : List PipelineStep) (ctx : PipelineContext) : Ingest PipelineContext :=
  steps.foldlM runStep ctx

def buildResult (ctx : PipelineContext) (docCount : Nat) : IngestResult where
  documentsProcessed := docCount
  chunksStored := ctx.chunksStored
  errors := ctx.errors
  success := ctx.errors.length = 0
  chunksSkipped := ctx.chunksSkipped
  chunksDeleted := ctx.chunksDeleted

/-! ## Sequential mode -/

def runSequential (steps : List PipelineStep) (documents : List Document) :
    Ingest IngestResult := do
  let ctx ← runSteps steps
    { documents := documents, allDocumentIds := .ofList (documents.map Document.id) }
  pure (buildResult ctx documents.length)

/-! ## Batched mode -/

/-- The context of one batch. -/
def batchContext (documents batch : List Document) : PipelineContext where
  documents := batch
  allDocumentIds := .ofList (documents.map Document.id)

/-- Merge a batch into the accumulated context.  The accumulators of the
source are the fields that the finalize context starts with. -/
def merge (acc batch : PipelineContext) : PipelineContext :=
  { acc with
    rawChunksByDoc := (batch.chunks.filter Chunk.isContent).foldl
      (fun d c => d.push c.docId c.content) acc.rawChunksByDoc
    documentSummaries := acc.documentSummaries.update batch.documentSummaries
    orphanIds := acc.orphanIds.union batch.orphanIds
    removedDocumentIds := acc.removedDocumentIds.union batch.removedDocumentIds
    changedDocumentIds := acc.changedDocumentIds.union batch.changedDocumentIds
    unchangedChunkHashes := acc.unchangedChunkHashes.union batch.unchangedChunkHashes
    errors := acc.errors ++ batch.errors
    chunksStored := acc.chunksStored + batch.chunksStored
    chunksSkipped := acc.chunksSkipped + batch.chunksSkipped
    changeDetectionRan := acc.changeDetectionRan || batch.changeDetectionRan }

/-- One batch: run the batch steps on a context of its own and merge. -/
def runBatch (batchSteps : List PipelineStep) (documents : List Document)
    (acc : PipelineContext) (batch : List Document) : Ingest PipelineContext := do
  let ctx ← runSteps batchSteps (batchContext documents batch)
  pure (merge acc ctx)

/-- The context before the first batch: no chunks, all documents. -/
def initialContext (documents : List Document) : PipelineContext where
  documents := documents
  allDocumentIds := .ofList (documents.map Document.id)

def runBatched (batchSteps finalizeSteps : List PipelineStep) (batchSize : Nat)
    (documents : List Document) : Ingest IngestResult := do
  let acc ← (slices (max 1 batchSize) documents).foldlM (runBatch batchSteps documents)
    (initialContext documents)
  let ctx ← runSteps finalizeSteps acc
  pure (buildResult ctx documents.length)

end IngestEngine

/-! ## The plugins' configuration -/

theorem defaultThreshold_pos : 0 < 4 := by decide

/-- The settings with which a plugin builds its pipeline.  The constructor of
`DocumentSummaryStep` refuses a threshold below one. -/
structure IngestPipeline where
  chunkSize : Nat := 2000
  chunkOverlap : Nat := 400
  chunkThreshold : Nat := 4
  chunkThreshold_pos : 0 < chunkThreshold := by first | exact defaultThreshold_pos | decide
  summarizeEnabled : Bool := true
  summaryLength : Nat := 2500
  ingestBatchSize : Nat := 5

namespace IngestPipeline

def chunkStep (p : IngestPipeline) : ChunkStep := ⟨p.chunkSize, p.chunkOverlap⟩

def documentSummaryStep (p : IngestPipeline) : DocumentSummaryStep where
  summaryLength := p.summaryLength
  chunkThreshold := p.chunkThreshold

def bokSummaryStep (p : IngestPipeline) : BodyOfKnowledgeSummaryStep where
  summaryLength := p.summaryLength

/-- The steps of each batch. -/
def batchSteps (p : IngestPipeline) (host : Host) : List PipelineStep :=
  [p.chunkStep.toStep host, ContentHashStep.toStep host, ChangeDetectionStep.toStep]
    ++ (if p.summarizeEnabled then [p.documentSummaryStep.toStep] else [])
    ++ [EmbedStep.toStep, StoreStep.toStep]

/-- The steps of the finalize pass. -/
def finalizeSteps (p : IngestPipeline) : List PipelineStep :=
  (if p.summarizeEnabled then
    [p.bokSummaryStep.toStep, EmbedStep.toStep, StoreStep.toStep] else [])
    ++ [OrphanCleanupStep.toStep]

/-- The run over a list of documents. -/
def run (p : IngestPipeline) (host : Host) (documents : List Document) : Ingest IngestResult :=
  IngestEngine.runBatched (p.batchSteps host) p.finalizeSteps p.ingestBatchSize documents

/-- The run of a plugin whose source yielded no document. -/
def cleanup : Ingest IngestResult :=
  IngestEngine.runSequential [ChangeDetectionStep.toStep, OrphanCleanupStep.toStep] []

/-- What a plugin does with the documents of its source. -/
def ingest (p : IngestPipeline) (host : Host) (documents : List Document) :
    Ingest IngestResult :=
  if documents.isEmpty then cleanup else p.run host documents

end IngestPipeline

end VirtualContributor.Pipeline
