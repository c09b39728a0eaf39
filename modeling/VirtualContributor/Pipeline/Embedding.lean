import VirtualContributor.Pipeline.Context

/-!
# Embedding and storing

`EmbedStep`, the inline embedding that it shares with the summary step, and
`StoreStep`.

The source holds references to chunk objects and assigns their `embedding`.
Here a reference is the position of the chunk in `context.chunks`.
-/

namespace VirtualContributor.Pipeline

open Lib Program

/-! ## Embedding the chunks at some positions -/

/-- The positions of the chunks that satisfy `p`. -/
def positionsWhere (chunks : List Chunk) (p : Chunk → Bool) : List Nat :=
  (List.range chunks.length).filter (fun i => (chunks[i]?).any p)

/-- Assign the embeddings that came back, pairwise. -/
def assignEmbeddings (chunks : List Chunk) (positions : List Nat) (embeddings : List Embedding) :
    List Chunk :=
  (positions.zip embeddings).foldl
    (fun chunks (i, e) => chunks.modify i (fun c => { c with embedding := some e })) chunks

/-- Embed one batch of chunks.  `failure` is the text of the error that a
failed call records. -/
def embedBatch (failure : Nat → String → String) (ctx : PipelineContext)
    (batch : List Nat × Nat) : Ingest PipelineContext := do
  let texts := batch.1.filterMap (fun i => (ctx.chunks[i]?).map Chunk.content)
  match ← embedTexts texts with
  | .ok embeddings =>
    pure { ctx with chunks := assignEmbeddings ctx.chunks batch.1 embeddings }
  | .error exc => pure (ctx.addError (failure batch.2 exc))

/-- Embed the chunks at the given positions that have no embedding yet. -/
def embedMissing (batchSize : Nat) (failure : Nat → String → String) (positions : List Nat)
    (ctx : PipelineContext) : Ingest PipelineContext :=
  let missing := positions.filter (fun i => (ctx.chunks[i]?).any (fun c => c.embedding.isNone))
  (slices batchSize missing).zipIdx.foldlM (embedBatch failure) ctx

/-! ## `EmbedStep` -/

namespace EmbedStep

def failure (batch : Nat) (exc : String) : String :=
  s!"EmbedStep: embedding failed for batch {batch}: {exc}"

def execute (batchSize : Nat) (ctx : PipelineContext) : Ingest PipelineContext :=
  embedMissing batchSize failure (List.range ctx.chunks.length) ctx

def toStep (batchSize : Nat := 50) : PipelineStep where
  name := "embed"
  execute := fun ctx => do return (← execute batchSize ctx, none)

end EmbedStep

/-! ## `StoreStep` -/

namespace StoreStep

/-- The id a chunk is stored under: its fingerprint for content that has one,
else the document id and the index of the chunk. -/
def storageId (chunk : Chunk) : String :=
  if chunk.isContent && truthy chunk.contentHash then chunk.contentHash.getD ""
  else s!"{chunk.docId}-{chunk.chunkIndex}"

/-- The metadata a chunk is stored with. -/
def metaEntry (chunk : Chunk) : StoredMetadata where
  documentId := some chunk.docId
  source := chunk.metadata.source
  type := chunk.metadata.type
  title := chunk.metadata.title
  embeddingType := chunk.metadata.embeddingType
  chunkIndex := chunk.chunkIndex
  uri := chunk.metadata.uri.filter (· ≠ "")
  hierarchy := hierarchyMetadata chunk.metadata

def toEntry (chunk : Chunk) (embedding : Embedding) : Entry where
  id := storageId chunk
  document := chunk.content
  metadata := metaEntry chunk
  embedding := embedding

/-- Whether a chunk's fingerprint was found in the store. -/
def isUnchanged (ctx : PipelineContext) (chunk : Chunk) : Bool :=
  match chunk.contentHash with
  | none => false
  | some h => h ∈ ctx.unchangedChunkHashes

/-- The entries to write: the chunks that have an embedding and are not
unchanged. -/
def storable (ctx : PipelineContext) : List Entry :=
  ctx.chunks.filterMap fun c =>
    if isUnchanged ctx c then none else c.embedding.map (toEntry c)

/-- Deduplicate by storage id, keeping the last occurrence. -/
def dedupe : List Entry → List Entry
  | [] => []
  | e :: es => if e.id ∈ es.map Entry.id then dedupe es else e :: dedupe es

/-- Write one batch. -/
def storeBatch (ctx : PipelineContext) (batch : List Entry × Nat) : Ingest PipelineContext := do
  match ← storeIngest (dedupe batch.1) with
  | .ok _ => pure { ctx with chunksStored := ctx.chunksStored + batch.1.length }
  | .error exc =>
    pure (ctx.addError s!"StoreStep: storage failed for batch {batch.2}: {exc}")

/-- Record how many chunks have no embedding. -/
def reportMissing (ctx : PipelineContext) : PipelineContext :=
  let missing := (ctx.chunks.filter (fun c => c.embedding.isNone)).length
  if missing > 0 then ctx.addError s!"StoreStep: skipped {missing} chunks without embeddings"
  else ctx

def execute (batchSize : Nat) (ctx : PipelineContext) : Ingest PipelineContext :=
  (slices batchSize (storable ctx)).zipIdx.foldlM storeBatch (reportMissing ctx)

def toStep (batchSize : Nat := 50) : PipelineStep where
  name := "store"
  execute := fun ctx => do return (← execute batchSize ctx, none)

end StoreStep

end VirtualContributor.Pipeline
