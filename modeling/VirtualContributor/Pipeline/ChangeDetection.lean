import VirtualContributor.Pipeline.Context

/-!
# Change detection and orphan cleanup

`ChangeDetectionStep` reads the collection and decides what to skip and what
to delete.  `OrphanCleanupStep` carries out the deletions.
-/

namespace VirtualContributor.Pipeline

open Lib Program

/-! ## `ChangeDetectionStep` -/

namespace ChangeDetectionStep

/-- The content chunks of one document, in order. -/
def docChunks (chunks : List Chunk) (docId : String) : List Chunk :=
  chunks.filter (fun c => c.isContent && c.docId = docId)

/-- The document ids of the content chunks, in order of first appearance. -/
def currentDocIds (chunks : List Chunk) : OrderedSet String :=
  .ofList ((chunks.filter Chunk.isContent).map Chunk.docId)

/-- Whether a listed entry counts as the content of an existing document.  An
unlabelled entry with a derived id does not. -/
def listsContent (m : StoredMetadata) : Bool :=
  !(m.embeddingType.isNone && isDerivedDocumentId m.documentId) &&
    isContent m.embeddingType && truthy m.documentId

/-- The documents the collection holds content of. -/
def existingDocIds (listing : GetResult) : OrderedSet String :=
  .ofList (((listing.metadatas.getD []).filter listsContent).filterMap StoredMetadata.documentId)

/-- `context.all_document_ids` when it is not empty, else the ids of the
chunks at hand. -/
def knownDocIds (ctx : PipelineContext) : OrderedSet String :=
  if ctx.allDocumentIds.isEmpty then currentDocIds ctx.chunks else ctx.allDocumentIds

/-- The embedding the store returned for an id. -/
def existingEmbedding (existing : GetResult) (id : String) : Option Embedding :=
  (existing.ids.zip (existing.embeddings.getD [])).reverse.lookup id

/-- Give an unchanged chunk the embedding the store holds. -/
def preload (existing : GetResult) (docId : String) (chunk : Chunk) : Chunk :=
  if chunk.isContent && chunk.docId = docId then
    match chunk.contentHash with
    | none => chunk
    | some h =>
      if h ∈ existing.ids then
        match existingEmbedding existing h with
        | none => chunk
        | some e => { chunk with embedding := some e }
      else chunk
  else chunk

/-- Compare the chunks of one document with what the store holds of it. -/
def compareDoc (ctx : PipelineContext) (docId : String) (existing : GetResult) :
    PipelineContext :=
  let hashes := (docChunks ctx.chunks docId).filterMap Chunk.contentHash
  let found := hashes.filter (· ∈ existing.ids)
  let orphans := (OrderedSet.ofList existing.ids).diff (.ofList hashes)
  let isChanged := hashes.any (· ∉ existing.ids) || !orphans.isEmpty
  { ctx with
    chunks := ctx.chunks.map (preload existing docId)
    unchangedChunkHashes := ctx.unchangedChunkHashes.insertAll found
    chunksSkipped := ctx.chunksSkipped + found.length
    changedDocumentIds :=
      if isChanged then ctx.changedDocumentIds.insert docId else ctx.changedDocumentIds
    orphanIds := ctx.orphanIds.union orphans }

/-- The loop over the documents.  A failed read stops it. -/
def detectDocs : List String → PipelineContext → Ingest (PipelineContext × Option String)
  | [], ctx => pure ({ ctx with changeDetectionRan := true }, none)
  | docId :: rest, ctx => do
    match ← storeGet (some docId) true with
    | .error exc => pure (ctx, some exc)
    | .ok existing => detectDocs rest (compareDoc ctx docId existing)

/-- `_detect`.  It returns the context as far as it got and the exception of
the read that failed, if one did. -/
def detect (ctx : PipelineContext) : Ingest (PipelineContext × Option String) := do
  match ← storeGet none false with
  | .error exc => pure (ctx, some exc)
  | .ok listing =>
    let ctx := { ctx with
      removedDocumentIds := (existingDocIds listing).diff (knownDocIds ctx) }
    detectDocs (currentDocIds ctx.chunks).toList ctx

/-- Fall back to treating every chunk as new. -/
def fallback (ctx : PipelineContext) (exc : String) : PipelineContext :=
  { ctx.addError s!"ChangeDetectionStep: store read failed: {exc}" with
    unchangedChunkHashes := .empty
    orphanIds := .empty
    removedDocumentIds := .empty
    changedDocumentIds := .empty
    chunksSkipped := 0
    chunks := ctx.chunks.map fun c => if c.isContent then { c with embedding := none } else c }

def execute (ctx : PipelineContext) : Ingest PipelineContext := do
  match ← detect ctx with
  | (ctx, none) => pure ctx
  | (ctx, some exc) => pure (fallback ctx exc)

def toStep : PipelineStep where
  name := "change_detection"
  execute := fun ctx => do return (← execute ctx, none)

end ChangeDetectionStep

/-! ## `OrphanCleanupStep` -/

namespace OrphanCleanupStep

/-- Delete the orphan ids.  The second component counts what was deleted. -/
def deleteOrphans (ctx : PipelineContext) : Ingest (PipelineContext × Nat) := do
  if ctx.orphanIds.isEmpty then pure (ctx, 0)
  else
    match ← storeDeleteIds ctx.orphanIds.toList with
    | .ok _ => pure (ctx, ctx.orphanIds.card)
    | .error exc =>
      pure (ctx.addError s!"OrphanCleanupStep: failed to delete orphan chunks: {exc}", 0)

/-- Delete the content of a removed document and then its summary. -/
def deleteRemoved (acc : PipelineContext × Nat) (docId : String) :
    Ingest (PipelineContext × Nat) := do
  let failed (exc : String) : PipelineContext × Nat :=
    (acc.1.addError
      s!"OrphanCleanupStep: failed to delete chunks for removed document {docId}: {exc}", acc.2)
  match ← storeDeleteWhere docId with
  | .error exc => pure (failed exc)
  | .ok _ =>
    match ← storeDeleteWhere (summaryDocumentId docId) with
    | .error exc => pure (failed exc)
    | .ok _ => pure (acc.1, acc.2 + 1)

def execute (ctx : PipelineContext) : Ingest PipelineContext := do
  let acc ← deleteOrphans ctx
  let (ctx, deleted) ← ctx.removedDocumentIds.toList.foldlM deleteRemoved acc
  pure { ctx with chunksDeleted := deleted }

def toStep : PipelineStep where
  name := "orphan_cleanup"
  destructive := true
  execute := fun ctx => do return (← execute ctx, none)

end OrphanCleanupStep

end VirtualContributor.Pipeline
