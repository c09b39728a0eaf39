import VirtualContributor.Pipeline.Context

/-!
# Chunking and fingerprints

`ChunkStep` and `ContentHashStep`.  Neither makes a call, so together they
are a function of the documents: `contentChunks` gives the fingerprinted
passages of one document.
-/

namespace VirtualContributor.Pipeline

open Lib

/-! ## `ChunkStep` -/

structure ChunkStep where
  chunkSize : Nat := 2000
  chunkOverlap : Nat := 400

namespace ChunkStep

/-- The size and overlap that `_splitter_for` hands to the splitter.  An
overlap at or above the size is replaced by zero. -/
def splitterFor (step : ChunkStep) (strategy : ChunkStrategy) : Nat × Nat :=
  let size := strategy.chunkSize.getD step.chunkSize
  let overlap := strategy.chunkOverlap.getD step.chunkOverlap
  if overlap ≥ size then (size, 0) else (size, overlap)

/-- The chunk of the `i`-th passage of a document. -/
def passage (doc : Document) (embeddingType text : String) (i : Nat) : Chunk where
  content := text
  metadata := { doc.metadata with embeddingType := some embeddingType }
  chunkIndex := i

/-- The passages of one document, or the exception of the splitter. -/
def chunkDocument (host : Host) (step : ChunkStep) (doc : Document) :
    Except String (List Chunk) :=
  let strategy := resolveStrategy (some doc.metadata.type)
  let splitter := step.splitterFor strategy
  (host.splitText splitter.1 splitter.2 doc.content).map fun texts =>
    texts.zipIdx.map fun (text, i) => passage doc strategy.embeddingType text i

/-- One turn of the loop over the documents. -/
def chunkInto (host : Host) (step : ChunkStep) (ctx : PipelineContext) (doc : Document) :
    PipelineContext :=
  match chunkDocument host step doc with
  | .ok chunks => { ctx with chunks := ctx.chunks ++ chunks }
  | .error exc => ctx.addError s!"ChunkStep: chunking failed for {doc.id}: {exc}"

def execute (host : Host) (step : ChunkStep) (ctx : PipelineContext) : PipelineContext :=
  ctx.documents.foldl (chunkInto host step) ctx

def toStep (host : Host) (step : ChunkStep) : PipelineStep where
  name := "chunk"
  execute := fun ctx => pure (step.execute host ctx, none)

end ChunkStep

/-! ## `ContentHashStep` -/

namespace ContentHashStep

/-- The fields that take part in the fingerprint, in order. -/
def segments (chunk : Chunk) : List String :=
  let m := chunk.metadata
  let label := if truthy m.embeddingType then m.embeddingType.getD "" else EMBEDDING_TYPE_CHUNK
  [chunk.content, m.title, m.source, m.type, m.documentId]
    ++ (if hasPosition m then
      [m.spaceId.getD "", m.subspaceId.getD "", m.calloutId.getD "", toString m.depth] else [])
    ++ (if label ≠ EMBEDDING_TYPE_CHUNK then [label] else [])

/-- The string that is hashed: the segments joined by NUL. -/
def canonical (chunk : Chunk) : String := "\x00".intercalate (segments chunk)

/-- The fingerprint of a chunk. -/
def contentHash (host : Host) (chunk : Chunk) : String := host.sha256 (canonical chunk)

/-- Set the fingerprint of a content chunk. -/
def hashChunk (host : Host) (chunk : Chunk) : Chunk :=
  if chunk.isContent then { chunk with contentHash := some (contentHash host chunk) } else chunk

def execute (host : Host) (ctx : PipelineContext) : PipelineContext :=
  { ctx with chunks := ctx.chunks.map (hashChunk host) }

def toStep (host : Host) : PipelineStep where
  name := "content_hash"
  execute := fun ctx => pure (execute host ctx, none)

end ContentHashStep

/-! ## The passages of a document -/

/-- The fingerprinted passages of a document: none when the splitter raises. -/
def contentChunks (host : Host) (step : ChunkStep) (doc : Document) : List Chunk :=
  match step.chunkDocument host doc with
  | .ok chunks => chunks.map (ContentHashStep.hashChunk host)
  | .error _ => []

end VirtualContributor.Pipeline
