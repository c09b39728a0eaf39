import Mathlib.Data.Rat.Defs
import VirtualContributor.Lib.Containers
import VirtualContributor.Lib.PythonText

/-!
# Documents, chunks and their metadata

The data classes of `core/domain/ingest_pipeline.py`, the embedding-type
vocabulary of `core/domain/pipeline/chunk_strategy.py` and the tree position
of `core/domain/pipeline/steps.py`.

An embedding is a list of numbers that the pipeline only moves around.
-/

namespace VirtualContributor.Pipeline

open Lib

/-! ## Data classes -/

abbrev Embedding := List Rat

structure DocumentMetadata where
  documentId : String
  source : String
  type : String := "knowledge"
  title : String := ""
  embeddingType : Option String := some "knowledge"
  uri : Option String := none
  spaceId : Option String := none
  spaceName : Option String := none
  subspaceId : Option String := none
  subspaceName : Option String := none
  calloutId : Option String := none
  depth : Int := 0
deriving DecidableEq

structure Document where
  content : String
  metadata : DocumentMetadata
deriving DecidableEq

/-- The document id a document goes by in every step. -/
def Document.id (doc : Document) : String := doc.metadata.documentId

structure Chunk where
  content : String
  metadata : DocumentMetadata
  chunkIndex : Nat
  embedding : Option Embedding := none
  contentHash : Option String := none
deriving DecidableEq

/-- The document id of a chunk. -/
def Chunk.docId (chunk : Chunk) : String := chunk.metadata.documentId

/-! ## Embedding types and chunk strategies -/

def EMBEDDING_TYPE_CHUNK : String := "chunk"
def EMBEDDING_TYPE_OVERVIEW : String := "overview"
def EMBEDDING_TYPE_SUMMARY : String := "summary"

/-- Whether an entry is primary content rather than a derived artifact.  A
missing label counts as content. -/
def isContent : Option String → Bool
  | none => true
  | some label => label = EMBEDDING_TYPE_CHUNK || label = EMBEDDING_TYPE_OVERVIEW

@[simp] theorem isContent_chunk : isContent (some EMBEDDING_TYPE_CHUNK) = true := by decide

@[simp] theorem isContent_overview : isContent (some EMBEDDING_TYPE_OVERVIEW) = true := by decide

@[simp] theorem isContent_summary : isContent (some EMBEDDING_TYPE_SUMMARY) = false := by decide

/-- Whether a chunk is primary content. -/
def Chunk.isContent (chunk : Chunk) : Bool := Pipeline.isContent chunk.metadata.embeddingType

def OVERVIEW_MAX_CHARS : Nat := 8000

/-- How one kind of document is split and labelled.  An absent size or
overlap means the one the step was constructed with. -/
structure ChunkStrategy where
  chunkSize : Option Nat
  chunkOverlap : Option Nat
  embeddingType : String

/-- `_DEFAULT_STRATEGY`. -/
def defaultStrategy : ChunkStrategy := ⟨none, none, EMBEDDING_TYPE_CHUNK⟩

/-- The strategy of a document type.  Unknown types, the empty string and a
missing type resolve to the default. -/
def resolveStrategy : Option String → ChunkStrategy
  | some "space" => ⟨some OVERVIEW_MAX_CHARS, some 0, EMBEDDING_TYPE_OVERVIEW⟩
  | some "subspace" => ⟨some OVERVIEW_MAX_CHARS, some 0, EMBEDDING_TYPE_OVERVIEW⟩
  | some "callout" => ⟨none, none, EMBEDDING_TYPE_CHUNK⟩
  | some "post" => ⟨some 2000, none, EMBEDDING_TYPE_CHUNK⟩
  | some "whiteboard" => ⟨none, none, EMBEDDING_TYPE_CHUNK⟩
  | _ => defaultStrategy

/-- Every strategy labels its passages as content. -/
theorem isContent_resolveStrategy (type : Option String) :
    isContent (some (resolveStrategy type).embeddingType) = true := by
  unfold resolveStrategy
  split <;> rfl

/-! ## Position in the space tree -/

/-- Whether the content sits anywhere in a space tree. -/
def hasPosition (m : DocumentMetadata) : Bool :=
  truthy m.spaceId || truthy m.subspaceId || truthy m.calloutId || m.depth ≠ 0

/-- The stored position.  An absent field is a key that is not written. -/
structure HierarchyMetadata where
  spaceId : Option String := none
  spaceName : Option String := none
  subspaceId : Option String := none
  subspaceName : Option String := none
  calloutId : Option String := none
  depth : Option Int := none
deriving DecidableEq

/-- A document's tree position as storable metadata.  Content with no
position stores no field, blank fields are omitted, and `depth` is written
whenever there is a position at all. -/
def hierarchyMetadata (m : DocumentMetadata) : HierarchyMetadata :=
  if hasPosition m then
    { spaceId := m.spaceId.filter (· ≠ "")
      spaceName := m.spaceName.filter (· ≠ "")
      subspaceId := m.subspaceId.filter (· ≠ "")
      subspaceName := m.subspaceName.filter (· ≠ "")
      calloutId := m.calloutId.filter (· ≠ "")
      depth := some m.depth }
  else {}

/-! ## Ids of derived entries -/

/-- Document id of the whole-corpus overview. -/
def BOK_SUMMARY_DOCUMENT_ID : String := "body-of-knowledge-summary"

/-- Suffix of the document id of a per-document summary. -/
def SUMMARY_DOCUMENT_ID_SUFFIX : String := "-summary"

/-- Whether an id belongs to a generated summary by its spelling alone. -/
def isDerivedDocumentId : Option String → Bool
  | none => false
  | some id => id ≠ "" &&
      (id = BOK_SUMMARY_DOCUMENT_ID || endsWith id SUMMARY_DOCUMENT_ID_SUFFIX)

/-- The document id of the summary of `docId`. -/
def summaryDocumentId (docId : String) : String := docId ++ SUMMARY_DOCUMENT_ID_SUFFIX

end VirtualContributor.Pipeline
