import VirtualContributor.Pipeline.Store

/-!
# The pipeline context and the external functions

`PipelineContext` is the state that the steps of one pass share.  The engine's
timing metrics, which no step reads, are left out.

`Host` collects the two functions the steps call that are not this
repository's: the text splitter and SHA-256.  A digest is a string of
hexadecimal digits, which is all that is assumed of it here.
-/

namespace VirtualContributor.Pipeline

open Lib

/-! ## External functions -/

/-- The digits of `hexdigest()`. -/
def hexDigits : List Char :=
  ['0', '1', '2', '3', '4', '5', '6', '7', '8', '9', 'a', 'b', 'c', 'd', 'e', 'f']

/-- A non-empty string of hexadecimal digits. -/
def IsHexDigest (digest : String) : Prop :=
  digest ≠ "" ∧ ∀ c ∈ digest.toList, c ∈ hexDigits

instance (digest : String) : Decidable (IsHexDigest digest) :=
  -- over the characters of the digest, not over all characters
  decidable_of_iff (digest ≠ "" ∧ digest.toList.all (· ∈ hexDigits) = true)
    (by simp [IsHexDigest])

structure Host where
  /-- `RecursiveCharacterTextSplitter(chunk_size=…, chunk_overlap=…).split_text(…)`,
  which may raise. -/
  splitText : Nat → Nat → String → Except String (List String)
  /-- `hashlib.sha256(….encode("utf-8")).hexdigest()`. -/
  sha256 : String → String
  sha256_hex : ∀ text, IsHexDigest (sha256 text)

theorem isHexDigest_of_mem_nil : ∀ p ∈ ([] : List (String × String)), IsHexDigest p.2 :=
  List.forall_mem_nil _

/-- A host with the given digests.  A text longer than the chunk size is split
at its blanks, which is what the splitter does with words that fit one by
one. -/
def Host.ofTable (digests : List (String × String))
    (hex : ∀ p ∈ digests, IsHexDigest p.2) : Host where
  splitText := fun size _ text => .ok
    (if text = "" then [] else if text.length ≤ size then [text]
      else (text.toList.splitOn ' ').map String.ofList)
  sha256 := fun text => (digests.lookup text).getD "0"
  sha256_hex := by
    intro text
    cases h : digests.lookup text with
    | none => decide
    | some digest =>
      obtain ⟨l₁, l₂, heq, _⟩ := List.lookup_eq_some_iff.mp h
      exact hex (text, digest) (by simp [heq])

/-! ## The context -/

structure PipelineContext where
  documents : List Document
  chunks : List Chunk := []
  documentSummaries : OrderedDict String String := .empty
  errors : List String := []
  chunksStored : Nat := 0
  unchangedChunkHashes : OrderedSet String := .empty
  orphanIds : OrderedSet String := .empty
  removedDocumentIds : OrderedSet String := .empty
  changedDocumentIds : OrderedSet String := .empty
  chunksSkipped : Nat := 0
  chunksDeleted : Nat := 0
  changeDetectionRan : Bool := false
  allDocumentIds : OrderedSet String := .empty
  rawChunksByDoc : OrderedDict String (List String) := .empty

/-- Record an error. -/
def PipelineContext.addError (ctx : PipelineContext) (error : String) : PipelineContext :=
  { ctx with errors := ctx.errors ++ [error] }

structure IngestResult where
  documentsProcessed : Nat
  chunksStored : Nat
  errors : List String
  success : Bool
  chunksSkipped : Nat
  chunksDeleted : Nat

/-- A step of the pipeline.  It returns the context as it left it and the
exception it raised, if it raised one. -/
structure PipelineStep where
  name : String
  destructive : Bool := false
  execute : PipelineContext → Ingest (PipelineContext × Option String)

end VirtualContributor.Pipeline
