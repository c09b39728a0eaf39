import VirtualContributor.Pipeline.Engine
import VirtualContributor.Pipeline.Fingerprints

/-!
# Where stored entries come from

Every entry of a collection was written for a chunk, and every chunk is a
passage of a document, the summary of a document or an overview.

* `IngestRun` is one run of a plugin's pipeline and `IngestRun.passages` what
  its first two steps make of the documents.
* `ChunkOrigin` lists the three kinds of chunks of one run.  Embeddings come
  and go, so a chunk is compared up to its embedding, with `Chunk.bare`.
* `Provenance` is the resulting property of an entry.  It separates content
  from derived entries by id: a fingerprint has no dash.
-/

namespace VirtualContributor.Pipeline

open Lib Program

/-! ## Runs and their passages -/

/-- A run of a plugin's pipeline: its settings and its documents. -/
structure IngestRun where
  pipeline : IngestPipeline
  documents : List Document

namespace IngestRun

/-- The ids of the documents. -/
def ids (r : IngestRun) : List String := r.documents.map Document.id

/-- The fingerprinted passages of the documents. -/
def passages (host : Host) (r : IngestRun) : List Chunk :=
  r.documents.flatMap (contentChunks host r.pipeline.chunkStep)

/-- The run as a program. -/
def program (host : Host) (r : IngestRun) : Ingest IngestResult :=
  r.pipeline.run host r.documents

theorem mem_passages {host : Host} {r : IngestRun} {c : Chunk} :
    c ∈ r.passages host ↔ ∃ doc ∈ r.documents, c ∈ contentChunks host r.pipeline.chunkStep doc :=
  List.mem_flatMap

theorem passage_spec {host : Host} {r : IngestRun} {c : Chunk} (hc : c ∈ r.passages host) :
    c.docId ∈ r.ids ∧ c.isContent = true ∧
      c.contentHash = some (ContentHashStep.contentHash host c) ∧ c.embedding = none := by
  obtain ⟨doc, hdoc, hc⟩ := mem_passages.mp hc
  obtain ⟨hid, hrest⟩ := contentChunks_spec hc
  exact ⟨hid ▸ List.mem_map_of_mem hdoc, hrest⟩

end IngestRun

/-! ## Origins -/

/-- A chunk without its embedding. -/
def Chunk.bare (c : Chunk) : Chunk := { c with embedding := none }

@[simp] theorem Chunk.bare_docId (c : Chunk) : c.bare.docId = c.docId := rfl
@[simp] theorem Chunk.bare_content (c : Chunk) : c.bare.content = c.content := rfl
@[simp] theorem Chunk.bare_isContent (c : Chunk) : c.bare.isContent = c.isContent := rfl
@[simp] theorem Chunk.bare_contentHash (c : Chunk) : c.bare.contentHash = c.contentHash := rfl

theorem Chunk.bare_eq_self {c : Chunk} (h : c.embedding = none) : c.bare = c := by
  cases c
  simp only at h
  subst h
  rfl

/-- An entry does not depend on the embedding field of its chunk. -/
@[simp] theorem toEntry_bare (c : Chunk) (e : Embedding) :
    StoreStep.toEntry c.bare e = StoreStep.toEntry c e := rfl

/-- The chunks that a run makes, up to their embeddings. -/
inductive ChunkOrigin (host : Host) (r : IngestRun) : Chunk → Prop
  | passage {c : Chunk} : c ∈ r.passages host → ChunkOrigin host r c
  | summary {d : String} (text : String) (source : DocumentMetadata) :
      d ∈ r.ids → ChunkOrigin host r (DocumentSummaryStep.summaryChunk d text source)
  | overview (ctx : PipelineContext) (text : String) :
      ChunkOrigin host r (BodyOfKnowledgeSummaryStep.bokChunk ctx text)

/-- An entry that one of the given runs wrote. -/
def Provenance (host : Host) (runs : Set IngestRun) (e : Entry) : Prop :=
  ∃ r ∈ runs, ∃ c, ChunkOrigin host r c ∧ e = StoreStep.toEntry c e.embedding

theorem Provenance.mono {host : Host} {runs runs' : Set IngestRun} {e : Entry}
    (h : Provenance host runs e) (hsub : ∀ r ∈ runs, r ∈ runs') : Provenance host runs' e := by
  obtain ⟨r, hr, hc⟩ := h
  exact ⟨r, hsub r hr, hc⟩

/-- The storage id of a passage is its fingerprint. -/
theorem storageId_passage {host : Host} {r : IngestRun} {c : Chunk} (hc : c ∈ r.passages host) :
    StoreStep.storageId c = ContentHashStep.contentHash host c := by
  obtain ⟨_, hcontent, hhash, _⟩ := IngestRun.passage_spec hc
  have htruthy : truthy c.contentHash = true := by
    rw [hhash, truthy, decide_eq_true_iff]
    exact (host.sha256_hex _).1
  rw [StoreStep.storageId, hcontent, htruthy, hhash]
  rfl

theorem isContent_summaryChunk (d text : String) (source : DocumentMetadata) :
    (DocumentSummaryStep.summaryChunk d text source).isContent = false := isContent_summary

theorem isContent_bokChunk (ctx : PipelineContext) (text : String) :
    (BodyOfKnowledgeSummaryStep.bokChunk ctx text).isContent = false := isContent_summary

theorem storageId_summaryChunk (d text : String) (source : DocumentMetadata) :
    StoreStep.storageId (DocumentSummaryStep.summaryChunk d text source) = summaryEntryId d := by
  rw [StoreStep.storageId, isContent_summaryChunk, Bool.false_and, if_neg Bool.false_ne_true]
  show (d ++ "-summary") ++ "-" ++ toString 0 = d ++ "-summary-0"
  rw [String.append_assoc, String.append_assoc]
  rfl

theorem storageId_bokChunk (ctx : PipelineContext) (text : String) :
    StoreStep.storageId (BodyOfKnowledgeSummaryStep.bokChunk ctx text) = bokEntryId := by
  rw [StoreStep.storageId, isContent_bokChunk, Bool.false_and, if_neg Bool.false_ne_true]
  show BOK_SUMMARY_DOCUMENT_ID ++ "-" ++ toString 0 = bokEntryId
  decide

theorem mem_staleSummaryIds {step : DocumentSummaryStep} {ctx : PipelineContext} {d : String}
    (h : summaryEntryId d ∈ step.staleSummaryIds ctx) :
    d ∈ DocumentSummaryStep.docIds ctx ∧ d ∈ ctx.changedDocumentIds ∧
      (DocumentSummaryStep.docChunks ctx d).length < step.chunkThreshold := by
  unfold DocumentSummaryStep.staleSummaryIds at h
  split at h
  · obtain ⟨d', hd', heq⟩ := List.mem_map.mp h
    obtain rfl : d' = d := summaryEntryId_inj heq
    obtain ⟨hmem, hcond⟩ := List.mem_filter.mp hd'
    rw [Bool.and_eq_true, decide_eq_true_iff, decide_eq_true_iff] at hcond
    exact ⟨hmem, hcond⟩
  · exact absurd h List.not_mem_nil

/-- No fingerprint is the storage id of a stale summary. -/
theorem not_mem_staleSummaryIds {host : Host} (step : DocumentSummaryStep)
    (ctx : PipelineContext) {c : Chunk} :
    ContentHashStep.contentHash host c ∉ step.staleSummaryIds ctx := by
  unfold DocumentSummaryStep.staleSummaryIds
  split
  · rw [List.mem_map]
    rintro ⟨d, _, hd⟩
    exact sha256_ne_summaryEntryId host _ d hd.symm
  · exact List.not_mem_nil

/-- The inline write of the overview stores what `StoreStep` would. -/
theorem bokEntry_eq_toEntry (ctx : PipelineContext) (text : String) (e : Embedding) :
    BodyOfKnowledgeSummaryStep.bokEntry (BodyOfKnowledgeSummaryStep.bokChunk ctx text) e
      = StoreStep.toEntry (BodyOfKnowledgeSummaryStep.bokChunk ctx text) e := by
  rw [StoreStep.toEntry, storageId_bokChunk]
  rfl

/-! ## What an entry's origin tells -/

/-- A content entry was written for a passage. -/
theorem Provenance.content {host : Host} {runs : Set IngestRun} {e : Entry}
    (h : Provenance host runs e) (he : e.isContent = true) :
    ∃ r ∈ runs, ∃ c ∈ r.passages host, e = StoreStep.toEntry c e.embedding := by
  obtain ⟨r, hr, c, hc, heq⟩ := h
  cases hc with
  | passage hc => exact ⟨r, hr, c, hc, heq⟩
  | summary text source hd =>
    rw [heq] at he
    cases he
  | overview ctx text =>
    rw [heq] at he
    cases he

/-- A derived entry is the summary of a document or an overview. -/
theorem Provenance.derived {host : Host} {runs : Set IngestRun} {e : Entry}
    (h : Provenance host runs e) (he : e.isContent = false) :
    (∃ r ∈ runs, ∃ d ∈ r.ids, e.id = summaryEntryId d ∧ e.docId = some (summaryDocumentId d)) ∨
      e.id = bokEntryId ∧ e.docId = some BOK_SUMMARY_DOCUMENT_ID := by
  obtain ⟨r, hr, c, hc, heq⟩ := h
  cases hc with
  | passage hc =>
    rw [heq] at he
    have hcontent : (StoreStep.toEntry c e.embedding).isContent = true :=
      (IngestRun.passage_spec hc).2.1
    rw [hcontent] at he
    cases he
  | @summary d text source hd =>
    refine Or.inl ⟨r, hr, d, hd, ?_, ?_⟩
    · rw [heq]
      exact storageId_summaryChunk d text source
    · rw [heq]
      rfl
  | overview ctx text =>
    refine Or.inr ⟨?_, ?_⟩
    · rw [heq]
      exact storageId_bokChunk ctx text
    · rw [heq]
      rfl

/-- The entry of a fingerprint is content. -/
theorem Provenance.isContent_of_id {host : Host} {runs : Set IngestRun} {e : Entry} {text : String}
    (h : Provenance host runs e) (hid : e.id = host.sha256 text) : e.isContent = true := by
  rw [← Bool.not_eq_false]
  intro hderived
  rcases h.derived hderived with ⟨r, hr, d, hd, hid', _⟩ | ⟨hid', _⟩
  · exact sha256_ne_summaryEntryId host text d (hid.symm.trans hid')
  · exact sha256_ne_bokEntryId host text (hid.symm.trans hid')

end VirtualContributor.Pipeline
