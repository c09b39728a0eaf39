import Mathlib.Data.Set.Function
import VirtualContributor.Pipeline.Chunking

/-!
# Fingerprints and storage ids

What the passages of a document look like after the first two steps, and what
their fingerprints tell.

* `contentChunks_spec`: a passage belongs to its document, is content, has its
  fingerprint and no embedding yet.
* `segments_inj`: the joined string determines the segments when no segment
  contains NUL.
* `CollisionFree.same`: two passages with one fingerprint have the same text
  and the same document.
* The ids of derived entries contain a dash, so no digest is one of them.
-/

namespace VirtualContributor.Pipeline

open Lib ContentHashStep

/-! ## The passages of a document -/

@[simp] theorem hashChunk_docId (host : Host) (c : Chunk) :
    (hashChunk host c).docId = c.docId := by
  unfold hashChunk
  split <;> rfl

@[simp] theorem hashChunk_content (host : Host) (c : Chunk) :
    (hashChunk host c).content = c.content := by
  unfold hashChunk
  split <;> rfl

@[simp] theorem hashChunk_isContent (host : Host) (c : Chunk) :
    (hashChunk host c).isContent = c.isContent := by
  unfold hashChunk
  split <;> rfl

/-- The fingerprint does not read the fingerprint field. -/
@[simp] theorem contentHash_hashChunk (host : Host) (c : Chunk) :
    contentHash host (hashChunk host c) = contentHash host c := by
  unfold hashChunk
  split <;> rfl

/-- What `ChunkStep` makes of one document. -/
theorem chunkDocument_spec {host : Host} {step : ChunkStep} {doc : Document}
    {chunks : List Chunk} (h : step.chunkDocument host doc = .ok chunks) {c : Chunk}
    (hc : c ∈ chunks) : c.docId = doc.id ∧ c.isContent = true ∧ c.embedding = none ∧
      c.metadata.embeddingType.isSome = true := by
  unfold ChunkStep.chunkDocument at h
  dsimp only at h
  cases hs : host.splitText (step.splitterFor (resolveStrategy (some doc.metadata.type))).1
      (step.splitterFor (resolveStrategy (some doc.metadata.type))).2 doc.content with
  | error exc =>
    rw [hs] at h
    cases h
  | ok texts =>
    rw [hs] at h
    cases h
    obtain ⟨⟨text, i⟩, _, rfl⟩ := List.mem_map.mp hc
    exact ⟨rfl, isContent_resolveStrategy _, rfl, rfl⟩

/-- A fingerprinted passage of a document. -/
theorem contentChunks_spec {host : Host} {step : ChunkStep} {doc : Document} {c : Chunk}
    (hc : c ∈ contentChunks host step doc) :
    c.docId = doc.id ∧ c.isContent = true ∧ c.contentHash = some (contentHash host c) ∧
      c.embedding = none := by
  unfold contentChunks at hc
  cases hd : step.chunkDocument host doc with
  | error e =>
    rw [hd] at hc
    simp at hc
  | ok chunks =>
    rw [hd] at hc
    obtain ⟨c₀, hc₀, rfl⟩ := List.mem_map.mp hc
    obtain ⟨hdoc, hcontent, hemb, _⟩ := chunkDocument_spec hd hc₀
    refine ⟨by rw [hashChunk_docId, hdoc], by rw [hashChunk_isContent, hcontent], ?_, ?_⟩
    · rw [contentHash_hashChunk, hashChunk, if_pos hcontent]
    · rw [hashChunk, if_pos hcontent]
      exact hemb

/-- A passage is labelled. -/
theorem contentChunks_label {host : Host} {step : ChunkStep} {doc : Document} {c : Chunk}
    (hc : c ∈ contentChunks host step doc) : c.metadata.embeddingType.isSome = true := by
  unfold contentChunks at hc
  cases hd : step.chunkDocument host doc with
  | error e =>
    rw [hd] at hc
    simp at hc
  | ok chunks =>
    rw [hd] at hc
    obtain ⟨c₀, hc₀, rfl⟩ := List.mem_map.mp hc
    have hlabel := (chunkDocument_spec hd hc₀).2.2.2
    unfold hashChunk
    split <;> exact hlabel

/-! ## Joined strings -/

/-- No segment of the fingerprint contains NUL. -/
def NulFree (c : Chunk) : Prop := ∀ s ∈ segments c, '\x00' ∉ s.toList

theorem segments_ne_nil (c : Chunk) : segments c ≠ [] := by
  unfold segments
  simp

/-- A chunk's segments start with its text and end their fixed part with its
document id. -/
theorem segments_eq (c : Chunk) : ∃ rest, segments c =
    c.content :: c.metadata.title :: c.metadata.source :: c.metadata.type :: c.docId :: rest :=
  ⟨_, rfl⟩

/-- The joined string determines the segments. -/
theorem segments_inj {c c' : Chunk} (hc : NulFree c) (hc' : NulFree c')
    (h : canonical c = canonical c') : segments c = segments c' := by
  have split : ∀ c : Chunk, NulFree c →
      (canonical c).toList.splitOn '\x00' = (segments c).map String.toList := by
    intro c hc
    rw [canonical, String.toList_intercalate]
    refine List.splitOn_intercalate _ ?_ (by simpa using segments_ne_nil c)
    intro l hl
    obtain ⟨s, hs, rfl⟩ := List.mem_map.mp hl
    exact hc s hs
  have hmap : (segments c).map String.toList = (segments c').map String.toList := by
    rw [← split c hc, ← split c' hc', h]
  exact List.map_injective_iff.mpr (fun _ _ => String.toList_inj.mp) hmap

/-! ## Collisions -/

/-- SHA-256 has no collision among the strings that the given chunks hash, and
these strings separate their fields. -/
structure CollisionFree (host : Host) (chunks : Set Chunk) : Prop where
  nulFree : ∀ c ∈ chunks, NulFree c
  injOn : Set.InjOn host.sha256 {text | ∃ c ∈ chunks, canonical c = text}

theorem CollisionFree.mono {host : Host} {chunks chunks' : Set Chunk}
    (h : CollisionFree host chunks') (hsub : ∀ c ∈ chunks, c ∈ chunks') :
    CollisionFree host chunks where
  nulFree := fun c hc => h.nulFree c (hsub c hc)
  injOn := by
    refine h.injOn.mono fun text ht => ?_
    obtain ⟨c, hc, hcan⟩ := ht
    exact ⟨c, hsub c hc, hcan⟩

/-- Chunks with one fingerprint have one text and one document. -/
theorem CollisionFree.same {host : Host} {chunks : Set Chunk} (h : CollisionFree host chunks)
    {c c' : Chunk} (hc : c ∈ chunks) (hc' : c' ∈ chunks)
    (heq : contentHash host c = contentHash host c') :
    c.content = c'.content ∧ c.docId = c'.docId := by
  have hcan : canonical c = canonical c' := h.injOn ⟨c, hc, rfl⟩ ⟨c', hc', rfl⟩ heq
  have hseg := segments_inj (h.nulFree c hc) (h.nulFree c' hc') hcan
  obtain ⟨rest, hr⟩ := segments_eq c
  obtain ⟨rest', hr'⟩ := segments_eq c'
  rw [hr, hr'] at hseg
  simp only [List.cons.injEq] at hseg
  exact ⟨hseg.1, hseg.2.2.2.2.1⟩

/-! ## Ids of derived entries -/

/-- The storage id of the summary of a document. -/
def summaryEntryId (docId : String) : String := docId ++ "-summary-0"

/-- The storage id of the overview. -/
def bokEntryId : String := "body-of-knowledge-summary-0"

theorem summaryEntryId_inj {d d' : String} (h : summaryEntryId d = summaryEntryId d') :
    d = d' := by
  rw [← String.toList_inj] at h ⊢
  simpa [summaryEntryId] using h

theorem summaryDocumentId_inj {d d' : String} (h : summaryDocumentId d = summaryDocumentId d') :
    d = d' := by
  rw [← String.toList_inj] at h ⊢
  simpa [summaryDocumentId] using h

private theorem dash_not_hex : '-' ∉ hexDigits := by decide

/-- No digest contains a dash. -/
theorem dash_not_mem_sha256 (host : Host) (text : String) : '-' ∉ (host.sha256 text).toList :=
  fun h => dash_not_hex ((host.sha256_hex text).2 '-' h)

theorem sha256_ne_summaryEntryId (host : Host) (text d : String) :
    host.sha256 text ≠ summaryEntryId d := by
  intro h
  apply dash_not_mem_sha256 host text
  rw [h, summaryEntryId, String.toList_append]
  exact List.mem_append_right _ (by decide)

theorem sha256_ne_bokEntryId (host : Host) (text : String) : host.sha256 text ≠ bokEntryId := by
  intro h
  apply dash_not_mem_sha256 host text
  rw [h]
  decide

end VirtualContributor.Pipeline
