import VirtualContributor.Pipeline.ContentIdentity
import VirtualContributor.Pipeline.Convergence

/-!
# Metadata beside an unchanged passage

A passage whose fingerprint is in the collection is not written again, so its
entry keeps the metadata of the run that wrote it.

* `SameStored`: what the fingerprint fixes of the metadata.  Display names,
  the chunk index and the uri are not part of it.
* `sameStored_of_hash`: two passages with one fingerprint agree on it.
* `stored_metadata`: the same for the entries of a collection and those of a
  fresh run.
-/

namespace VirtualContributor.Pipeline

open Lib Program ContentHashStep

/-- The tree position without the display names. -/
def HierarchyMetadata.unnamed (h : HierarchyMetadata) : HierarchyMetadata :=
  { h with spaceName := none, subspaceName := none }

/-- Metadata that agree on every key that the fingerprint determines.  A
missing label is the one of a plain chunk. -/
structure SameStored (m m' : StoredMetadata) : Prop where
  documentId : m.documentId = m'.documentId
  source : m.source = m'.source
  type : m.type = m'.type
  title : m.title = m'.title
  label : m.embeddingType.getD EMBEDDING_TYPE_CHUNK = m'.embeddingType.getD EMBEDDING_TYPE_CHUNK
  position : m.hierarchy.unnamed = m'.hierarchy.unnamed

/-! ## Passages -/

private theorem filter_eq_of_getD {id id' : Option String} (h : id.getD "" = id'.getD "") :
    id.filter (· ≠ "") = id'.filter (· ≠ "") := by
  cases id with
  | none =>
    cases id' with
    | none => rfl
    | some text =>
      obtain rfl : text = "" := h.symm
      rfl
  | some text =>
    cases id' with
    | none =>
      obtain rfl : text = "" := h
      rfl
    | some text' =>
      have heq : text = text' := h
      rw [heq]

/-- Documents at one position store one position. -/
theorem unnamed_of_treePosition {m m' : DocumentMetadata} (h : treePosition m = treePosition m') :
    (hierarchyMetadata m).unnamed = (hierarchyMetadata m').unnamed := by
  unfold treePosition at h
  unfold hierarchyMetadata
  by_cases hm : hasPosition m = true
  · by_cases hm' : hasPosition m' = true
    · rw [if_pos hm, if_pos hm', Option.some.injEq, TreePosition.mk.injEq] at h
      obtain ⟨hspace, hsubspace, hcallout, hdepth⟩ := h
      simp only [if_pos hm, if_pos hm', HierarchyMetadata.unnamed, filter_eq_of_getD hspace,
        filter_eq_of_getD hsubspace, filter_eq_of_getD hcallout, hdepth]
    · rw [if_pos hm, if_neg hm'] at h
      cases h
  · by_cases hm' : hasPosition m' = true
    · rw [if_neg hm, if_pos hm'] at h
      cases h
    · rw [if_neg hm, if_neg hm']

theorem sameStored_of_identity {c c' : Chunk} (h : c.identity = c'.identity) :
    SameStored (StoreStep.metaEntry c) (StoreStep.metaEntry c') := by
  simp only [Chunk.identity, ContentIdentity.mk.injEq] at h
  obtain ⟨_, htitle, hsource, htype, hdoc, hlabel, hposition⟩ := h
  exact ⟨congrArg some hdoc, hsource, htype, htitle, hlabel, unnamed_of_treePosition hposition⟩

/-- Content chunks with one fingerprint store one metadata. -/
theorem sameStored_of_hash {host : Host} {chunks : Set Chunk} (hcoll : CollisionFree host chunks)
    {c c' : Chunk} (hc : c ∈ chunks) (hc' : c' ∈ chunks) (hcontent : c.isContent = true)
    (hcontent' : c'.isContent = true) (h : contentHash host c = contentHash host c') :
    SameStored (StoreStep.metaEntry c) (StoreStep.metaEntry c') := by
  have hcanonical : canonical c = canonical c' := hcoll.injOn ⟨c, hc, rfl⟩ ⟨c', hc', rfl⟩ h
  have hsegments := segments_inj (hcoll.nulFree c hc) (hcoll.nulFree c' hc') hcanonical
  rw [segments_eq_texts hcontent, segments_eq_texts hcontent'] at hsegments
  exact sameStored_of_identity
    (texts_injective (identity_label hcontent) (identity_label hcontent') hsegments)

/-! ## Collections -/

/-- A content entry has the metadata of a passage with its id as fingerprint. -/
theorem WellFormed.metadata {host : Host} {runs : Set IngestRun} {s : Collection}
    (hs : WellFormed host runs s) {e : Entry} (he : e ∈ s) (hcontent : e.isContent = true) :
    ∃ c ∈ produced host runs, c.isContent = true ∧ c.metadata.embeddingType.isSome = true ∧
      e.id = contentHash host c ∧ e.metadata = StoreStep.metaEntry c := by
  obtain ⟨r, hr, c, hc, heq⟩ := (hs e he).content hcontent
  obtain ⟨doc, _, hpassage⟩ := IngestRun.mem_passages.mp hc
  refine ⟨c, ⟨r, hr, hc⟩, (IngestRun.passage_spec hc).2.1, contentChunks_label hpassage, ?_, ?_⟩
  · rw [heq]
    exact storageId_passage hc
  · rw [heq]
    rfl

variable {host : Host} {ports : Ports} {earlier : List IngestRun} {r : IngestRun}

/-- What is admissible after some runs is admissible on its own. -/
theorem Admissible.fresh (h : Admissible host r earlier) : Admissible host r [] where
  ids_nodup := h.ids_nodup
  ids_ne := h.ids_ne
  yields := h.yields
  suffixFree := fun r₁ hr₁ d hd r₂ hr₂ =>
    h.suffixFree r₁ (List.mem_cons.mpr (Or.inl (List.mem_singleton.mp hr₁))) d hd r₂
      (List.mem_cons.mpr (Or.inl (List.mem_singleton.mp hr₂)))
  bokFree := fun r₁ hr₁ => h.bokFree r₁ (List.mem_cons.mpr (Or.inl (List.mem_singleton.mp hr₁)))
  collisionFree := h.collisionFree.mono fun _ ⟨r₁, hr₁, hc⟩ =>
    ⟨r₁, List.mem_cons.mpr (Or.inl (List.mem_singleton.mp hr₁)), hc⟩

def wordHost : Host :=
  .ofTable
    [("red\x00\x00s\x00knowledge\x00a",
        "7c4418830898c52ed1c004dd25f8c55620456dc1e28b0f1b4cdd4e1c8cbc571e"),
      ("blue\x00\x00s\x00knowledge\x00a",
        "cde7b112c3a5ea1c252881915b484e6b436d45fa191c8f84134882a53051c167")] (by decide)

/-- A run that cuts its pages into words. -/
def wordRun (pages : List Document) : IngestRun := ⟨{ chunkSize := 3, chunkOverlap := 0 }, pages⟩

/-- What such a run returns and leaves. -/
def runWords (s : Collection) (pages : List Document) : IngestResult × Collection :=
  let (result, _, s') := ((wordRun pages).program wordHost).eval pagePorts s
  (result, s')

theorem runWords_runs (s : Collection) (pages : List Document) :
    Runs (portWorld .any) ((wordRun pages).program wordHost) s
      (((wordRun pages).program wordHost).eval pagePorts s).2.1 (runWords s pages).1
      (runWords s pages).2 :=
  eval_runs (steadyPorts_portWorld (fun _ _ => trivial) fun _ => trivial) _ s

theorem runWords_reachable (pages : List Document) :
    Reachable wordHost .any [wordRun pages] (runWords .empty pages).2 :=
  .run _ .empty (runWords_runs .empty pages).reaches

/-- The page "a" under the given uri. -/
def uriPage (uri : String) : Document where
  content := "red"
  metadata := { documentId := "a", source := "s", uri := some uri }

end VirtualContributor.Pipeline
