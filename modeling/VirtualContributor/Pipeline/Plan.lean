import VirtualContributor.Pipeline.Convergence

/-!
# What a run finds to do

A run that has the collection to itself, and whose store calls succeed, takes
every decision from the collection it starts with, however its documents are
cut into batches.

* `Solo` is such a run.  Models and embeddings may still fail.
* `Found`, `Orphan`, `Changed` and `Removed` are the decisions, read off
  `Solo.start`.
* `Sees` says that the collection of the moment shows a batch what the start
  showed, and `detection_leaves` that detection then computes the decisions.
-/

namespace VirtualContributor.Pipeline

open Lib Program

/-! ## The run -/

/-- A call of the store succeeds. -/
def StoreSucceeds : (c : IngestCall) → c.Answer → Prop
  | .get _ _, r => ∃ g, r = .ok g
  | .ingest _, r => r = .ok ()
  | .deleteIds _, r => r = .ok ()
  | .deleteWhere _, r => r = .ok ()
  | .invoke _ _, _ => True
  | .embed _, _ => True

/-- No id in use reads like the one of a derived entry. -/
structure PlainIds (runs : Set IngestRun) : Prop where
  suffixFree : SuffixFree runs
  bokFree : ∀ r ∈ runs, ∀ d ∈ r.ids,
    d ≠ BOK_SUMMARY_DOCUMENT_ID ∧ summaryDocumentId d ≠ BOK_SUMMARY_DOCUMENT_ID

/-- A run that has the collection `start` to itself.  Its calls get answers
that satisfy `ok`. -/
structure Solo extends Setting where
  start : Collection
  wf : WellFormed host runs start
  plain : PlainIds runs
  ok : (c : IngestCall) → c.Answer → Prop
  store_ok : ∀ c r, ok c r → StoreSucceeds c r

namespace Solo

variable (K : Solo)

/-- The ports, as far as they answer the run. -/
def world : World ingestSignature Collection := (portWorld K.ports).restrict K.ok

/-- What a program of the run leaves. -/
abbrev Leaves {α : Type} (p : Ingest α) (Q : α → Collection → Prop) (s : Collection) : Prop :=
  p.Ensures K.world .none (fun _ _ _ _ => True) Q s

/-- The promise to read only. -/
def reads : World ingestSignature Collection := fun s c _ s' => IsGet c ∧ s' = s

/-! ## The decisions -/

/-- The ids that the collection holds of a document at the start. -/
def storedIds (d : String) : List String := (K.start.select (some d)).map Entry.id

/-- The passage is stored at the start. -/
def Found (c : Chunk) : Prop := K.key c ∈ K.storedIds c.docId

instance (c : Chunk) : Decidable (K.Found c) := inferInstanceAs (Decidable (_ ∈ _))

/-- The passages of a document. -/
def chunksOf (d : String) : List Chunk := K.passages.filter (fun c => c.docId = d)

/-- The id is stored for the document, and it is the fingerprint of none of
its passages. -/
def Orphan (d k : String) : Prop := k ∈ K.storedIds d ∧ ∀ c ∈ K.chunksOf d, K.key c ≠ k

/-- The document is not stored as it is. -/
def Changed (d : String) : Prop := (∃ c ∈ K.chunksOf d, ¬ K.Found c) ∨ ∃ k, K.Orphan d k

/-- The document is stored and no longer in the corpus. -/
def Removed (x : String) : Prop := x ∈ documentsIn K.start ∧ x ≠ "" ∧ x ∉ K.run.ids

/-- The collection `s` shows a batch what the start showed. -/
structure Sees (batch : List Document) (s : Collection) : Prop where
  wf : WellFormed K.host K.runs s
  ids : ∀ d ∈ K.docIdsOf batch, ∀ k,
    k ∈ (s.select (some d)).map Entry.id ↔ k ∈ K.storedIds d
  docs : ∀ x, x ∉ K.run.ids → (x ∈ documentsIn s ↔ x ∈ documentsIn K.start)

variable {K} {batch : List Document} {ctx ctx₀ : PipelineContext} {s s' : Collection}

/-- The decision does not depend on the embedding. -/
theorem found_congr {c c' : Chunk} (h : c.bare = c'.bare) (hf : K.Found c) : K.Found c' := by
  have hf' : K.Found c.bare := hf
  rw [h] at hf'
  exact hf'

/-- A document with content has a fingerprint in the collection. -/
theorem mem_documentsIn (hs : WellFormed K.host K.runs s) {d : String} :
    d ∈ documentsIn s ↔ ∃ k ∈ entryIds s, K.Owner k d := by
  constructor
  · rintro ⟨e, he, hc, hdoc⟩
    obtain ⟨d', hdoc', howner⟩ := Setting.owner_of_mem (K := K.toSetting) hs he hc
    obtain rfl := Option.some.inj (hdoc.symm.trans hdoc')
    exact ⟨e.id, ⟨e, he, rfl⟩, howner⟩
  · rintro ⟨_, ⟨e, he, rfl⟩, howner⟩
    have hc := Setting.isContent_of_owner hs he howner
    exact ⟨e, he, hc, Setting.docId_of_owner hs he hc howner⟩

/-! ## The passages of a document -/

theorem filter_passagesOf {docs : List Document} (hdocs : (docs.map Document.id).Nodup)
    {doc : Document} (hdoc : doc ∈ docs) :
    (K.passagesOf docs).filter (fun c => c.docId = doc.id)
      = contentChunks K.host K.run.pipeline.chunkStep doc := by
  have hself (x : Document) : (contentChunks K.host K.run.pipeline.chunkStep x).filter
      (fun c => c.docId = x.id) = contentChunks K.host K.run.pipeline.chunkStep x :=
    List.filter_eq_self.mpr fun c hc => decide_eq_true (contentChunks_spec hc).1
  have hother {x y : Document} (hxy : x.id ≠ y.id) :
      (contentChunks K.host K.run.pipeline.chunkStep x).filter (fun c => c.docId = y.id) = [] := by
    rw [List.filter_eq_nil_iff]
    intro c hc h
    exact hxy ((contentChunks_spec hc).1.symm.trans (of_decide_eq_true h))
  induction docs with
  | nil => exact absurd hdoc List.not_mem_nil
  | cons x xs ih =>
    rw [List.map_cons, List.nodup_cons] at hdocs
    rw [Setting.passagesOf, List.flatMap_cons, List.filter_append]
    rcases List.mem_cons.mp hdoc with rfl | hdoc
    · have hrest : (xs.flatMap (contentChunks K.host K.run.pipeline.chunkStep)).filter
          (fun c => c.docId = doc.id) = [] := by
        rw [List.filter_flatMap, List.flatMap_eq_nil_iff]
        exact fun y hy => hother fun h => hdocs.1 (h ▸ List.mem_map_of_mem hy)
      rw [hself, hrest, List.append_nil]
    · have hx : x.id ≠ doc.id := fun h => hdocs.1 (h ▸ List.mem_map_of_mem hdoc)
      rw [hother hx, List.nil_append]
      exact ih hdocs.2 hdoc

/-- The passages of a document are those in its batch. -/
theorem chunksOf_eq (hbatch : batch.Sublist K.run.documents) {d : String}
    (hd : d ∈ K.docIdsOf batch) :
    (K.passagesOf batch).filter (fun c => c.docId = d) = K.chunksOf d := by
  obtain ⟨c, hc, rfl⟩ := hd
  obtain ⟨doc, hdoc, hc⟩ := List.mem_flatMap.mp hc
  have hnodup : (batch.map Document.id).Nodup := (hbatch.map _).nodup K.nodup_ids
  rw [(contentChunks_spec hc).1, filter_passagesOf hnodup hdoc]
  exact (filter_passagesOf K.nodup_ids (hbatch.subset hdoc)).symm

/-! ## Comparing the documents -/

/-- The context `ctx` is `ctx₀` after the documents `seen` were compared. -/
structure Comparing (K : Solo) (batch : List Document) (seen : List String)
    (ctx₀ ctx : PipelineContext) : Prop where
  rest : ctx = { ctx₀ with
    chunks := ctx.chunks, unchangedChunkHashes := ctx.unchangedChunkHashes,
    orphanIds := ctx.orphanIds, changedDocumentIds := ctx.changedDocumentIds,
    chunksSkipped := ctx.chunksSkipped }
  chunks : ctx.chunks.map Chunk.bare = K.passagesOf batch
  unchanged : ∀ k, k ∈ ctx.unchangedChunkHashes ↔
    ∃ c ∈ K.passagesOf batch, c.docId ∈ seen ∧ K.Found c ∧ K.key c = k
  skipped : ctx.chunksSkipped =
    (K.passagesOf batch).countP (fun c => c.docId ∈ seen ∧ K.Found c)
  changed : ∀ d, d ∈ ctx.changedDocumentIds ↔ d ∈ seen ∧ K.Changed d
  orphans : ∀ k, k ∈ ctx.orphanIds ↔ ∃ d ∈ seen, K.Orphan d k
  preloaded : ∀ c ∈ ctx.chunks, c.embedding.isSome = true → K.Found c
  embedded : K.ports.returnsEmbeddings → ∀ c ∈ ctx.chunks, c.docId ∈ seen → K.Found c →
    c.embedding.isSome = true

section Batch

variable (hbatch : batch.Sublist K.run.documents)
  (hchunks : ctx.chunks.map Chunk.bare = K.passagesOf batch)

include hbatch hchunks

/-- The hashes that detection compares for one document, in order. -/
theorem hashes_eq (d : String) :
    (ChangeDetectionStep.docChunks ctx.chunks d).filterMap Chunk.contentHash
      = ((K.passagesOf batch).filter (fun c => c.docId = d)).map K.key := by
  have hbare : (ChangeDetectionStep.docChunks ctx.chunks d).map Chunk.bare
      = (K.passagesOf batch).filter (fun c => c.isContent && c.docId = d) := by
    rw [← hchunks, List.filter_map]
    rfl
  have hcontent : (K.passagesOf batch).filter (fun c => c.isContent && c.docId = d)
      = (K.passagesOf batch).filter (fun c => c.docId = d) := by
    refine List.filter_congr fun c hc => ?_
    rw [(IngestRun.passage_spec (Setting.mem_passagesOf (fun _ h => hbatch.subset h) hc)).2.1,
      Bool.true_and]
  have hmap : (ChangeDetectionStep.docChunks ctx.chunks d).filterMap Chunk.contentHash
      = ((ChangeDetectionStep.docChunks ctx.chunks d).map Chunk.bare).filterMap
          Chunk.contentHash := by
    rw [List.filterMap_map]
    rfl
  rw [hmap, hbare, hcontent, ← List.filterMap_eq_map]
  refine List.filterMap_congr fun c hc => ?_
  exact (IngestRun.passage_spec (Setting.mem_passagesOf (fun _ h => hbatch.subset h)
    (List.mem_of_mem_filter hc))).2.2.1

omit hbatch hchunks

/-- The store hands out the embedding of every id that it lists. -/
theorem isSome_existingEmbedding {es : List Entry} {g : GetResult} (hlists : g.Lists es)
    (hemb : g.embeddings = some (es.map Entry.embedding)) {k : String} (hk : k ∈ g.ids) :
    (ChangeDetectionStep.existingEmbedding g k).isSome = true := by
  rw [hlists.1, List.mem_map] at hk
  obtain ⟨e, he, rfl⟩ := hk
  rw [ChangeDetectionStep.existingEmbedding, hlists.1, hemb, Option.getD_some, List.zip_map',
    List.lookup_isSome_iff]
  exact ⟨(e.id, e.embedding), List.mem_reverse.mpr (List.mem_map_of_mem he), beq_self_eq_true _⟩

/-- Only a stored passage of the document gets an embedding. -/
theorem isSome_of_preload {g : GetResult} {d : String} {c : Chunk}
    (h : (ChangeDetectionStep.preload g d c).embedding.isSome = true) :
    c.embedding.isSome = true ∨ c.docId = d ∧ ∃ k, c.contentHash = some k ∧ k ∈ g.ids := by
  unfold ChangeDetectionStep.preload at h
  split at h
  · rename_i hc
    rw [Bool.and_eq_true, decide_eq_true_iff] at hc
    split at h
    · exact Or.inl h
    · rename_i k hk
      split at h
      · rename_i hin
        exact Or.inr ⟨hc.2, k, hk, hin⟩
      · exact Or.inl h
  · exact Or.inl h

/-- A stored passage of the document gets the embedding that the store
returned. -/
theorem isSome_preload {g : GetResult} {d k : String} {c : Chunk} (hc : c.isContent = true)
    (hdoc : c.docId = d) (hhash : c.contentHash = some k) (hk : k ∈ g.ids)
    (he : (ChangeDetectionStep.existingEmbedding g k).isSome = true) :
    (ChangeDetectionStep.preload g d c).embedding.isSome = true := by
  obtain ⟨v, hv⟩ := Option.isSome_iff_exists.mp he
  simp [ChangeDetectionStep.preload, hc, hdoc, hhash, hk, hv]

theorem preload_isSome {g : GetResult} {d : String} {c : Chunk}
    (h : c.embedding.isSome = true) :
    (ChangeDetectionStep.preload g d c).embedding.isSome = true := by
  unfold ChangeDetectionStep.preload
  split
  · split
    · exact h
    · split
      · split
        · exact h
        · rfl
      · exact h
  · exact h

theorem preload_bare (g : GetResult) (d : String) (c : Chunk) :
    (ChangeDetectionStep.preload g d c).bare = c.bare := by
  have h := ChangeDetectionStep.map_bare_preload g d [c]
  exact List.head_eq_of_cons_eq h

section Listed

variable {d : String} {g : GetResult} (hids : ∀ k, k ∈ g.ids ↔ k ∈ K.storedIds d)

include hids in
/-- A passage of the document was found exactly when the store lists its key. -/
theorem found_iff_listed {c : Chunk} (hdoc : c.docId = d) : K.Found c ↔ K.key c ∈ g.ids := by
  rw [hids, ← hdoc]
  rfl

include hbatch hchunks in
theorem mem_docHashes {k : String} :
    k ∈ (ChangeDetectionStep.docChunks ctx.chunks d).filterMap Chunk.contentHash ↔
      ∃ c ∈ K.passagesOf batch, c.docId = d ∧ K.key c = k := by
  rw [hashes_eq hbatch hchunks d, List.mem_map]
  simp only [List.mem_filter, decide_eq_true_iff, and_assoc]

include hbatch in
theorem mem_chunksOf (hd : d ∈ K.docIdsOf batch) {c : Chunk} :
    c ∈ K.chunksOf d ↔ c ∈ K.passagesOf batch ∧ c.docId = d := by
  rw [← chunksOf_eq hbatch hd, List.mem_filter, decide_eq_true_iff]

include hbatch hchunks hids in
/-- The ids that are listed and not hashed are those of the orphans. -/
theorem mem_docOrphans (hd : d ∈ K.docIdsOf batch) {k : String} :
    k ∈ (OrderedSet.ofList g.ids).diff (.ofList
      ((ChangeDetectionStep.docChunks ctx.chunks d).filterMap Chunk.contentHash)) ↔
        K.Orphan d k := by
  rw [OrderedSet.mem_diff, OrderedSet.mem_ofList, OrderedSet.mem_ofList, hids,
    mem_docHashes hbatch hchunks]
  refine and_congr_right fun _ => ⟨fun hnot c hc hk => ?_, ?_⟩
  · obtain ⟨hc, hdoc⟩ := (mem_chunksOf hbatch hd).mp hc
    exact hnot ⟨c, hc, hdoc, hk⟩
  · rintro hnot ⟨c, hc, hdoc, hk⟩
    exact hnot c ((mem_chunksOf hbatch hd).mpr ⟨hc, hdoc⟩) hk

include hbatch hchunks hids in
/-- The document is marked as changed exactly when it is. -/
theorem docChanged_iff (hd : d ∈ K.docIdsOf batch) :
    (((ChangeDetectionStep.docChunks ctx.chunks d).filterMap
      Chunk.contentHash).any (· ∉ g.ids) || !((OrderedSet.ofList g.ids).diff (.ofList
      ((ChangeDetectionStep.docChunks ctx.chunks d).filterMap Chunk.contentHash))).isEmpty)
        = true ↔ K.Changed d := by
  rw [Bool.or_eq_true, List.any_eq_true, Bool.not_eq_true', ← Bool.not_eq_true,
    OrderedSet.isEmpty_iff, not_forall]
  simp only [decide_eq_true_iff, not_not, mem_docOrphans hbatch hchunks hids hd]
  refine or_congr_left ⟨?_, ?_⟩
  · rintro ⟨k, hk, hnot⟩
    obtain ⟨c, hc, hdoc, rfl⟩ := (mem_docHashes hbatch hchunks).mp hk
    exact ⟨c, (mem_chunksOf hbatch hd).mpr ⟨hc, hdoc⟩,
      fun hf => hnot ((found_iff_listed hids hdoc).mp hf)⟩
  · rintro ⟨c, hc, hnot⟩
    obtain ⟨hc, hdoc⟩ := (mem_chunksOf hbatch hd).mp hc
    exact ⟨K.key c, (mem_docHashes hbatch hchunks).mpr ⟨c, hc, hdoc, rfl⟩,
      fun hk => hnot ((found_iff_listed hids hdoc).mpr hk)⟩

include hbatch hchunks hids in
/-- The hashes of one more document that are listed, beside those of the documents
before. -/
theorem countP_found_cons {seen : List String} (hnew : d ∉ seen) :
    (K.passagesOf batch).countP (fun c => c.docId ∈ seen ∧ K.Found c) +
        (((ChangeDetectionStep.docChunks ctx.chunks d).filterMap Chunk.contentHash).filter
          (· ∈ g.ids)).length =
      (K.passagesOf batch).countP (fun c => c.docId ∈ d :: seen ∧ K.Found c) := by
  rw [hashes_eq hbatch hchunks, List.filter_map, List.length_map, ← List.countP_eq_length_filter,
    List.countP_filter, Nat.add_comm, List.countP_eq_countP_filter_add (K.passagesOf batch)
      (fun c => decide (c.docId ∈ d :: seen ∧ K.Found c)) (fun c => decide (c.docId = d)),
    List.countP_filter, List.countP_filter]
  congr 1
  · refine List.countP_congr fun c _ => ?_
    by_cases hdoc : c.docId = d
    · simp [hdoc, found_iff_listed hids hdoc]
    · simp [hdoc]
  · refine List.countP_congr fun c _ => ?_
    by_cases hdoc : c.docId = d
    · simp [hdoc, hnew]
    · simp [hdoc]

end Listed

include hbatch

/-- Comparing one more document. -/
theorem Comparing.compareDoc {seen : List String} {d : String} {g : GetResult}
    (hsees : K.Sees batch s) (hd : d ∈ K.docIdsOf batch) (hnew : d ∉ seen)
    (hlists : g.Lists (s.select (some d)))
    (hemb : K.ports.returnsEmbeddings →
      g.embeddings = some ((s.select (some d)).map Entry.embedding))
    (h : Comparing K batch seen ctx₀ ctx) :
    Comparing K batch (d :: seen) ctx₀ (ChangeDetectionStep.compareDoc ctx d g) := by
  have hids (k : String) : k ∈ g.ids ↔ k ∈ K.storedIds d := by
    rw [hlists.1]
    exact hsees.ids d hd k
  have hpassage {c : Chunk} (hc : c ∈ ctx.chunks) :=
    Setting.passage_of_mem_chunks (fun _ h => hbatch.subset h) h.chunks hc
  have hfound {c : Chunk} (hdoc : c.docId = d) := found_iff_listed hids hdoc
  have hchanged := docChanged_iff hbatch h.chunks hids hd
  refine ⟨?_, ?_, ?_, ?_, ?_, ?_, ?_, ?_⟩
  · rw [h.rest]
    rfl
  · exact (ChangeDetectionStep.map_bare_preload g d ctx.chunks).trans h.chunks
  · intro k
    show k ∈ OrderedSet.insertAll _ _ ↔ _
    rw [OrderedSet.mem_insertAll, h.unchanged, List.mem_filter, mem_docHashes hbatch h.chunks,
      decide_eq_true_iff]
    constructor
    · rintro (⟨c, hc, hdoc, hf, rfl⟩ | ⟨⟨c, hc, hdoc, rfl⟩, hin⟩)
      · exact ⟨c, hc, List.mem_cons_of_mem _ hdoc, hf, rfl⟩
      · exact ⟨c, hc, hdoc ▸ List.mem_cons_self .., (hfound hdoc).mpr hin, rfl⟩
    · rintro ⟨c, hc, hdoc, hf, rfl⟩
      rcases List.mem_cons.mp hdoc with hdoc | hdoc
      · exact Or.inr ⟨⟨c, hc, hdoc, rfl⟩, (hfound hdoc).mp hf⟩
      · exact Or.inl ⟨c, hc, hdoc, hf, rfl⟩
  · show ctx.chunksSkipped + _ = _
    rw [h.skipped]
    exact countP_found_cons hbatch h.chunks hids hnew
  · intro d'
    show d' ∈ (if _ then _ else _) ↔ _
    split
    · rename_i hif
      rw [OrderedSet.mem_insert, h.changed, List.mem_cons, or_and_right, or_comm]
      refine or_congr_left ⟨?_, And.left⟩
      rintro rfl
      exact ⟨rfl, hchanged.mp hif⟩
    · rename_i hif
      rw [h.changed, List.mem_cons]
      constructor
      · exact fun hd' => ⟨Or.inr hd'.1, hd'.2⟩
      · rintro ⟨rfl | hd', hch⟩
        · exact absurd (hchanged.mpr hch) hif
        · exact ⟨hd', hch⟩
  · intro k
    show k ∈ OrderedSet.union _ _ ↔ _
    rw [OrderedSet.mem_union, h.orphans, mem_docOrphans hbatch h.chunks hids hd]
    simp only [List.mem_cons, exists_eq_or_imp]
    exact or_comm
  · intro c hc hsome
    obtain ⟨c₀, hc₀, rfl⟩ := List.mem_map.mp hc
    have hbare := preload_bare g d c₀
    rcases isSome_of_preload hsome with hsome | ⟨hdoc, k, hhash, hk⟩
    · exact found_congr hbare.symm (h.preloaded c₀ hc₀ hsome)
    · refine found_congr hbare.symm ((hfound hdoc).mpr ?_)
      rw [(hpassage hc₀).2.2] at hhash
      exact Option.some.inj hhash ▸ hk
  · intro hret c hc hdoc hf
    obtain ⟨c₀, hc₀, rfl⟩ := List.mem_map.mp hc
    have hbare := preload_bare g d c₀
    have hf₀ : K.Found c₀ := found_congr hbare hf
    have hdoc₀ : c₀.docId ∈ d :: seen := congrArg Chunk.docId hbare ▸ hdoc
    rcases List.mem_cons.mp hdoc₀ with hdoc₀ | hdoc₀
    · have hin := (hfound hdoc₀).mp hf₀
      exact isSome_preload (hpassage hc₀).2.1 hdoc₀ (hpassage hc₀).2.2 hin
        (isSome_existingEmbedding hlists (hemb hret) hin)
    · exact preload_isSome (h.embedded hret c₀ hc₀ hdoc₀ hf₀)

omit hbatch

/-- A read: it succeeds and lists the collection of the moment. -/
theorem reads_storeGet {α : Type} {d : Option String} {b : Bool}
    {f : Except String GetResult → Ingest α} {Q : α → Collection → Prop}
    (h : ∀ g : GetResult, g.Lists (s.select d) →
      (K.ports.returnsEmbeddings → b = true →
        g.embeddings = some ((s.select d).map Entry.embedding)) →
      (f (.ok g)).Ensures K.world .none reads Q s) :
    ((storeGet d b).bind f).Ensures K.world .none reads Q s := by
  rintro _ rfl r s₂ ⟨hw, hok⟩
  obtain ⟨g, rfl⟩ := K.store_ok (.get d b) r hok
  obtain ⟨rfl, hlists, hemb⟩ := hw
  refine ⟨⟨trivial, rfl⟩, h g hlists fun hret hb => ?_⟩
  exact hemb.resolve_right fun hnot => hnot.2 ⟨hret, hb⟩

include hbatch

/-- The loop over the documents of a batch. -/
theorem detectDocs_reads {docIds seen : List String} (hnodup : docIds.Nodup)
    (hnew : ∀ d ∈ docIds, d ∉ seen) (hdocIds : ∀ d ∈ docIds, d ∈ K.docIdsOf batch)
    (hsees : K.Sees batch s) (h : Comparing K batch seen ctx₀ ctx) :
    (ChangeDetectionStep.detectDocs docIds ctx).Ensures K.world .none reads
      (fun r s' => s' = s ∧ r.2 = none ∧ ∃ ctx' seen', Comparing K batch seen' ctx₀ ctx' ∧
        r.1 = { ctx' with changeDetectionRan := true } ∧
        ∀ d, d ∈ seen' ↔ d ∈ seen ∨ d ∈ docIds) s := by
  induction docIds generalizing ctx seen with
  | nil => exact ensures_done (stable_none _) ⟨rfl, rfl, ctx, seen, h, rfl, by simp⟩
  | cons d rest ih =>
    obtain ⟨hd, hrest⟩ := List.forall_mem_cons.mp hdocIds
    obtain ⟨hd', hnew'⟩ := List.forall_mem_cons.mp hnew
    obtain ⟨hnot, hnodup'⟩ := List.nodup_cons.mp hnodup
    refine reads_storeGet fun g hlists hemb => ?_
    refine (ih hnodup' ?_ hrest (h.compareDoc hbatch hsees hd hd' hlists
      fun hret => hemb hret rfl)).mono ?_
    · intro x hx hx'
      rcases List.mem_cons.mp hx' with rfl | hx'
      · exact hnot hx
      · exact hnew' x hx hx'
    · rintro r s' ⟨rfl, hnone, ctx', seen', hcmp, hr, hseen⟩
      refine ⟨rfl, hnone, ctx', seen', hcmp, hr, fun x => ?_⟩
      rw [hseen, List.mem_cons, List.mem_cons, ← or_assoc, or_comm (a := x ∈ seen)]

end Batch

/-- The context `ctx` is `ctx₀`, which has the passages of the batch, after
detection: it holds the decisions for the documents of the batch. -/
structure Detected (K : Solo) (batch : List Document) (ctx₀ ctx : PipelineContext) : Prop where
  rest : ctx = { ctx₀ with
    chunks := ctx.chunks, unchangedChunkHashes := ctx.unchangedChunkHashes,
    orphanIds := ctx.orphanIds, changedDocumentIds := ctx.changedDocumentIds,
    chunksSkipped := ctx.chunksSkipped, removedDocumentIds := ctx.removedDocumentIds,
    changeDetectionRan := true }
  chunks : ctx.chunks.map Chunk.bare = K.passagesOf batch
  unchanged : ∀ k, k ∈ ctx.unchangedChunkHashes ↔
    ∃ c ∈ K.passagesOf batch, K.Found c ∧ K.key c = k
  skipped : ctx.chunksSkipped = (K.passagesOf batch).countP (fun c => K.Found c)
  changed : ∀ d, d ∈ ctx.changedDocumentIds ↔ d ∈ K.docIdsOf batch ∧ K.Changed d
  orphans : ∀ k, k ∈ ctx.orphanIds ↔ ∃ d ∈ K.docIdsOf batch, K.Orphan d k
  removed : ∀ x, x ∈ ctx.removedDocumentIds ↔ K.Removed x
  preloaded : ∀ c ∈ ctx.chunks, c.embedding.isSome = true → K.Found c
  embedded : K.ports.returnsEmbeddings → ∀ c ∈ ctx.chunks, K.Found c →
    c.embedding.isSome = true

/-- A context of a batch before detection: it has the passages of the batch
and nothing else. -/
structure Undetected (K : Solo) (batch : List Document) (ctx : PipelineContext) : Prop where
  chunks : ctx.chunks = K.passagesOf batch
  unchanged : ctx.unchangedChunkHashes = .empty
  orphans : ctx.orphanIds = .empty
  changed : ctx.changedDocumentIds = .empty
  skipped : ctx.chunksSkipped = 0
  all : ctx.allDocumentIds = .ofList K.run.ids

section Batch

variable (hbatch : batch.Sublist K.run.documents)

include hbatch

/-- What the listing says of removed documents. -/
theorem mem_removed {listing : GetResult} (hdocs : batch ≠ []) (hsees : K.Sees batch s)
    (hlists : listing.Lists (s.select none)) (hall : ctx.allDocumentIds = .ofList K.run.ids)
    (x : String) :
    x ∈ (ChangeDetectionStep.existingDocIds listing).diff
      (ChangeDetectionStep.knownDocIds ctx) ↔ K.Removed x := by
  have hne : (OrderedSet.ofList K.run.ids).isEmpty = false := by
    rw [← Bool.not_eq_true, OrderedSet.isEmpty_iff]
    intro hempty
    obtain ⟨doc, hdoc⟩ := List.exists_mem_of_ne_nil _ hdocs
    exact hempty doc.id (OrderedSet.mem_ofList.mpr (List.mem_map_of_mem (hbatch.subset hdoc)))
  rw [OrderedSet.mem_diff, Setting.mem_existingDocIds (K := K.toSetting) hlists hsees.wf,
    ChangeDetectionStep.knownDocIds, hall, hne, if_neg Bool.false_ne_true, OrderedSet.mem_ofList,
    ← mem_documentsIn hsees.wf]
  constructor
  · rintro ⟨⟨hx, hin⟩, hnot⟩
    exact ⟨(hsees.docs x hnot).mp hin, hx, hnot⟩
  · rintro ⟨hin, hx, hnot⟩
    exact ⟨⟨hx, (hsees.docs x hnot).mpr hin⟩, hnot⟩

/-- Detection computes the decisions, and it reads only. -/
theorem detection_reads (hdocs : batch ≠ []) (hsees : K.Sees batch s)
    (h₀ : Undetected K batch ctx₀) :
    (ChangeDetectionStep.execute ctx₀).Ensures K.world .none reads
      (fun ctx s' => s' = s ∧ Detected K batch ctx₀ ctx) s := by
  have hspec {c : Chunk} (hc : c ∈ ctx₀.chunks) :=
    IngestRun.passage_spec (Setting.mem_passagesOf (fun _ h => hbatch.subset h) (h₀.chunks ▸ hc))
  have hbare : ctx₀.chunks.map Chunk.bare = K.passagesOf batch := by
    rw [← h₀.chunks]
    exact (List.map_congr_left fun c hc => Chunk.bare_eq_self (hspec hc).2.2.2).trans
      (List.map_id _)
  have hids {d : String} : d ∈ ChangeDetectionStep.currentDocIds ctx₀.chunks ↔
      d ∈ K.docIdsOf batch :=
    Setting.mem_currentDocIds (fun _ h => hbatch.subset h) hbare
  show ((storeGet none false).bind _ |>.bind _).Ensures K.world .none reads _ s
  rw [Program.bind_assoc]
  refine reads_storeGet fun listing hlists _ => ?_
  have hinit : Comparing K batch [] { ctx₀ with
      removedDocumentIds := (ChangeDetectionStep.existingDocIds listing).diff
        (ChangeDetectionStep.knownDocIds ctx₀) } { ctx₀ with
      removedDocumentIds := (ChangeDetectionStep.existingDocIds listing).diff
        (ChangeDetectionStep.knownDocIds ctx₀) } := by
    refine ⟨rfl, hbare, ?_, ?_, ?_, ?_, ?_, ?_⟩
    · intro k
      simp [h₀.unchanged]
    · simp [h₀.skipped]
    · intro d
      simp [h₀.changed]
    · intro k
      simp [h₀.orphans]
    · intro c hc hsome
      rw [(hspec hc).2.2.2] at hsome
      cases hsome
    · intro _ c _ hc
      exact absurd hc List.not_mem_nil
  refine (detectDocs_reads hbatch (OrderedSet.nodup _) (fun _ _ => List.not_mem_nil)
    (fun d hd => hids.mp hd) hsees hinit).bind ?_
  rintro ⟨_, _⟩ s' ⟨rfl, rfl, ctx, seen, hcmp, rfl, hseen⟩
  have hall {d : String} : d ∈ seen ↔ d ∈ K.docIdsOf batch := by
    rw [hseen, ← hids]
    exact or_iff_right List.not_mem_nil
  have hof {c : Chunk} (hc : c ∈ K.passagesOf batch) : c.docId ∈ seen := hall.mpr ⟨c, hc, rfl⟩
  have hin {c : Chunk} (hc : c ∈ ctx.chunks) : c.docId ∈ seen :=
    hof (c := c.bare) (hcmp.chunks ▸ List.mem_map_of_mem hc)
  refine ensures_done (stable_none _) ⟨rfl, ?_, hcmp.chunks, fun k => ?_, ?_, fun d => ?_,
    fun k => ?_, fun x => ?_, hcmp.preloaded, fun hret c hc => hcmp.embedded hret c hc (hin hc)⟩
  · show { ctx with changeDetectionRan := true } = _
    rw [hcmp.rest]
  · show k ∈ ctx.unchangedChunkHashes ↔ _
    rw [hcmp.unchanged]
    refine exists_congr fun c => and_congr_right fun hc => ?_
    exact and_iff_right (hof hc)
  · show ctx.chunksSkipped = _
    rw [hcmp.skipped]
    refine List.countP_congr fun c hc => ?_
    simp [hof hc]
  · show d ∈ ctx.changedDocumentIds ↔ _
    rw [hcmp.changed, hall]
  · show k ∈ ctx.orphanIds ↔ _
    rw [hcmp.orphans]
    simp only [hall]
  · show x ∈ ctx.removedDocumentIds ↔ _
    rw [hcmp.rest]
    exact mem_removed hbatch hdocs hsees hlists h₀.all x

end Batch

end Solo

end VirtualContributor.Pipeline
