import VirtualContributor.Pipeline.BatchSpec

/-!
# What a whole run establishes

The steps after detection, the merge of the batches, the finalize pass and
the cleanup, each as one lemma about `Setting.Progress`.

`Converged` is the conclusion: once a run succeeds, a content entry is the
run's own or somebody else's, no passage of the run is missing, and the
content that the removal of a document hits is gone.  `program_ensures` is
the judgement of the whole run, under interference.
-/

namespace VirtualContributor.Pipeline

open Lib Program

namespace Setting

variable {K : Setting} {start : Set String} {listed : Prop} {docs : Set String}
  {ctx ctx' : PipelineContext} {s s' : Collection}

/-! ## Storing -/

/-- Content that the others keep stays. -/
theorem kept_of_others (hs : WellFormed K.host K.runs s) (h : K.others.step s s') {k : String}
    (hk : k ∈ entryIds s) (hkept : k ∈ K.kept) : k ∈ entryIds s' :=
  (h hs).2.2 k hk hkept

/-- The invariant of the loop of `StoreStep`: the entries of the batches
written so far are there, as far as the others keep them. -/
structure Storing (start : Set String) (listed : Prop) (docs : Set String)
    (ctx : PipelineContext) (written : List (List Entry × Nat)) (ctx' : PipelineContext)
    (s : Collection) : Prop where
  frame : StoreFrame ctx ctx'
  missing : (StoreStep.reportMissing ctx).errors <+: ctx'.errors
  progress : K.Progress start listed docs ctx' s
  stored : ctx'.errors = [] → ∀ batch ∈ written, ∀ e ∈ batch.1, ∀ d, K.Owner e.id d →
    e.id ∈ K.kept → e.id ∈ entryIds s

theorem Storing.stable {written : List (List Entry × Nat)} :
    K.others.Stable (Storing (K := K) start listed docs ctx written ctx') := by
  intro s s' hstep h
  refine ⟨h.frame, h.missing, Progress.stable hstep h.progress, ?_⟩
  intro herr batch hbatch e he d howner hkept
  exact kept_of_others h.progress.wf hstep (h.stored herr batch hbatch e he d howner hkept) hkept

/-- One write of the loop. -/
theorem storeBatch_ensures {written : List (List Entry × Nat)} {batch : List Entry × Nat}
    (hchunks : HasOrigins K.host K.run ctx.chunks)
    (hbatch : ∀ e ∈ batch.1, e ∈ StoreStep.storable ctx)
    (h : Storing (K := K) start listed docs ctx written ctx' s) :
    (StoreStep.storeBatch ctx' batch).Ensures (portWorld K.ports) K.others K.guarantee
      (Storing (K := K) start listed docs ctx (written ++ [batch])) s := by
  refine ensures_call Storing.stable h fun s₁ r s₂ h₁ hw => ?_
  have hstep : K.wrote.step s₁ s₂ :=
    wrote_of_ingest (hchunks.writesFor fun e he => hbatch e (mem_dedupe he)) hw
  have hwf := h₁.progress.wf
  refine ⟨own_of_wrote K hstep, ?_⟩
  cases r with
  | error exc =>
    intro s' hr
    refine Storing.stable hr ⟨?_, ?_, ?_, fun herr => ?_⟩
    · exact ⟨by rw [h₁.frame.rest]; rfl, h₁.frame.errors.trans (List.prefix_append ..)⟩
    · exact h₁.missing.trans (List.prefix_append ..)
    · exact (Progress.write hstep h₁.progress).context
        (.of_eq (List.prefix_append ..) rfl rfl rfl)
    · exact absurd herr (List.append_ne_nil_of_right_ne_nil _ (List.cons_ne_nil _ _))
  | ok _ =>
    obtain rfl : s₂ = s₁.upsertAll (StoreStep.dedupe batch.1) := hw
    intro s' hr
    refine Storing.stable hr ⟨⟨by rw [h₁.frame.rest], h₁.frame.errors⟩, h₁.missing, ?_, ?_⟩
    · exact (Progress.write hstep h₁.progress).context (.of_eq List.prefix_rfl rfl rfl rfl)
    · intro herr b hb e he d howner hkept
      rcases List.mem_append.mp hb with hb | hb
      · exact (hstep hwf).2.2 _ (h₁.stored herr b hb e he d howner hkept) trivial
      · rw [List.mem_singleton] at hb
        subst hb
        obtain ⟨x, hx, hid⟩ := exists_mem_dedupe he
        obtain ⟨y, _, hyid, hy⟩ := Collection.exists_of_mem_upsertAll (s := s₁) hx
        exact ⟨y, hy, hyid.trans hid⟩

/-- Storing: without an error, every passage of the context is in the
collection, as far as the others keep it. -/
theorem store_ensures (hchunks : HasOrigins K.host K.run ctx.chunks)
    (h : K.Progress start listed docs ctx s) :
    (StoreStep.execute 50 ctx).Ensures (portWorld K.ports) K.others K.guarantee
      (fun ctx' s => K.Progress start listed docs ctx' s ∧ StoreFrame ctx ctx' ∧
        (ctx'.errors = [] → ∀ c ∈ ctx.chunks, c.bare ∈ K.passages → K.key c ∈ K.kept →
          K.key c ∈ entryIds s)) s := by
  have hframe := reportMissing_frame ctx
  have hinit : Storing (K := K) start listed docs ctx [] (StoreStep.reportMissing ctx) s :=
    ⟨hframe, List.prefix_rfl, h.context (StoreFrame.extends hframe),
      fun _ batch hb => by simp at hb⟩
  have hloop : (StoreStep.execute 50 ctx).Ensures (portWorld K.ports) K.others K.guarantee
      (Storing (K := K) start listed docs ctx (slices 50 (StoreStep.storable ctx)).zipIdx) s := by
    refine Ensures.foldlM (I := Storing (K := K) start listed docs ctx)
      (fun _ _ => Storing.stable) (fun pre batch post ctx' s hsplit hs => ?_) hinit
    have hbatch : batch ∈ (slices 50 (StoreStep.storable ctx)).zipIdx := by
      rw [hsplit]
      exact List.mem_append_right _ (List.mem_cons_self ..)
    exact storeBatch_ensures hchunks (fun e he =>
      mem_of_mem_slices (by decide) (List.fst_mem_of_mem_zipIdx hbatch) he) hs
  refine hloop.mono fun ctx' s hs => ⟨hs.progress, hs.frame, fun herr c hc hpass hkept => ?_⟩
  have howner : K.Owner (K.key c) c.docId := owner_of_passage (c := c.bare) hpass
  obtain ⟨_, _, hhash, _⟩ := IngestRun.passage_spec hpass
  have hunch : ctx'.unchangedChunkHashes = ctx.unchangedChunkHashes := by rw [hs.frame.rest]
  by_cases hu : K.key c ∈ ctx.unchangedChunkHashes
  · exact hs.progress.found herr _ (hunch ▸ hu) hkept
  · -- the passage was embedded and is not skipped, so a batch wrote it
    have hmissing : (StoreStep.reportMissing ctx).errors = [] :=
      List.prefix_nil.mp (herr ▸ hs.missing)
    obtain ⟨v, hv⟩ := Option.isSome_iff_exists.mp (isSome_embedding_of_reportMissing hmissing hc)
    have hchunk : c.contentHash = some (K.key c) := hhash
    have hmem : StoreStep.toEntry c v ∈ StoreStep.storable ctx := by
      refine mem_storable.mpr ⟨c, hc, ?_, v, hv, rfl⟩
      rw [StoreStep.isUnchanged, hchunk]
      exact decide_eq_false hu
    rw [← flatten_slices (n := 50) (by decide) (StoreStep.storable ctx), List.mem_flatten] at hmem
    obtain ⟨b, hb, hmem⟩ := hmem
    obtain ⟨i, hi⟩ := List.mem_iff_getElem?.mp hb
    have hid : (StoreStep.toEntry c v).id = K.key c := storageId_passage (c := c.bare) hpass
    exact hid ▸ hs.stored herr (b, i) (List.mk_mem_zipIdx_iff_getElem?.mpr hi) _ hmem c.docId
      (hid ▸ howner) (hid ▸ hkept)

/-! ## Batches -/

/-- The invariant of the loop over the batches: the merged context and the
passages of the documents that are done. -/
structure Accumulated (K : Setting) (start : Set String) (done : List Document)
    (acc : PipelineContext) (s : Collection) : Prop where
  chunks : acc.chunks = []
  progress : K.Progress start (done ≠ []) (K.docIdsOf done) acc s
  stored : acc.errors = [] → ∀ c ∈ K.passagesOf done, K.key c ∈ K.kept → K.key c ∈ entryIds s

theorem Accumulated.sync {done : List Document} {acc : PipelineContext}
    (h : K.Accumulated start done acc s)
    (hstep : (Pipeline.sync K.host K.runs (K.foreign ∪ K.written) K.kept).step s s') :
    K.Accumulated start done acc s' :=
  ⟨h.chunks, h.progress.sync hstep, fun herr c hc hkept =>
    (hstep h.progress.wf).2.2 _ (h.stored herr c hc hkept) hkept⟩

theorem Accumulated.stable {done : List Document} {acc : PipelineContext} :
    K.others.Stable (K.Accumulated start done acc) :=
  fun _ _ hstep h => h.sync (sync_mono (fun _ => Or.inl) (fun _ => id) hstep)

theorem Accumulated.write {done : List Document} {acc : PipelineContext} :
    K.wrote.Stable (K.Accumulated start done acc) :=
  fun _ _ hstep h => h.sync (sync_mono (fun _ => Or.inr) (fun _ _ => trivial) hstep)

/-- Merging a batch into what was accumulated. -/
theorem Accumulated.merge {done batch : List Document} {acc : PipelineContext}
    (h : K.Accumulated start done acc s)
    (hctx : K.Progress start True (K.docIdsOf batch) ctx s)
    (hstored : ctx.errors = [] → ∀ c ∈ K.passagesOf batch, K.key c ∈ K.kept →
      K.key c ∈ entryIds s) :
    K.Accumulated start (done ++ batch) (IngestEngine.merge acc ctx) s := by
  have herrs (herr : (IngestEngine.merge acc ctx).errors = []) :
      acc.errors = [] ∧ ctx.errors = [] := List.append_eq_nil_iff.mp herr
  have hpass : K.passagesOf (done ++ batch) = K.passagesOf done ++ K.passagesOf batch :=
    List.flatMap_append
  refine ⟨h.chunks, ⟨h.progress.wf, h.progress.visible, h.progress.persists, ?_, ?_, ?_, ?_, ?_,
    ?_, ?_⟩, ?_⟩
  · intro k hk
    rcases OrderedSet.mem_union.mp hk with hk | hk
    · exact h.progress.orphans k hk
    · exact hctx.orphans k hk
  · intro x hx hk
    rcases OrderedSet.mem_union.mp hk with hk | hk
    · exact h.progress.safe x hx hk
    · exact hctx.safe x hx hk
  · intro d hd
    rcases OrderedSet.mem_union.mp hd with hd | hd
    · exact h.progress.removed d hd
    · exact hctx.removed d hd
  · intro herr _ k hk d howner
    rcases hctx.covered (herrs herr).2 trivial k hk d howner with hd | hd | hd | hk
    · exact Or.inl hd
    · exact Or.inr (Or.inl hd)
    · exact Or.inr (Or.inr (Or.inl (OrderedSet.mem_union.mpr (Or.inr hd))))
    · exact Or.inr (Or.inr (Or.inr hk))
  · intro herr k hk d hd howner
    obtain ⟨c, hc, hcd⟩ := hd
    rw [hpass, List.mem_append] at hc
    rcases hc with hc | hc
    · rcases h.progress.done (herrs herr).1 k hk d ⟨c, hc, hcd⟩ howner with hk | hk | hk
      · exact Or.inl hk
      · exact Or.inr (Or.inl (OrderedSet.mem_union.mpr (Or.inl hk)))
      · exact Or.inr (Or.inr hk)
    · rcases hctx.done (herrs herr).2 k hk d ⟨c, hc, hcd⟩ howner with hk | hk | hk
      · exact Or.inl hk
      · exact Or.inr (Or.inl (OrderedSet.mem_union.mpr (Or.inr hk)))
      · exact Or.inr (Or.inr hk)
  · intro herr k hk hkept
    rcases OrderedSet.mem_union.mp hk with hk | hk
    · exact h.progress.found (herrs herr).1 k hk hkept
    · exact hctx.found (herrs herr).2 k hk hkept
  · rintro herr x hx hkept ⟨c, hc, hcd⟩
    rw [hpass, List.mem_append] at hc
    rcases hc with hc | hc
    · exact OrderedSet.mem_union.mpr
        (Or.inl (h.progress.hit (herrs herr).1 x hx hkept ⟨c, hc, hcd⟩))
    · exact OrderedSet.mem_union.mpr (Or.inr (hctx.hit (herrs herr).2 x hx hkept ⟨c, hc, hcd⟩))
  · intro herr c hc hkept
    rw [hpass, List.mem_append] at hc
    rcases hc with hc | hc
    · exact h.stored (herrs herr).1 c hc hkept
    · exact hstored (herrs herr).2 c hc hkept

/-- The summaries that the summary step gives up are those of documents below
the threshold. -/
theorem SummaryFrame.extends {batch : List Document}
    (hbatch : ∀ doc ∈ batch, doc ∈ K.run.documents)
    (hchunks : ctx.chunks.map Chunk.bare = K.passagesOf batch)
    (h : SummaryFrame K.run.pipeline.documentSummaryStep ctx ctx') : K.Extends ctx ctx' where
  errors := h.errors
  removed := by rw [h.rest]
  unchanged := by rw [h.rest]
  orphans := by
    rw [h.rest]
    exact fun k hk => OrderedSet.mem_insertAll.mpr (Or.inl hk)
  added := by
    rw [h.rest]
    intro k hk
    refine (OrderedSet.mem_insertAll.mp hk).imp_right fun hk => ⟨?_, ?_⟩
    · rintro ⟨c, _, rfl⟩
      exact not_mem_staleSummaryIds _ ctx hk
    · rintro x ⟨_, doc, hdoc, rfl, hlarge⟩ rfl
      obtain ⟨hd, _, hsmall⟩ := mem_staleSummaryIds hk
      obtain ⟨c, hc, hcd⟩ := (mem_docIds hchunks).mp hd
      obtain ⟨doc', hdoc', hcd'⟩ := List.mem_flatMap.mp hc
      have hid : doc'.id = doc.id := by rw [← hcd, (contentChunks_spec hcd').1]
      have hsame : doc' = doc := List.inj_on_of_nodup_map K.nodup_ids (hbatch doc' hdoc') hdoc hid
      have hlen := length_docChunks_ge hchunks (hsame ▸ hdoc')
      exact absurd (lt_of_le_of_lt (hlarge.trans hlen) hsmall) (lt_irrefl _)

/-- The summary step and the embedding between detection and storing. -/
theorem summarizeAndEmbed_ensures {batch : List Document}
    (hbatch : ∀ doc ∈ batch, doc ∈ K.run.documents)
    (hchunks : ctx.chunks.map Chunk.bare = K.passagesOf batch)
    (h : K.Progress start listed docs ctx s) :
    ((K.run.pipeline.summarizeDocuments ctx).bind (EmbedStep.execute 50)).Ensures
      (portWorld K.ports) K.others K.guarantee
      (fun ctx' s => K.Progress start listed docs ctx' s ∧ HasOrigins K.host K.run ctx'.chunks ∧
        ∀ c ∈ K.passagesOf batch, ∃ c' ∈ ctx'.chunks, c'.bare = c) s := by
  have hpass : ∀ c ∈ ctx.chunks.map Chunk.bare, c ∈ K.passages := by
    intro c hc
    rw [hchunks] at hc
    exact mem_passagesOf hbatch hc
  -- both steps only read, whatever the configuration
  have hext : (K.run.pipeline.summarizeDocuments ctx).Yields CallsModel
      (fun ctx' => K.Extends ctx ctx' ∧
        ∀ c ∈ K.passagesOf batch, c ∈ ctx'.chunks.map Chunk.bare) := by
    unfold IngestPipeline.summarizeDocuments
    split
    · refine (K.run.pipeline.documentSummaryStep.execute_frame ctx).mono (fun _ => id)
        fun ctx' hf => ⟨SummaryFrame.extends hbatch hchunks hf, fun c hc => ?_⟩
      obtain ⟨added, hadded, _⟩ := hf.chunks
      rw [hadded, hchunks]
      exact List.mem_append_left _ hc
    · exact ⟨Extends.refl K ctx, fun c hc => hchunks ▸ hc⟩
  have hsum := (summarizeDocuments_writes hpass).and hext
  have hboth : ((K.run.pipeline.summarizeDocuments ctx).bind (EmbedStep.execute 50)).Yields
      (WritesFor K.host K.run) (fun ctx' => K.Extends ctx ctx' ∧
        HasOrigins K.host K.run ctx'.chunks ∧
        ∀ c ∈ K.passagesOf batch, ∃ c' ∈ ctx'.chunks, c'.bare = c) := by
    refine (hsum.mono (fun _ => CallsModel.writesFor) fun _ => id).bind ?_
    rintro ctx₁ ⟨horig, hext, hall⟩
    refine (embedStep_frame 50 ctx₁).mono (fun _ => CallsModel.writesFor)
      fun ctx' hf => ⟨hext.trans (EmbedFrame.extends hf), ?_, ?_⟩
    · rw [HasOrigins, hf.chunks]
      exact horig
    · intro c hc
      have hmem := hall c hc
      rw [← hf.chunks] at hmem
      exact List.mem_map.mp hmem
  refine (ensures_of_writes hboth Progress.stable Progress.write h).mono fun ctx' s hafter => ?_
  obtain ⟨⟨hext, horig, hall⟩, hs⟩ := hafter
  exact ⟨hs.context hext, horig, hall⟩

/-- One batch. -/
theorem runBatch_ensures (hdocs : K.run.documents ≠ []) {done batch : List Document}
    {acc : PipelineContext} {n : Nat} (hn : 0 < n) (hbatch : batch ∈ slices n K.run.documents)
    (h : K.Accumulated start done acc s) :
    (IngestEngine.runBatch (K.run.pipeline.batchSteps K.host) K.run.documents acc batch).Ensures
      (portWorld K.ports) K.others K.guarantee (K.Accumulated start (done ++ batch)) s := by
  have hsub : ∀ doc ∈ batch, doc ∈ K.run.documents :=
    fun doc hdoc => mem_of_mem_slices hn hbatch hdoc
  let ctx₀ : PipelineContext := { IngestEngine.batchContext K.run.documents batch with
    chunks := K.passagesOf batch
    errors := batch.flatMap (K.run.pipeline.chunkStep.chunkError K.host) }
  have hbare : ctx₀.chunks.map Chunk.bare = K.passagesOf batch := by
    refine (List.map_congr_left fun c hc => ?_).trans (List.map_id _)
    exact Chunk.bare_eq_self (IngestRun.passage_spec (mem_passagesOf hsub hc)).2.2.2
  have hinit : K.Progress start False ∅ ctx₀ s :=
    ⟨h.progress.wf, h.progress.visible, h.progress.persists,
      fun k hk => absurd hk (OrderedSet.not_mem_empty k),
      fun x _ hk => absurd hk (OrderedSet.not_mem_empty _),
      fun d hd => absurd hd (OrderedSet.not_mem_empty d), fun _ => False.elim,
      fun _ _ _ d hd => absurd hd (Set.notMem_empty d),
      fun _ k hk => absurd hk (OrderedSet.not_mem_empty k),
      fun _ x _ _ hd => absurd hd (Set.notMem_empty _)⟩
  -- the batch itself, with the accumulated facts in the frame
  have hacc := ensures_of_writes (@runBatch_writes K.host K.run acc n hn batch hbatch)
    Accumulated.stable Accumulated.write h
  have hrun : (IngestEngine.runSteps (K.run.pipeline.batchSteps K.host)
      (IngestEngine.batchContext K.run.documents batch)).Ensures (portWorld K.ports) K.others
      K.guarantee (fun ctx s => K.Progress start True (K.docIdsOf batch) ctx s ∧
        (ctx.errors = [] → ∀ c ∈ K.passagesOf batch, K.key c ∈ K.kept →
          K.key c ∈ entryIds s)) s := by
    rw [IngestPipeline.runSteps_batchSteps, hashed_batchContext]
    refine (detection_ensures hsub hdocs rfl hbare hinit).bind fun ctx s ⟨hbare, hs⟩ => ?_
    rw [← bind_assoc]
    refine (summarizeAndEmbed_ensures hsub hbare hs).bind fun ctx₁ s ⟨hs, horig, hall⟩ => ?_
    refine (store_ensures horig hs).mono fun ctx₂ s ⟨hs, _, hstored⟩ => ⟨hs, ?_⟩
    intro herr c hc hkept
    obtain ⟨c', hc', rfl⟩ := hall c hc
    exact hstored herr c' hc' (mem_passagesOf hsub hc) hkept
  have hmerged : (IngestEngine.runBatch (K.run.pipeline.batchSteps K.host) K.run.documents acc
      batch).Ensures (portWorld K.ports) K.others K.guarantee (fun acc' s =>
        K.Accumulated start done acc s → K.Accumulated start (done ++ batch) acc' s) s := by
    refine hrun.bind fun ctx s ⟨hctx, hstored⟩ => ?_
    intro s' hr hacc'
    refine hacc'.merge (Progress.stable hr hctx) fun herr c hc hkept => ?_
    exact kept_of_others hctx.wf hr (hstored herr c hc hkept) hkept
  exact (hacc.and hmerged).mono fun acc' s ⟨⟨_, hs⟩, hm⟩ => hm hs

/-- All batches. -/
theorem batches_ensures (hdocs : K.run.documents ≠ [])
    (hwf : WellFormed K.host K.runs s)
    (hvisible : ∀ k ∈ entryIds s, ∀ d, K.Owner k d → d ∈ K.visible ∨ d ∈ K.run.ids)
    (hstart : ∀ k ∈ start, k ∈ entryIds s) :
    ((slices (max 1 K.run.pipeline.ingestBatchSize) K.run.documents).foldlM
      (IngestEngine.runBatch (K.run.pipeline.batchSteps K.host) K.run.documents)
      (IngestEngine.initialContext K.run.documents)).Ensures (portWorld K.ports) K.others
      K.guarantee (K.Accumulated start K.run.documents) s := by
  have hn : 0 < max 1 K.run.pipeline.ingestBatchSize := by omega
  have hinit : K.Accumulated start [] (IngestEngine.initialContext K.run.documents) s :=
    ⟨rfl, ⟨hwf, hvisible, fun k hk _ => hstart k hk,
      fun k hk => absurd hk (OrderedSet.not_mem_empty k),
      fun x _ hk => absurd hk (OrderedSet.not_mem_empty _),
      fun d hd => absurd hd (OrderedSet.not_mem_empty d), fun _ hne => absurd rfl hne,
      fun _ _ _ d ⟨c, hc, _⟩ => absurd hc List.not_mem_nil,
      fun _ k hk => absurd hk (OrderedSet.not_mem_empty k),
      fun _ x _ _ ⟨c, hc, _⟩ => absurd hc List.not_mem_nil⟩,
      fun _ c hc => absurd hc List.not_mem_nil⟩
  refine (Ensures.foldlM (I := fun (pre : List (List Document)) =>
    K.Accumulated start pre.flatten) (fun _ _ => Accumulated.stable)
    (fun pre batch post acc s hsplit hs => ?_) hinit).mono fun acc s hs => ?_
  · show (IngestEngine.runBatch _ _ acc batch).Ensures _ _ _
      (K.Accumulated start (pre ++ [batch]).flatten) s
    rw [List.flatten_append, List.flatten_singleton]
    refine runBatch_ensures hdocs hn ?_ hs
    rw [hsplit]
    exact List.mem_append_right _ (List.mem_cons_self ..)
  · show K.Accumulated start K.run.documents acc s
    rw [← flatten_slices hn K.run.documents]
    exact hs

/-! ## The finalize pass -/

theorem overview_extends (h : ctx.chunks = []) :
    (K.run.pipeline.overview ctx).Yields (WritesFor K.host K.run) (K.Extends ctx) := by
  have hext : (K.run.pipeline.overview ctx).Yields (fun _ => True) (K.Extends ctx) := by
    unfold IngestPipeline.overview
    split
    · refine ((K.run.pipeline.bokSummaryStep.execute_frame ctx).mono (fun _ _ => trivial)
        fun _ => id).bind fun ctx₁ h₁ => ?_
      refine ((embedStep_frame 50 ctx₁).mono (fun _ _ => trivial) fun _ => id).bind
        fun ctx₂ h₂ => ?_
      refine (storeStep_frame (by decide) ctx₂).mono (fun _ _ => trivial) fun ctx₃ h₃ => ?_
      exact (BokFrame.extends h₁).trans ((EmbedFrame.extends h₂).trans (StoreFrame.extends h₃))
    · exact Extends.refl K ctx
  exact ((overview_writes h).and hext).mono (fun _ => id) fun _ hQ => hQ.2

/-- The finalize pass before the cleanup keeps what the batches
established. -/
theorem overview_ensures {acc : PipelineContext}
    (h : K.Accumulated start K.run.documents acc s) :
    (K.run.pipeline.overview acc).Ensures (portWorld K.ports) K.others K.guarantee
      (fun ctx s => K.Progress start (K.run.documents ≠ []) (K.docIdsOf K.run.documents) ctx s ∧
        (ctx.errors = [] → ∀ c ∈ K.passages, K.key c ∈ K.kept → K.key c ∈ entryIds s)) s := by
  refine (ensures_of_writes (overview_extends h.chunks) Accumulated.stable Accumulated.write
    h).mono fun ctx s ⟨hext, hs⟩ => ⟨hs.progress.context hext, fun herr => ?_⟩
  exact hs.stored (List.prefix_nil.mp (herr ▸ hext.errors))

/-! ## The cleanup -/

/-- No entry of the document id `d` is left, except foreign ones. -/
def Gone (K : Setting) (d : String) (s : Collection) : Prop :=
  ∀ k ∈ entryIds s, Belongs K.host K.runs k d → k ∈ K.foreign

/-- A document of the run that yields no passage.  Detection never compares
it. -/
def Silent (K : Setting) (d : String) : Prop :=
  d ∈ K.run.ids ∧ d ∉ K.docIdsOf K.run.documents

/-- The document id `d` is a passage's document id of the run, or the run may
delete it as that of a removed document. -/
def Claimed (K : Setting) (d : String) : Prop :=
  d ∈ K.docIdsOf K.run.documents ∨ K.Removable d

/-- What a successful run leaves. -/
structure Converged (K : Setting) (start : Set String) (s : Collection) : Prop where
  wf : WellFormed K.host K.runs s
  only : ∀ k ∈ entryIds s, ∀ d, K.Owner k d → d ≠ "" →
    k ∈ K.fingerprints ∨ k ∈ K.foreign ∨ K.Silent d
  all : ∀ c ∈ K.passages, ¬ K.Endangered c.docId → K.key c ∈ K.kept → K.key c ∈ entryIds s
  removed : ∀ k ∈ start, k ∈ K.kept → k ∉ K.foreign → ∀ d, K.Owner k d → d ∉ K.run.ids →
    d ≠ "" → K.Gone d s ∧ K.Gone (summaryDocumentId d) s
  summaries : ∀ x, K.Large x → summaryEntryId x ∈ start → summaryEntryId x ∈ K.kept →
    ¬ K.Claimed (summaryDocumentId x) → summaryEntryId x ∈ entryIds s
  hit : ∀ x, summaryEntryId x ∈ start → summaryEntryId x ∈ K.kept → summaryEntryId x ∉ K.foreign →
    summaryDocumentId x ∈ K.docIdsOf K.run.documents → summaryEntryId x ∉ entryIds s

/-- The invariant of the loop over the removed documents `removed`, of which
`past` are dealt with. -/
structure Cleaning (K : Setting) (start : Set String) (removed : OrderedSet String)
    (past : List String) (s : Collection) : Prop where
  wf : WellFormed K.host K.runs s
  covered : ∀ k ∈ entryIds s, ∀ d, K.Owner k d →
    k ∈ K.fingerprints ∨ d = "" ∨ d ∈ removed ∧ d ∉ past ∨ k ∈ K.foreign ∨ K.Silent d
  all : ∀ c ∈ K.passages, ¬ K.Endangered c.docId → K.key c ∈ K.kept → K.key c ∈ entryIds s
  gone : ∀ d ∈ past, K.Gone d s ∧ K.Gone (summaryDocumentId d) s
  pending : ∀ k ∈ start, k ∈ K.kept → k ∉ K.foreign → ∀ d, K.Owner k d → d ∉ K.run.ids →
    d ≠ "" → d ∈ removed
  summaries : ∀ x, K.Large x → summaryEntryId x ∈ start → summaryEntryId x ∈ K.kept →
    ¬ K.Claimed (summaryDocumentId x) → summaryEntryId x ∈ entryIds s
  hit : ∀ x, summaryEntryId x ∈ start → summaryEntryId x ∈ K.kept → summaryEntryId x ∉ K.foreign →
    summaryDocumentId x ∈ K.docIdsOf K.run.documents → summaryEntryId x ∉ entryIds s

variable {removed : OrderedSet String} {past : List String}

theorem Gone.sync {d : String} {keeps : Set String} (hs : WellFormed K.host K.runs s)
    (h : K.Gone d s) (hstep : (Pipeline.sync K.host K.runs K.foreign keeps).step s s') :
    K.Gone d s' := by
  intro k hk hbelongs
  rcases (hstep hs).2.1 k hk with hk | hk
  · exact h k hk hbelongs
  · exact hk

/-- The invariant of the cleanup survives steps that add foreign ids only and
keep what is kept and spared. -/
theorem Cleaning.sync {keeps : Set String} (h : K.Cleaning start removed past s)
    (hkeeps : ∀ c ∈ K.passages, ¬ K.Endangered c.docId → K.key c ∈ K.kept → K.key c ∈ keeps)
    (hsummaries : ∀ x, K.Large x → ¬ K.Claimed (summaryDocumentId x) →
      summaryEntryId x ∈ K.kept → summaryEntryId x ∈ keeps)
    (hstep : (Pipeline.sync K.host K.runs K.foreign keeps).step s s') :
    K.Cleaning start removed past s' := by
  obtain ⟨hwf, hadd, hkeep⟩ := hstep h.wf
  refine ⟨hwf, ?_, ?_, ?_, h.pending, ?_, ?_⟩
  · intro k hk d howner
    rcases hadd k hk with hk | hk
    · exact h.covered k hk d howner
    · exact Or.inr (Or.inr (Or.inr (Or.inl hk)))
  · exact fun c hc hdanger hkept =>
      hkeep _ (h.all c hc hdanger hkept) (hkeeps c hc hdanger hkept)
  · exact fun d hd => ⟨(h.gone d hd).1.sync h.wf hstep, (h.gone d hd).2.sync h.wf hstep⟩
  · exact fun x hx hin hkept hclaimed =>
      hkeep _ (h.summaries x hx hin hkept hclaimed) (hsummaries x hx hclaimed hkept)
  · intro x hin hkept hforeign hd hk
    rcases hadd _ hk with hk | hk
    · exact h.hit x hin hkept hforeign hd hk
    · exact hforeign hk

theorem Cleaning.stable : K.others.Stable (K.Cleaning start removed past) :=
  fun _ _ hstep h => h.sync (fun _ _ _ => id) (fun _ _ _ => id) hstep

/-- The removal of a document that is none of the run's hits no spared
fingerprint. -/
theorem own_of_deleteWhere {d x : String} {r : IngestCall.Answer (.deleteWhere d)}
    (hx : K.Removable x) (hd : d = x ∨ d = summaryDocumentId x)
    (h : portWorld K.ports s (.deleteWhere d) r s') : K.own.step s s' := by
  refine sync_mono (fun k hk => absurd hk (Set.notMem_empty k)) ?_ (deleteWhere_step h)
  rintro k ⟨hk, hspared⟩ hbelongs
  obtain ⟨c, hc, rfl⟩ := hk
  have howner := owner_of_passage hc
  obtain rfl := belongs_unique hbelongs (Or.inl howner)
  rcases hd with hd | hd
  · exact hx.2.1 (hd ▸ (IngestRun.passage_spec hc).1)
  · exact hspared _ howner ⟨x, hx, hd⟩

theorem Cleaning.deleteWhere {d x : String} {r : IngestCall.Answer (.deleteWhere d)}
    (h : K.Cleaning start removed past s) (hx : K.Removable x)
    (hd : d = x ∨ d = summaryDocumentId x)
    (hw : portWorld K.ports s (.deleteWhere d) r s') : K.Cleaning start removed past s' := by
  have hstep : (Pipeline.sync K.host K.runs K.foreign {k | ¬ Belongs K.host K.runs k d}).step
      s s' :=
    sync_mono (fun k hk => absurd hk (Set.notMem_empty k)) (fun _ => id) (deleteWhere_step hw)
  refine h.sync ?_ ?_ hstep
  · intro c hc hdanger _ hbelongs
    obtain rfl := belongs_unique hbelongs (Or.inl (owner_of_passage hc))
    rcases hd with hd | hd
    · exact hx.2.1 (hd ▸ (IngestRun.passage_spec hc).1)
    · exact hdanger ⟨x, hx, hd⟩
  · intro y hy hclaimed _ hbelongs
    obtain rfl := belongs_unique hbelongs (Or.inr ⟨y, rfl, rfl⟩)
    rcases hd with hd | hd
    · exact hclaimed (Or.inr (hd ▸ hx))
    · obtain ⟨_, doc, hdoc, hid, _⟩ := hy
      exact hx.2.1 (summaryDocumentId_inj hd ▸ hid ▸ List.mem_map_of_mem hdoc)

/-- After a completed deletion nothing of the document is left. -/
theorem gone_of_deleteWhere {d : String} (hs : WellFormed K.host K.runs s)
    (h : s' = s.keep (fun e => e.docId ≠ some d)) : K.Gone d s' := by
  rintro k ⟨e, he, rfl⟩ hbelongs
  rw [h, Collection.mem_keep, decide_eq_true_iff] at he
  exact absurd (docId_of_belongs hs he.1 hbelongs) he.2

/-- The two deletions for one removed document. -/
theorem deleteRemoved_ensures {x : String} (hx : K.Removable x)
    {acc : PipelineContext × Nat}
    (h : acc.1.errors = [] → K.Cleaning start removed past s) :
    (OrphanCleanupStep.deleteRemoved acc x).Ensures (portWorld K.ports) K.others K.guarantee
      (fun acc' s => acc'.1.errors = [] → K.Cleaning start removed (past ++ [x]) s) s := by
  have failed (exc : String) (s : Collection) :
      (done (acc.1.addError exc, acc.2) : Ingest (PipelineContext × Nat)).Ensures
        (portWorld K.ports) K.others K.guarantee
        (fun acc' s => acc'.1.errors = [] → K.Cleaning start removed (past ++ [x]) s) s :=
    fun s' _ herr => absurd herr (List.append_ne_nil_of_right_ne_nil _ (List.cons_ne_nil _ _))
  refine ensures_call (φ := fun s => acc.1.errors = [] → K.Cleaning start removed past s)
    (fun s s' hstep hs herr => Cleaning.stable hstep (hs herr)) h fun s₁ r s₂ h₁ hw => ?_
  refine ⟨own_of_deleteWhere hx (Or.inl rfl) hw, ?_⟩
  cases r with
  | error exc => exact failed _ s₂
  | ok _ =>
    -- between the two deletions the entries of `x` itself are gone
    have h₂ : acc.1.errors = [] → K.Cleaning start removed past s₂ ∧ K.Gone x s₂ := fun herr =>
      ⟨(h₁ herr).deleteWhere hx (Or.inl rfl) hw, gone_of_deleteWhere (h₁ herr).wf hw⟩
    refine ensures_call (φ := fun s => acc.1.errors = [] →
      K.Cleaning start removed past s ∧ K.Gone x s) (fun s s' hstep hs herr => ?_) h₂
      fun s₃ r s₄ h₃ hw' => ⟨own_of_deleteWhere hx (Or.inr rfl) hw', ?_⟩
    · obtain ⟨hclean, hgone⟩ := hs herr
      exact ⟨Cleaning.stable hstep hclean, hgone.sync hclean.wf hstep⟩
    · cases r with
      | error exc => exact failed _ s₄
      | ok _ =>
        intro s' hr herr
        obtain ⟨hclean, hgone⟩ := h₃ herr
        have hclean' := hclean.deleteWhere hx (Or.inr rfl) hw'
        have hgone' : K.Gone x s₄ := hgone.sync hclean.wf
          (sync_mono (fun k hk => absurd hk (Set.notMem_empty k)) (fun _ => id)
            (deleteWhere_step hw'))
        refine Cleaning.stable hr ⟨hclean'.wf, ?_, hclean'.all, ?_, hclean'.pending,
          hclean'.summaries, hclean'.hit⟩
        · intro k hk d howner
          rcases hclean'.covered k hk d howner with hd | hd | ⟨hd, hpast⟩ | hd
          · exact Or.inl hd
          · exact Or.inr (Or.inl hd)
          · by_cases heq : d = x
            · subst heq
              exact Or.inr (Or.inr (Or.inr (Or.inl (hgone' k hk (Or.inl howner)))))
            · refine Or.inr (Or.inr (Or.inl ⟨hd, ?_⟩))
              rw [List.mem_append, List.mem_singleton, not_or]
              exact ⟨hpast, heq⟩
          · exact Or.inr (Or.inr (Or.inr hd))
        · intro d hd
          rcases List.mem_append.mp hd with hd | hd
          · exact hclean'.gone d hd
          · rw [List.mem_singleton] at hd
            subst hd
            exact ⟨hgone', gone_of_deleteWhere hclean.wf hw'⟩

/-- Once the orphans are gone, the loop over the removed documents can
start. -/
theorem Progress.cleaning (hdocs : K.run.documents ≠ []) (herr : ctx.errors = [])
    (h : K.Progress start (K.run.documents ≠ []) (K.docIdsOf K.run.documents) ctx s)
    (hall : ∀ c ∈ K.passages, K.key c ∈ K.kept → K.key c ∈ entryIds s)
    (hwf : WellFormed K.host K.runs s')
    (hsub : ∀ k ∈ entryIds s', k ∈ entryIds s ∧ k ∉ ctx.orphanIds)
    (hkeep : ∀ k ∈ entryIds s, k ∉ ctx.orphanIds → k ∈ entryIds s') :
    K.Cleaning start ctx.removedDocumentIds [] s' := by
  refine ⟨hwf, ?_, ?_, fun d hd => absurd hd List.not_mem_nil, ?_, ?_, ?_⟩
  · intro k hk d howner
    obtain ⟨hk, horph⟩ := hsub k hk
    by_cases hid : d ∈ K.run.ids
    · by_cases hdoc : d ∈ K.docIdsOf K.run.documents
      · rcases h.done herr k hk d hdoc howner with hk | hk | hk
        · exact Or.inl hk
        · exact absurd hk horph
        · exact Or.inr (Or.inr (Or.inr (Or.inl hk)))
      · exact Or.inr (Or.inr (Or.inr (Or.inr ⟨hid, hdoc⟩)))
    · rcases h.covered herr hdocs k hk d howner with hd | hd | hd | hk
      · exact absurd hd hid
      · exact Or.inr (Or.inl hd)
      · exact Or.inr (Or.inr (Or.inl ⟨hd, List.not_mem_nil⟩))
      · exact Or.inr (Or.inr (Or.inr (Or.inl hk)))
  · exact fun c hc _ hkept =>
      hkeep _ (hall c hc hkept) fun hk => h.orphans _ hk (mem_fingerprints hc)
  · intro k hk hkept hforeign d howner hid hne
    rcases h.covered herr hdocs k (h.persists k hk hkept) d howner with hd | hd | hd | hk
    · exact absurd hd hid
    · exact absurd hd hne
    · exact hd
    · exact absurd hk hforeign
  · exact fun x hx hin hkept hclaimed =>
      hkeep _ (h.persists _ hin hkept) fun hk => hclaimed (Or.inl (h.safe x hx hk))
  · exact fun x hin hkept _ hd hk => (hsub _ hk).2 (h.hit herr x hin hkept hd)

/-- Deleting the orphans. -/
theorem deleteOrphans_ensures (hdocs : K.run.documents ≠ []) (herr : ctx.errors = [])
    (h : K.Progress start (K.run.documents ≠ []) (K.docIdsOf K.run.documents) ctx s)
    (hall : ∀ c ∈ K.passages, K.key c ∈ K.kept → K.key c ∈ entryIds s) :
    (OrphanCleanupStep.deleteOrphans ctx).Ensures (portWorld K.ports) K.others K.guarantee
      (fun acc s => acc.1.errors = [] → K.Cleaning start ctx.removedDocumentIds [] s) s := by
  unfold OrphanCleanupStep.deleteOrphans
  split
  · rename_i hempty
    refine fun s' hr _ => Cleaning.stable hr
      (h.cleaning hdocs herr hall h.wf (fun k hk => ?_) fun k hk _ => hk)
    exact ⟨hk, OrderedSet.isEmpty_iff.mp hempty k⟩
  · refine ensures_call (φ := fun s =>
      K.Progress start (K.run.documents ≠ []) (K.docIdsOf K.run.documents) ctx s ∧
        ∀ c ∈ K.passages, K.key c ∈ K.kept → K.key c ∈ entryIds s)
      (fun s s' hstep hs => ⟨Progress.stable hstep hs.1, fun c hc hkept =>
        kept_of_others hs.1.wf hstep (hs.2 c hc hkept) hkept⟩) ⟨h, hall⟩
      fun s₁ r s₂ h₁ hw => ?_
    have hstep := deleteIds_step hw
    refine ⟨sync_mono (fun k hk => absurd hk (Set.notMem_empty k))
      (fun k hk horph => h₁.1.orphans k horph hk.1) hstep, ?_⟩
    obtain ⟨hwf, hadd, hkeep⟩ := hstep h₁.1.wf
    cases r with
    | error exc =>
      refine fun s' _ herr' => ?_
      exact absurd herr' (List.append_ne_nil_of_right_ne_nil _ (List.cons_ne_nil _ _))
    | ok _ =>
      refine fun s' hr _ => Cleaning.stable hr
        (h₁.1.cleaning hdocs herr h₁.2 hwf (fun k hk => ⟨?_, ?_⟩) hkeep)
      · exact (hadd k hk).resolve_right (Set.notMem_empty k)
      · obtain rfl : s₂ = s₁.keep _ := hw
        obtain ⟨e, he, rfl⟩ := hk
        have hkept := (Collection.mem_keep.mp he).2
        rw [decide_eq_true_iff] at hkept
        exact hkept

theorem Cleaning.converged (h : K.Cleaning start removed removed.toList s) :
    K.Converged start s := by
  refine ⟨h.wf, fun k hk d howner hne => ?_, h.all,
    fun k hk hkept hforeign d howner hid hne => ?_, h.summaries, h.hit⟩
  · rcases h.covered k hk d howner with hd | hd | ⟨hd, hpast⟩ | hd
    · exact Or.inl hd
    · exact absurd hd hne
    · exact absurd hd hpast
    · exact Or.inr hd
  · exact h.gone d (h.pending k hk hkept hforeign d howner hid hne)

/-- The cleanup. -/
theorem cleanup_ensures (hdocs : K.run.documents ≠ [])
    (h : K.Progress start (K.run.documents ≠ []) (K.docIdsOf K.run.documents) ctx s)
    (hall : ctx.errors = [] → ∀ c ∈ K.passages, K.key c ∈ K.kept → K.key c ∈ entryIds s) :
    (IngestEngine.runStep ctx OrphanCleanupStep.toStep).Ensures (portWorld K.ports) K.others
      K.guarantee (fun ctx' s => ctx'.errors = [] →
        K.Cleaning start ctx.removedDocumentIds ctx.removedDocumentIds.toList s) s := by
  rw [runStep_orphanCleanup]
  split
  · rename_i herr
    refine (deleteOrphans_ensures hdocs herr h (hall herr)).bind fun acc s hacc => ?_
    have hloop : (ctx.removedDocumentIds.toList.foldlM OrphanCleanupStep.deleteRemoved
        acc).Ensures (portWorld K.ports) K.others K.guarantee (fun acc s => acc.1.errors = [] →
          K.Cleaning start ctx.removedDocumentIds ctx.removedDocumentIds.toList s) s := by
      refine Ensures.foldlM (I := fun past (acc : PipelineContext × Nat) s =>
        acc.1.errors = [] → K.Cleaning start ctx.removedDocumentIds past s)
        (fun past acc s s' hstep hs herr => Cleaning.stable hstep (hs herr))
        (fun past x post acc s hsplit hs => deleteRemoved_ensures (h.removed x ?_) hs) hacc
      show x ∈ ctx.removedDocumentIds.toList
      rw [hsplit]
      exact List.mem_append_right _ (List.mem_cons_self ..)
    refine hloop.bind fun acc s hs s' hr herr => ?_
    exact Cleaning.stable hr (hs herr)
  · exact fun s' _ herr => absurd herr (List.append_ne_nil_of_right_ne_nil _ (List.cons_ne_nil _ _))

/-! ## The run -/

/-- Under the interference it relies on, a run that succeeds converges. -/
theorem program_ensures (hdocs : K.run.documents ≠ []) (hwf : WellFormed K.host K.runs s)
    (hvisible : ∀ k ∈ entryIds s, ∀ d, K.Owner k d → d ∈ K.visible ∨ d ∈ K.run.ids)
    (hstart : ∀ k ∈ start, k ∈ entryIds s) :
    (K.run.program K.host).Ensures (portWorld K.ports) K.others K.guarantee
      (fun result s => result.success = true → K.Converged start s) s := by
  rw [IngestRun.program, IngestPipeline.run_eq]
  refine (batches_ensures hdocs hwf hvisible hstart).bind fun acc s hacc => ?_
  refine (overview_ensures hacc).bind fun ctx s hover => ?_
  obtain ⟨hs, hall⟩ := hover
  refine (cleanup_ensures hdocs hs hall).bind fun ctx s hs s' hr hsuccess => ?_
  have herr : ctx.errors = [] := List.length_eq_zero_iff.mp (of_decide_eq_true hsuccess)
  exact (Cleaning.stable hr (hs herr)).converged

end Setting

end VirtualContributor.Pipeline
