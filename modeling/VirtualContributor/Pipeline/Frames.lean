import VirtualContributor.Pipeline.Provenance

/-!
# What the steps call and what they leave alone

Two groups.

* A pass of the engine as a sequence of programs: `runSteps_batchSteps` and
  `runSteps_finalizeSteps`.  The engine's bookkeeping around a step that
  raises nothing disappears.
* One frame lemma for each step.  It says which calls the step can make and
  which fields of the context it touches, whatever the ports answer.
-/

namespace VirtualContributor.Pipeline

open Lib Program

/-! ## Passes as programs -/

/-- A step that raises nothing and is not destructive just runs. -/
theorem runStep_return (name : String) (execute : PipelineContext → Ingest PipelineContext)
    (ctx : PipelineContext) :
    IngestEngine.runStep ctx ⟨name, false, fun ctx => do return (← execute ctx, none)⟩
      = execute ctx := by
  show ((execute ctx).bind fun ctx => done (ctx, none)).bind _ = execute ctx
  rw [bind_assoc]
  exact bind_done _

section RunStep

variable (ctx : PipelineContext)

@[simp] theorem runStep_chunk (host : Host) (step : ChunkStep) :
    IngestEngine.runStep ctx (step.toStep host) = done (step.execute host ctx) := rfl

@[simp] theorem runStep_contentHash (host : Host) :
    IngestEngine.runStep ctx (ContentHashStep.toStep host)
      = done (ContentHashStep.execute host ctx) := rfl

@[simp] theorem runStep_changeDetection :
    IngestEngine.runStep ctx ChangeDetectionStep.toStep = ChangeDetectionStep.execute ctx :=
  runStep_return ..

@[simp] theorem runStep_documentSummary (step : DocumentSummaryStep) :
    IngestEngine.runStep ctx step.toStep = step.execute ctx :=
  runStep_return ..

@[simp] theorem runStep_embed (batchSize : Nat) :
    IngestEngine.runStep ctx (EmbedStep.toStep batchSize) = EmbedStep.execute batchSize ctx :=
  runStep_return ..

@[simp] theorem runStep_store (batchSize : Nat) :
    IngestEngine.runStep ctx (StoreStep.toStep batchSize) = StoreStep.execute batchSize ctx :=
  runStep_return ..

@[simp] theorem runStep_bokSummary (step : BodyOfKnowledgeSummaryStep) :
    IngestEngine.runStep ctx step.toStep = step.execute ctx :=
  runStep_return ..

/-- The cleanup is destructive, so recorded errors gate it. -/
@[simp] theorem runStep_orphanCleanup :
    IngestEngine.runStep ctx OrphanCleanupStep.toStep
      = if ctx.errors = [] then OrphanCleanupStep.execute ctx
        else done (ctx.addError
          (s!"orphan_cleanup: skipped " ++
            s!"(destructive step gated by {ctx.errors.length} prior error(s))")) := by
  unfold IngestEngine.runStep
  cases h : ctx.errors with
  | nil =>
    show ((OrphanCleanupStep.execute ctx).bind fun ctx => done (ctx, none)).bind _ = _
    rw [bind_assoc]
    exact bind_done _
  | cons e es => rfl

end RunStep

namespace IngestPipeline

/-- The context after the two steps that make no call. -/
def hashed (p : IngestPipeline) (host : Host) (ctx : PipelineContext) : PipelineContext :=
  ContentHashStep.execute host (p.chunkStep.execute host ctx)

/-- The summary step, where it is configured. -/
def summarizeDocuments (p : IngestPipeline) (ctx : PipelineContext) : Ingest PipelineContext :=
  if p.summarizeEnabled then p.documentSummaryStep.execute ctx else done ctx

/-- The steps of the finalize pass before the cleanup. -/
def overview (p : IngestPipeline) (ctx : PipelineContext) : Ingest PipelineContext :=
  if p.summarizeEnabled then
    (p.bokSummaryStep.execute ctx).bind fun ctx =>
      (EmbedStep.execute 50 ctx).bind (StoreStep.execute 50)
  else done ctx

/-- A batch is detection, summaries, embedding and storing, in this order. -/
theorem runSteps_batchSteps (p : IngestPipeline) (host : Host) (ctx : PipelineContext) :
    IngestEngine.runSteps (p.batchSteps host) ctx
      = (ChangeDetectionStep.execute (p.hashed host ctx)).bind fun ctx =>
          (p.summarizeDocuments ctx).bind fun ctx =>
            (EmbedStep.execute 50 ctx).bind (StoreStep.execute 50) := by
  unfold IngestEngine.runSteps batchSteps summarizeDocuments
  cases p.summarizeEnabled <;> simp [hashed]

/-- The finalize pass is the overview and then the cleanup. -/
theorem runSteps_finalizeSteps (p : IngestPipeline) (ctx : PipelineContext) :
    IngestEngine.runSteps p.finalizeSteps ctx
      = (p.overview ctx).bind fun ctx => IngestEngine.runStep ctx OrphanCleanupStep.toStep := by
  unfold IngestEngine.runSteps finalizeSteps overview
  cases p.summarizeEnabled <;> simp [bind_assoc]

/-- A run is its batches, the overview and the cleanup. -/
theorem run_eq (p : IngestPipeline) (host : Host) (documents : List Document) :
    p.run host documents
      = ((slices (max 1 p.ingestBatchSize) documents).foldlM
          (IngestEngine.runBatch (p.batchSteps host) documents)
          (IngestEngine.initialContext documents)).bind fun acc =>
        (p.overview acc).bind fun ctx =>
          (IngestEngine.runStep ctx OrphanCleanupStep.toStep).bind fun ctx =>
            done (IngestEngine.buildResult ctx documents.length) := by
  unfold run IngestEngine.runBatched
  simp only [runSteps_finalizeSteps, bind_eq_bind, pure_eq_done, bind_assoc]

/-- The run without documents is detection and the cleanup. -/
theorem cleanup_eq :
    cleanup = (ChangeDetectionStep.execute { documents := [] }).bind fun ctx =>
      (IngestEngine.runStep ctx OrphanCleanupStep.toStep).bind fun ctx =>
        done (IngestEngine.buildResult ctx 0) := by
  unfold cleanup IngestEngine.runSequential IngestEngine.runSteps
  simp only [List.foldlM_cons, List.foldlM_nil, runStep_changeDetection, bind_eq_bind,
    pure_eq_done, bind_assoc, bind_done]
  rfl

end IngestPipeline

/-! ## Chunking and fingerprints -/

namespace ChunkStep

/-- The error that a document records when the splitter raises. -/
def chunkError (host : Host) (step : ChunkStep) (doc : Document) : List String :=
  match step.chunkDocument host doc with
  | .ok _ => []
  | .error exc => [s!"ChunkStep: chunking failed for {doc.id}: {exc}"]

end ChunkStep

theorem execute_chunkStep_foldl (host : Host) (step : ChunkStep) (docs : List Document)
    (ctx : PipelineContext) :
    ContentHashStep.execute host (docs.foldl (ChunkStep.chunkInto host step) ctx)
      = { ContentHashStep.execute host ctx with
          chunks := (ContentHashStep.execute host ctx).chunks
            ++ docs.flatMap (contentChunks host step)
          errors := ctx.errors ++ docs.flatMap (step.chunkError host) } := by
  induction docs generalizing ctx with
  | nil => simp [ContentHashStep.execute]
  | cons doc docs ih =>
    rw [List.foldl_cons, ih, List.flatMap_cons, List.flatMap_cons]
    unfold ChunkStep.chunkInto contentChunks ChunkStep.chunkError
    cases step.chunkDocument host doc <;>
      simp [ContentHashStep.execute, PipelineContext.addError, List.append_assoc]

/-- The context of a batch after the first two steps. -/
theorem hashed_batchContext (p : IngestPipeline) (host : Host) (documents batch : List Document) :
    p.hashed host (IngestEngine.batchContext documents batch)
      = { IngestEngine.batchContext documents batch with
          chunks := batch.flatMap (contentChunks host p.chunkStep)
          errors := batch.flatMap (p.chunkStep.chunkError host) } :=
  execute_chunkStep_foldl host p.chunkStep batch (IngestEngine.batchContext documents batch)

/-! ## Embedding -/

theorem map_bare_modify (chunks : List Chunk) (i : Nat) (e : Embedding) :
    (chunks.modify i (fun c => { c with embedding := some e })).map Chunk.bare
      = chunks.map Chunk.bare := by
  apply List.ext_getElem?
  intro j
  rw [List.getElem?_map, List.getElem?_map, List.getElem?_modify]
  cases chunks[j]? with
  | none => rfl
  | some c =>
    by_cases h : i = j
    · simp only [h, if_pos]
      rfl
    · simp [h]

theorem map_bare_assignEmbeddings (chunks : List Chunk) (positions : List Nat)
    (embeddings : List Embedding) :
    (assignEmbeddings chunks positions embeddings).map Chunk.bare = chunks.map Chunk.bare := by
  unfold assignEmbeddings
  induction positions.zip embeddings generalizing chunks with
  | nil => rfl
  | cons ie ies ih => rw [List.foldl_cons, ih, map_bare_modify]

/-- The context `ctx'` is `ctx` with some embeddings assigned and some errors
recorded. -/
structure EmbedFrame (ctx ctx' : PipelineContext) : Prop where
  rest : ctx' = { ctx with chunks := ctx'.chunks, errors := ctx'.errors }
  chunks : ctx'.chunks.map Chunk.bare = ctx.chunks.map Chunk.bare
  errors : ctx.errors <+: ctx'.errors

theorem EmbedFrame.refl (ctx : PipelineContext) : EmbedFrame ctx ctx :=
  ⟨rfl, rfl, List.prefix_rfl⟩

theorem EmbedFrame.trans {ctx₁ ctx₂ ctx₃ : PipelineContext} (h : EmbedFrame ctx₁ ctx₂)
    (h' : EmbedFrame ctx₂ ctx₃) : EmbedFrame ctx₁ ctx₃ where
  rest := by rw [h'.rest, h.rest]
  chunks := h'.chunks.trans h.chunks
  errors := h.errors.trans h'.errors

/-- The calls of the language models and of the embeddings provider. -/
def CallsModel : IngestCall → Prop
  | .invoke _ _ | .embed _ => True
  | .get _ _ | .ingest _ | .deleteIds _ | .deleteWhere _ => False

theorem CallsModel.readOnly {c : IngestCall} (h : CallsModel c) : c.readOnly := by
  cases c <;> trivial

theorem embedBatch_frame (failure : Nat → String → String) (ctx : PipelineContext)
    (batch : List Nat × Nat) :
    (embedBatch failure ctx batch).Yields CallsModel (EmbedFrame ctx) := by
  refine ⟨trivial, fun r => ?_⟩
  cases r with
  | ok embeddings => exact ⟨rfl, map_bare_assignEmbeddings .., List.prefix_rfl⟩
  | error exc => exact ⟨rfl, rfl, List.prefix_append ..⟩

/-- Embedding calls the embeddings provider only. -/
theorem embedMissing_frame (batchSize : Nat) (failure : Nat → String → String)
    (positions : List Nat) (ctx : PipelineContext) :
    (embedMissing batchSize failure positions ctx).Yields CallsModel (EmbedFrame ctx) := by
  refine Yields.foldlM (fun ctx' h batch _ => ?_) (EmbedFrame.refl ctx)
  exact (embedBatch_frame failure ctx' batch).mono (fun _ => id) fun _ => h.trans

theorem embedStep_frame (batchSize : Nat) (ctx : PipelineContext) :
    (EmbedStep.execute batchSize ctx).Yields CallsModel (EmbedFrame ctx) :=
  embedMissing_frame ..

/-! ## Summaries -/

/-- The calls to the models. -/
def IsInvoke : IngestCall → Prop
  | .invoke _ _ => True
  | .get _ _ | .ingest _ | .deleteIds _ | .deleteWhere _ | .embed _ => False

theorem IsInvoke.callsModel {c : IngestCall} (h : IsInvoke c) : CallsModel c := by
  cases c <;> trivial

namespace MapReduce

variable (m : MapReduce)

theorem mapOne_frame (budget : Nat) (chunk : String) :
    (m.mapOne budget chunk).Yields IsInvoke (fun _ => True) := by
  refine ⟨trivial, fun r => ?_⟩
  cases r <;> trivial

theorem reduceOne_frame (batch : List String) :
    (m.reduceOne batch).Yields IsInvoke (fun _ => True) := by
  unfold reduceOne
  split
  · trivial
  · refine ⟨trivial, fun r => ?_⟩
    cases r <;> trivial

theorem reduceLevels_frame (fuel : Nat) (minis : List String) :
    (m.reduceLevels fuel minis).Yields IsInvoke (fun _ => True) := by
  induction fuel generalizing minis with
  | zero => trivial
  | succ fuel ih =>
    unfold reduceLevels
    split
    · exact (Yields.mapM fun batch _ => m.reduceOne_frame batch).bind fun next _ => ih next
    · trivial

/-- Summarising calls the models only, and it fails for a wrong fan-in
only. -/
theorem summarize_frame (chunks : List String) :
    (m.summarize chunks).Yields IsInvoke
      (fun out => 2 ≤ m.reduceFanin → ∃ text, out = .ok text) := by
  unfold summarize
  split
  · exact fun _ => ⟨_, rfl⟩
  · split
    · rename_i hfanin
      exact fun h => absurd hfanin (Nat.not_lt.mpr h)
    · split
      · exact (m.mapOne_frame _ _).bind fun _ _ _ => ⟨_, rfl⟩
      · refine (Yields.mapM fun chunk _ => m.mapOne_frame _ chunk).bind fun mapped _ => ?_
        dsimp only
        split
        · exact fun _ => ⟨_, rfl⟩
        · exact (m.reduceLevels_frame _ _).bind fun _ _ _ => ⟨_, rfl⟩

end MapReduce

/-- A summary chunk of one of the documents `ids`. -/
def IsSummaryOf (ids : List String) (c : Chunk) : Prop :=
  ∃ d ∈ ids, ∃ text source, c = DocumentSummaryStep.summaryChunk d text source

/-- The context `ctx'` is `ctx` after the summary step: summaries of some of
its documents are appended, and the stale summaries join the orphans. -/
structure SummaryFrame (step : DocumentSummaryStep) (ctx ctx' : PipelineContext) : Prop where
  rest : ctx' = { ctx with
    chunks := ctx'.chunks, documentSummaries := ctx'.documentSummaries, errors := ctx'.errors,
    orphanIds := ctx.orphanIds.insertAll (step.staleSummaryIds ctx) }
  chunks : ∃ added, ctx'.chunks.map Chunk.bare = ctx.chunks.map Chunk.bare ++ added ∧
    ∀ c ∈ added, IsSummaryOf (step.docsToSummarize ctx) c
  errors : ctx.errors <+: ctx'.errors

namespace DocumentSummaryStep

variable (step : DocumentSummaryStep)

theorem summarizeOne_frame (ctx : PipelineContext) (d : String) :
    (step.summarizeOne ctx d).Yields CallsModel
      (fun result => result.docId = d ∧ ∀ c, result.outcome = .ok c →
        ∃ text source, c = summaryChunk d text source) := by
  refine ((step.mapReduce.summarize_frame _).mono (fun _ => IsInvoke.callsModel)
    fun _ => id).bind fun outcome _ => ?_
  cases outcome with
  | error exc => exact ⟨rfl, fun c h => by cases h⟩
  | ok summary =>
    dsimp only
    split
    · exact ⟨rfl, fun c h => by cases h⟩
    · split
      · exact ⟨rfl, fun c h => by cases h⟩
      · exact ⟨rfl, fun c h => ⟨summary, _, (Except.ok.inj h).symm⟩⟩

theorem applyResult_error {result : SummaryResult} {error : String}
    (h : result.outcome = .error error) (ctx : PipelineContext)
    (targets : List (String × List Nat)) :
    applyResult (ctx, targets) result = (ctx.addError error, targets) := by
  simp only [applyResult, h]

theorem applyResult_ok {result : SummaryResult} {c : Chunk} (h : result.outcome = .ok c)
    (ctx : PipelineContext) (targets : List (String × List Nat)) :
    applyResult (ctx, targets) result =
      ({ ctx with
          documentSummaries := ctx.documentSummaries.set result.docId c.content
          chunks := ctx.chunks ++ [c] },
        targets ++ [(result.docId, result.docChunks ++ [ctx.chunks.length])]) := by
  simp only [applyResult, h]

/-- Applying the results appends summaries and errors. -/
theorem foldl_applyResult_frame {P : Chunk → Prop} (results : List SummaryResult)
    (hres : ∀ result ∈ results, ∀ c, result.outcome = .ok c → P c)
    (ctx : PipelineContext) (targets : List (String × List Nat)) :
    let ctx' := (results.foldl applyResult (ctx, targets)).1
    ctx' = { ctx with
        chunks := ctx'.chunks, documentSummaries := ctx'.documentSummaries,
        errors := ctx'.errors } ∧
      (∃ added, ctx'.chunks = ctx.chunks ++ added ∧ ∀ c ∈ added, P c) ∧
      ctx.errors <+: ctx'.errors := by
  induction results generalizing ctx targets with
  | nil => exact ⟨rfl, ⟨[], by simp, by simp⟩, List.prefix_rfl⟩
  | cons result results ih =>
    obtain ⟨hres₁, hres⟩ := List.forall_mem_cons.mp hres
    rw [List.foldl_cons]
    cases hout : result.outcome with
    | error error =>
      rw [applyResult_error hout]
      obtain ⟨hrest, hadded, herr⟩ := ih hres (ctx.addError error) targets
      exact ⟨hrest, hadded, (List.prefix_append ..).trans herr⟩
    | ok c =>
      rw [applyResult_ok hout]
      obtain ⟨hrest, ⟨added, hadded, hall⟩, herr⟩ := ih hres
        { ctx with
          documentSummaries := ctx.documentSummaries.set result.docId c.content
          chunks := ctx.chunks ++ [c] }
        (targets ++ [(result.docId, result.docChunks ++ [ctx.chunks.length])])
      refine ⟨hrest, ⟨c :: added, ?_, ?_⟩, herr⟩
      · rw [hadded, List.append_assoc]
        rfl
      · exact List.forall_mem_cons.mpr ⟨hres₁ c hout, hall⟩

/-- The step appends the chunks of its results. -/
theorem execute_adds {P : Chunk → Prop} (hbare : ∀ c, P c → P c.bare) (ctx : PipelineContext)
    (hone : ∀ d ∈ step.docsToSummarize ctx, ∀ ctx₀, (step.summarizeOne ctx₀ d).Yields
      CallsModel (fun result => ∀ c, result.outcome = .ok c → P c)) :
    (step.execute ctx).Yields CallsModel (fun ctx' =>
      ctx' = { ctx with
        chunks := ctx'.chunks, documentSummaries := ctx'.documentSummaries,
        errors := ctx'.errors,
        orphanIds := ctx.orphanIds.insertAll (step.staleSummaryIds ctx) } ∧
      (∃ added, ctx'.chunks.map Chunk.bare = ctx.chunks.map Chunk.bare ++ added ∧
        ∀ c ∈ added, P c) ∧ ctx.errors <+: ctx'.errors) := by
  have hmap : ((step.docsToSummarize ctx).mapM (step.summarizeOne
      { ctx with orphanIds := ctx.orphanIds.insertAll (step.staleSummaryIds ctx) })).Yields
      CallsModel (fun results => ∀ result ∈ results,
        ∀ c, result.outcome = .ok c → P c) :=
    Yields.mapM fun d hd => hone d hd _
  refine hmap.bind fun results hres => ?_
  obtain ⟨hrest, ⟨added, hadded, hall⟩, herr⟩ := foldl_applyResult_frame results hres
    { ctx with orphanIds := ctx.orphanIds.insertAll (step.staleSummaryIds ctx) } []
  have hadds : ∀ c ∈ added.map Chunk.bare, P c := by
    intro c hc
    obtain ⟨c₀, hc₀, rfl⟩ := List.mem_map.mp hc
    exact hbare c₀ (hall c₀ hc₀)
  dsimp only
  -- the loop over the targets only embeds
  refine Yields.foldlM (fun ctx' hctx' target _ => ?_) ?_
  · refine (embedMissing_frame _ _ _ ctx').mono (fun _ => id) fun ctx'' h => ?_
    obtain ⟨hrest', hadded', herr'⟩ := hctx'
    refine ⟨?_, ?_, herr'.trans h.errors⟩
    · rw [h.rest, hrest']
    · rw [h.chunks]
      exact hadded'
  · refine ⟨hrest, ⟨added.map Chunk.bare, ?_, hadds⟩, herr⟩
    rw [hadded, List.map_append]

theorem execute_frame (ctx : PipelineContext) :
    (step.execute ctx).Yields CallsModel (SummaryFrame step ctx) := by
  refine (step.execute_adds (P := IsSummaryOf (step.docsToSummarize ctx)) ?_ ctx ?_).mono
    (fun _ => id) fun ctx' h => ⟨h.1, h.2.1, h.2.2⟩
  · rintro c ⟨d, hd, text, source, rfl⟩
    exact ⟨d, hd, text, source, rfl⟩
  · intro d hd ctx₀
    refine (step.summarizeOne_frame ctx₀ d).mono (fun _ => id) fun result h c hc => ?_
    obtain ⟨text, source, rfl⟩ := h.2 c hc
    exact ⟨d, hd, text, source, rfl⟩

end DocumentSummaryStep

/-! ## Storing -/

/-- The context `ctx'` is `ctx` with the counter of stored chunks moved and
some errors recorded. -/
structure StoreFrame (ctx ctx' : PipelineContext) : Prop where
  rest : ctx' = { ctx with chunksStored := ctx'.chunksStored, errors := ctx'.errors }
  errors : ctx.errors <+: ctx'.errors

theorem reportMissing_frame (ctx : PipelineContext) :
    StoreFrame ctx (StoreStep.reportMissing ctx) := by
  unfold StoreStep.reportMissing
  dsimp only
  split
  · exact ⟨rfl, List.prefix_append ..⟩
  · exact ⟨rfl, List.prefix_rfl⟩

/-- No error means that every chunk has an embedding. -/
theorem isSome_embedding_of_reportMissing {ctx : PipelineContext}
    (h : (StoreStep.reportMissing ctx).errors = []) {c : Chunk} (hc : c ∈ ctx.chunks) :
    c.embedding.isSome = true := by
  unfold StoreStep.reportMissing at h
  dsimp only at h
  split at h
  · simp [PipelineContext.addError] at h
  · rename_i hmissing
    rw [Nat.not_lt, Nat.le_zero, List.length_eq_zero_iff, List.filter_eq_nil_iff] at hmissing
    have hsome := hmissing c hc
    rwa [Option.isNone_iff_eq_none, ← Ne, Option.ne_none_iff_isSome] at hsome

/-- Deduplication keeps the last entry of each id. -/
theorem mem_dedupe {es : List Entry} {e : Entry} (h : e ∈ StoreStep.dedupe es) : e ∈ es := by
  induction es with
  | nil => exact h
  | cons x es ih =>
    unfold StoreStep.dedupe at h
    split at h
    · exact List.mem_cons_of_mem _ (ih h)
    · rcases List.mem_cons.mp h with rfl | h
      · exact List.mem_cons_self ..
      · exact List.mem_cons_of_mem _ (ih h)

theorem exists_mem_dedupe {es : List Entry} {e : Entry} (h : e ∈ es) :
    ∃ x ∈ StoreStep.dedupe es, x.id = e.id := by
  induction es generalizing e with
  | nil => simp at h
  | cons x es ih =>
    unfold StoreStep.dedupe
    split
    · rename_i hdup
      rcases List.mem_cons.mp h with rfl | h
      · obtain ⟨y, hy, hid⟩ := List.mem_map.mp hdup
        obtain ⟨z, hz, hzid⟩ := ih hy
        exact ⟨z, hz, hzid.trans hid⟩
      · exact ih h
    · rcases List.mem_cons.mp h with rfl | h
      · exact ⟨_, List.mem_cons_self .., rfl⟩
      · obtain ⟨z, hz, hid⟩ := ih h
        exact ⟨z, List.mem_cons_of_mem _ hz, hid⟩

theorem mem_storable {ctx : PipelineContext} {e : Entry} :
    e ∈ StoreStep.storable ctx ↔ ∃ c ∈ ctx.chunks, StoreStep.isUnchanged ctx c = false ∧
      ∃ v, c.embedding = some v ∧ e = StoreStep.toEntry c v := by
  unfold StoreStep.storable
  rw [List.mem_filterMap]
  constructor
  · rintro ⟨c, hc, h⟩
    split at h
    · cases h
    · rename_i hu
      obtain ⟨v, hv, rfl⟩ := Option.map_eq_some_iff.mp h
      exact ⟨c, hc, by simpa using hu, v, hv, rfl⟩
  · rintro ⟨c, hc, hu, v, hv, rfl⟩
    exact ⟨c, hc, by simp [hu, hv]⟩

/-- Storing writes storable entries only. -/
theorem storeStep_frame {batchSize : Nat} (hn : 0 < batchSize) (ctx : PipelineContext) :
    (StoreStep.execute batchSize ctx).Yields
      (fun c : IngestCall => ∃ es, c = .ingest es ∧ ∀ e ∈ es, e ∈ StoreStep.storable ctx)
      (StoreFrame ctx) := by
  refine Yields.foldlM (fun ctx' h batch hbatch => ?_) (reportMissing_frame ctx)
  have hmem : batch.1 ∈ slices batchSize (StoreStep.storable ctx) :=
    List.fst_mem_of_mem_zipIdx hbatch
  refine ⟨⟨_, rfl, fun e he => mem_of_mem_slices hn hmem (mem_dedupe he)⟩, fun r => ?_⟩
  cases r with
  | ok _ => exact ⟨by rw [h.rest], h.errors⟩
  | error exc => exact ⟨by rw [h.rest]; rfl, h.errors.trans (List.prefix_append ..)⟩

/-! ## The overview -/

/-- The calls of the overview step: it reads, and it writes one overview. -/
def WritesOverview : IngestCall → Prop
  | .ingest es => ∃ ctx text v, es =
      [StoreStep.toEntry (BodyOfKnowledgeSummaryStep.bokChunk ctx text) v]
  | .get _ _ | .invoke _ _ | .embed _ => True
  | .deleteIds _ | .deleteWhere _ => False

theorem IngestCall.readOnly.writesOverview {c : IngestCall} (h : c.readOnly) :
    WritesOverview c := by
  cases c <;> trivial

/-- The context `ctx'` is `ctx` after the overview step: an overview chunk may
be left for the next steps, and the overview may join the orphans. -/
structure BokFrame (ctx ctx' : PipelineContext) : Prop where
  rest : ctx' = { ctx with
    chunks := ctx'.chunks, errors := ctx'.errors, orphanIds := ctx'.orphanIds,
    chunksStored := ctx'.chunksStored }
  chunks : ∃ added, ctx'.chunks.map Chunk.bare = ctx.chunks.map Chunk.bare ++ added ∧
    ∀ c ∈ added, ∃ text, c = BodyOfKnowledgeSummaryStep.bokChunk ctx text
  errors : ctx.errors <+: ctx'.errors
  orphans : ctx'.orphanIds = ctx.orphanIds ∨
    BodyOfKnowledgeSummaryStep.seenDocIds ctx = [] ∧
      ctx'.orphanIds = ctx.orphanIds.insert bokEntryId

theorem BokFrame.refl (ctx : PipelineContext) : BokFrame ctx ctx :=
  ⟨rfl, ⟨[], by simp, by simp⟩, List.prefix_rfl, Or.inl rfl⟩

namespace BodyOfKnowledgeSummaryStep

theorem persist_frame (ctx : PipelineContext) (text : String) :
    (persist ctx (bokChunk ctx text)).Yields WritesOverview (BokFrame ctx) := by
  have left (embedding : Option Embedding) :
      BokFrame ctx { ctx with
        chunks := ctx.chunks ++ [{ bokChunk ctx text with embedding := embedding }] } :=
    ⟨rfl, ⟨[bokChunk ctx text], by rw [List.map_append]; rfl, by simp⟩, List.prefix_rfl,
      Or.inl rfl⟩
  refine ⟨trivial, fun r => ?_⟩
  cases r with
  | error exc => exact left none
  | ok embeddings =>
    cases embeddings with
    | nil => exact left none
    | cons v vs =>
      refine ⟨⟨ctx, text, v, by rw [bokEntry_eq_toEntry]⟩, fun r => ?_⟩
      cases r with
      | ok _ => exact ⟨rfl, ⟨[], by simp, by simp⟩, List.prefix_rfl, Or.inl rfl⟩
      | error exc => exact left (some v)

theorem refresh_frame (step : BodyOfKnowledgeSummaryStep) (ctx : PipelineContext) :
    (step.refresh ctx).Yields WritesOverview (BokFrame ctx) := by
  unfold refresh
  split
  · rename_i hseen
    split
    · exact BokFrame.refl ctx
    · exact ⟨rfl, ⟨[], by simp, by simp⟩, List.prefix_rfl,
        Or.inr ⟨List.isEmpty_iff.mp hseen, rfl⟩⟩
  · split
    · exact BokFrame.refl ctx
    · refine ((step.mapReduce.summarize_frame _).mono
        (fun _ h => h.callsModel.readOnly.writesOverview) fun _ => id).bind fun outcome _ => ?_
      cases outcome with
      | ok summary => exact persist_frame ctx summary
      | error exc =>
        exact ⟨rfl, ⟨[], by simp [PipelineContext.addError], by simp⟩, List.prefix_append ..,
          Or.inl rfl⟩

theorem bokExists_frame : bokExists.Yields IngestCall.readOnly (fun _ => True) := by
  refine ⟨trivial, fun r => ?_⟩
  cases r <;> trivial

theorem execute_frame (step : BodyOfKnowledgeSummaryStep) (ctx : PipelineContext) :
    (step.execute ctx).Yields WritesOverview (BokFrame ctx) := by
  unfold execute
  split
  · refine (bokExists_frame.mono (fun _ => IngestCall.readOnly.writesOverview)
      fun _ => id).bind fun found _ => ?_
    cases found with
    | true => exact BokFrame.refl ctx
    | false => exact step.refresh_frame ctx
  · exact step.refresh_frame ctx

end BodyOfKnowledgeSummaryStep

/-! ## Detection and cleanup -/

/-- The calls of detection. -/
def IsGet : IngestCall → Prop
  | .get _ _ => True
  | .ingest _ | .deleteIds _ | .deleteWhere _ | .invoke _ _ | .embed _ => False

theorem IsGet.readOnly {c : IngestCall} (h : IsGet c) : c.readOnly := by
  cases c <;> trivial

/-- The calls that write no entry. -/
def WritesNothing : IngestCall → Prop
  | .ingest _ => False
  | .get _ _ | .deleteIds _ | .deleteWhere _ | .invoke _ _ | .embed _ => True

theorem IsGet.writesNothing {c : IngestCall} (h : IsGet c) : WritesNothing c := by
  cases c <;> trivial

/-- The calls of the cleanup. -/
def IsDelete : IngestCall → Prop
  | .deleteIds _ | .deleteWhere _ => True
  | .get _ _ | .ingest _ | .invoke _ _ | .embed _ => False

theorem IsDelete.writesNothing {c : IngestCall} (h : IsDelete c) : WritesNothing c := by
  cases c <;> trivial

namespace ChangeDetectionStep

theorem map_bare_preload (existing : GetResult) (d : String) (chunks : List Chunk) :
    (chunks.map (preload existing d)).map Chunk.bare = chunks.map Chunk.bare := by
  rw [List.map_map]
  refine List.map_congr_left fun c _ => ?_
  show (preload existing d c).bare = c.bare
  unfold preload
  split
  · split
    · rfl
    · split
      · split <;> rfl
      · rfl
  · rfl

theorem map_bare_fallback (ctx : PipelineContext) (exc : String) :
    (fallback ctx exc).chunks.map Chunk.bare = ctx.chunks.map Chunk.bare := by
  show (ctx.chunks.map _).map Chunk.bare = _
  rw [List.map_map]
  refine List.map_congr_left fun c _ => ?_
  show Chunk.bare (if c.isContent then { c with embedding := none } else c) = c.bare
  split <;> rfl

theorem detectDocs_frame (docIds : List String) (ctx : PipelineContext) :
    (detectDocs docIds ctx).Yields IsGet
      (fun r => r.1.chunks.map Chunk.bare = ctx.chunks.map Chunk.bare ∧
        r.1.errors = ctx.errors) := by
  induction docIds generalizing ctx with
  | nil => exact ⟨rfl, rfl⟩
  | cons d rest ih =>
    refine ⟨trivial, fun r => ?_⟩
    cases r with
    | error exc => exact ⟨rfl, rfl⟩
    | ok existing =>
      refine (ih (compareDoc ctx d existing)).mono (fun _ => id) fun r h => ?_
      exact ⟨h.1.trans (map_bare_preload existing d ctx.chunks), h.2⟩

/-- Detection reads only, and it touches the chunks' embeddings only. -/
theorem execute_frame (ctx : PipelineContext) :
    (execute ctx).Yields IsGet
      (fun ctx' => ctx'.chunks.map Chunk.bare = ctx.chunks.map Chunk.bare ∧
        ctx.errors <+: ctx'.errors) := by
  have hdetect : (detect ctx).Yields IsGet (fun r =>
      r.1.chunks.map Chunk.bare = ctx.chunks.map Chunk.bare ∧ r.1.errors = ctx.errors) := by
    refine ⟨trivial, fun r => ?_⟩
    cases r with
    | error exc => exact ⟨rfl, rfl⟩
    | ok listing =>
      exact detectDocs_frame (currentDocIds ctx.chunks).toList
        { ctx with removedDocumentIds := (existingDocIds listing).diff (knownDocIds ctx) }
  refine hdetect.bind fun r hr => ?_
  obtain ⟨ctx', outcome⟩ := r
  cases outcome with
  | none => exact ⟨hr.1, hr.2 ▸ List.prefix_rfl⟩
  | some exc =>
    refine ⟨(map_bare_fallback ctx' exc).trans hr.1, ?_⟩
    rw [← hr.2]
    exact List.prefix_append ..

end ChangeDetectionStep

namespace OrphanCleanupStep

theorem deleteOrphans_frame (ctx : PipelineContext) :
    (deleteOrphans ctx).Yields IsDelete (fun acc => ctx.errors <+: acc.1.errors) := by
  unfold deleteOrphans
  split
  · exact List.prefix_rfl
  · refine ⟨trivial, fun r => ?_⟩
    cases r with
    | ok _ => exact List.prefix_rfl
    | error exc => exact List.prefix_append ..

theorem deleteRemoved_frame (acc : PipelineContext × Nat) (d : String) :
    (deleteRemoved acc d).Yields IsDelete (fun acc' => acc.1.errors <+: acc'.1.errors) := by
  refine ⟨trivial, fun r => ?_⟩
  cases r with
  | error exc => exact List.prefix_append ..
  | ok _ =>
    refine ⟨trivial, fun r => ?_⟩
    cases r with
    | ok _ => exact List.prefix_rfl
    | error exc => exact List.prefix_append ..

/-- The cleanup deletes only. -/
theorem execute_frame (ctx : PipelineContext) :
    (execute ctx).Yields IsDelete (fun ctx' => ctx.errors <+: ctx'.errors) := by
  refine (deleteOrphans_frame ctx).bind fun acc hacc => ?_
  refine (Yields.foldlM (I := fun acc' : PipelineContext × Nat => ctx.errors <+: acc'.1.errors)
    (fun acc' hacc' d _ => ?_) hacc).bind fun _ h => h
  exact (deleteRemoved_frame acc' d).mono (fun _ => id) fun _ h => hacc'.trans h

end OrphanCleanupStep

end VirtualContributor.Pipeline
