import VirtualContributor.Pipeline.History

/-!
# A failed change detection

When a read of `ChangeDetectionStep` fails, the step takes back what it has
found so far.  The rest of the batch then runs as if the step had not been in
the list, except that an error is recorded, which also gates the cleanup.

* `ErrorsApart`: a part of the pipeline that records errors and reads none.
* `fallback_eq`: after the failed read the context is the one before the step,
  with an error.
* `failed_detection`: the batch and the run around it.
-/

namespace VirtualContributor.Pipeline

open Lib Program

/-! ## Parts that only record errors -/

/-- The context with some errors recorded before its own. -/
def PipelineContext.after (ctx : PipelineContext) (errors : List String) : PipelineContext :=
  { ctx with errors := errors ++ ctx.errors }

@[simp] theorem PipelineContext.after_chunks (ctx : PipelineContext) (errors : List String) :
    (ctx.after errors).chunks = ctx.chunks := rfl

theorem PipelineContext.after_addError (ctx : PipelineContext) (errors : List String)
    (error : String) : (ctx.after errors).addError error = (ctx.addError error).after errors := by
  simp [after, addError, List.append_assoc]

/-- Earlier errors make no difference to a part of the pipeline. -/
def ErrorsApart (f : PipelineContext → Ingest PipelineContext) : Prop :=
  ∀ errors ctx, f (ctx.after errors) = (f ctx).bind fun ctx' => done (ctx'.after errors)

theorem ErrorsApart.bind {f g : PipelineContext → Ingest PipelineContext} (hf : ErrorsApart f)
    (hg : ErrorsApart g) : ErrorsApart (fun ctx => (f ctx).bind g) := by
  intro errors ctx
  show (f (ctx.after errors)).bind g = ((f ctx).bind g).bind _
  rw [hf, bind_assoc, bind_assoc]
  exact congrArg _ (funext fun ctx' => hg errors ctx')

theorem ErrorsApart.foldlM {α : Type} {f : PipelineContext → α → Ingest PipelineContext}
    {xs : List α} (hf : ∀ x ∈ xs, ErrorsApart (f · x)) : ErrorsApart (xs.foldlM f ·) := by
  induction xs with
  | nil => exact fun _ _ => rfl
  | cons x xs ih =>
    have hxs := ih fun x' hx' => hf x' (List.mem_cons_of_mem _ hx')
    exact (hf x (List.mem_cons_self ..)).bind hxs

theorem embedBatch_errorsApart (failure : Nat → String → String) (batch : List Nat × Nat) :
    ErrorsApart (embedBatch failure · batch) := by
  intro errors ctx
  refine congrArg (call _) (funext fun r => ?_)
  cases r with
  | ok embeddings => rfl
  | error exc => exact congrArg done (PipelineContext.after_addError ..)

theorem embedMissing_errorsApart (batchSize : Nat) (failure : Nat → String → String)
    (positions : List Nat) : ErrorsApart (embedMissing batchSize failure positions) := by
  intro errors ctx
  exact ErrorsApart.foldlM (fun batch _ => embedBatch_errorsApart failure batch) errors ctx

theorem embedStep_errorsApart (batchSize : Nat) : ErrorsApart (EmbedStep.execute batchSize) := by
  intro errors ctx
  exact embedMissing_errorsApart batchSize EmbedStep.failure _ errors ctx

theorem storeStep_errorsApart (batchSize : Nat) : ErrorsApart (StoreStep.execute batchSize) := by
  have hbatch (batch : List Entry × Nat) : ErrorsApart (StoreStep.storeBatch · batch) := by
    intro errors ctx
    refine congrArg (call _) (funext fun r => ?_)
    cases r with
    | ok _ => rfl
    | error exc => exact congrArg done (PipelineContext.after_addError ..)
  have hreport (errors : List String) (ctx : PipelineContext) :
      StoreStep.reportMissing (ctx.after errors) = (StoreStep.reportMissing ctx).after errors := by
    unfold StoreStep.reportMissing
    simp only [PipelineContext.after_chunks, PipelineContext.after_addError]
    by_cases hmissing : (ctx.chunks.filter (fun c => c.embedding.isNone)).length > 0
    · rw [if_pos hmissing, if_pos hmissing]
    · rw [if_neg hmissing, if_neg hmissing]
  intro errors ctx
  show (List.foldlM StoreStep.storeBatch (StoreStep.reportMissing (ctx.after errors)) _) = _
  rw [hreport]
  exact ErrorsApart.foldlM (fun batch _ => hbatch batch) errors (StoreStep.reportMissing ctx)

namespace DocumentSummaryStep

theorem foldl_applyResult_after (results : List SummaryResult) (errors : List String)
    (ctx : PipelineContext) (targets : List (String × List Nat)) :
    results.foldl applyResult (ctx.after errors, targets)
      = (((results.foldl applyResult (ctx, targets)).1).after errors,
          (results.foldl applyResult (ctx, targets)).2) := by
  induction results generalizing ctx targets with
  | nil => rfl
  | cons result results ih =>
    rw [List.foldl_cons, List.foldl_cons]
    cases hout : result.outcome with
    | error error =>
      rw [applyResult_error hout, applyResult_error hout, PipelineContext.after_addError, ih]
    | ok c =>
      rw [applyResult_ok hout, applyResult_ok hout]
      exact ih { ctx with
        documentSummaries := ctx.documentSummaries.set result.docId c.content
        chunks := ctx.chunks ++ [c] } _

theorem summarizeOne_after (step : DocumentSummaryStep) (ctx : PipelineContext)
    (errors : List String) : step.summarizeOne (ctx.after errors) = step.summarizeOne ctx := rfl

theorem docsToSummarize_after (step : DocumentSummaryStep) (ctx : PipelineContext)
    (errors : List String) : step.docsToSummarize (ctx.after errors) = step.docsToSummarize ctx :=
  rfl

/-- The context in which the step summarises. -/
private def marked (step : DocumentSummaryStep) (ctx : PipelineContext) : PipelineContext :=
  { ctx with orphanIds := ctx.orphanIds.insertAll (step.staleSummaryIds ctx) }

private theorem marked_after (step : DocumentSummaryStep) (ctx : PipelineContext)
    (errors : List String) : step.marked (ctx.after errors) = (step.marked ctx).after errors := rfl

/-- The loop that embeds the documents of the results. -/
private def embedTargets (step : DocumentSummaryStep)
    (acc : PipelineContext × List (String × List Nat)) : Ingest PipelineContext :=
  acc.2.foldlM (fun ctx target =>
    embedMissing step.embedBatchSize (failure target.1) target.2 ctx) acc.1

private theorem execute_eq (step : DocumentSummaryStep) (ctx : PipelineContext) :
    step.execute ctx = ((step.docsToSummarize ctx).mapM (step.summarizeOne (step.marked ctx))).bind
      fun results => step.embedTargets (results.foldl applyResult (step.marked ctx, [])) := rfl

theorem execute_errorsApart (step : DocumentSummaryStep) : ErrorsApart step.execute := by
  intro errors ctx
  rw [execute_eq, execute_eq, bind_assoc, marked_after, docsToSummarize_after,
    summarizeOne_after]
  refine congrArg (Program.bind _) (funext fun results => ?_)
  rw [foldl_applyResult_after]
  exact ErrorsApart.foldlM (fun target _ =>
    embedMissing_errorsApart step.embedBatchSize (failure target.1) target.2) errors _

end DocumentSummaryStep

/-! ## The fallback -/

/-- A read of the store that failed. -/
def FailedRead : Event ingestSignature → Prop
  | ⟨.get _ _, .error _⟩ => True
  | _ => False

theorem FailedRead.isGet {e : Event ingestSignature} (h : FailedRead e) : IsGet e.call := by
  obtain ⟨c, r⟩ := e
  cases c with
  | get d b => trivial
  | _ => exact h.elim

/-- A context in which detection has found nothing yet. -/
structure BeforeDetection (ctx : PipelineContext) : Prop where
  passages : ∀ c ∈ ctx.chunks, c.isContent = true ∧ c.embedding = none
  unchanged : ctx.unchangedChunkHashes = .empty
  orphans : ctx.orphanIds = .empty
  removed : ctx.removedDocumentIds = .empty
  changed : ctx.changedDocumentIds = .empty
  skipped : ctx.chunksSkipped = 0

theorem beforeDetection_hashed (p : IngestPipeline) (host : Host)
    (documents batch : List Document) :
    BeforeDetection (p.hashed host (IngestEngine.batchContext documents batch)) := by
  rw [hashed_batchContext]
  refine ⟨fun c hc => ?_, rfl, rfl, rfl, rfl, rfl⟩
  obtain ⟨doc, _, hc⟩ := List.mem_flatMap.mp hc
  obtain ⟨_, hcontent, _, hembedding⟩ := contentChunks_spec hc
  exact ⟨hcontent, hembedding⟩

namespace ChangeDetectionStep

/-- What detection may have changed when a read fails. -/
structure Interrupted (ctx ctx' : PipelineContext) : Prop where
  rest : ctx' = { ctx with
    chunks := ctx'.chunks, unchangedChunkHashes := ctx'.unchangedChunkHashes,
    chunksSkipped := ctx'.chunksSkipped, changedDocumentIds := ctx'.changedDocumentIds,
    orphanIds := ctx'.orphanIds, removedDocumentIds := ctx'.removedDocumentIds }
  chunks : ctx'.chunks.map Chunk.bare = ctx.chunks.map Chunk.bare

variable {ctx ctx' : PipelineContext} {exc : String}

/-- The fallback takes all of it back. -/
theorem fallback_eq (hctx : BeforeDetection ctx) (h : Interrupted ctx ctx') :
    fallback ctx' exc = ctx.addError s!"ChangeDetectionStep: store read failed: {exc}" := by
  have hchunks : (ctx'.chunks.map fun c => if c.isContent then { c with embedding := none } else c)
      = ctx.chunks := by
    have hbare : ctx.chunks.map Chunk.bare = ctx.chunks :=
      (List.map_congr_left fun c hc => Chunk.bare_eq_self (hctx.passages c hc).2).trans
        (List.map_id _)
    have hcontent : ∀ c ∈ ctx'.chunks, c.isContent = true := by
      intro c hc
      have hmem : c.bare ∈ ctx.chunks := by
        rw [← hbare, ← h.chunks]
        exact List.mem_map_of_mem hc
      exact (hctx.passages _ hmem).1
    rw [← hbare, ← h.chunks]
    exact List.map_congr_left fun c hc => if_pos (hcontent c hc)
  unfold fallback
  rw [hchunks, h.rest]
  obtain ⟨_, hunchanged, horphans, hremoved, hchanged, hskipped⟩ := hctx
  cases ctx
  simp only at hunchanged horphans hremoved hchanged hskipped
  subst hunchanged horphans hremoved hchanged hskipped
  rfl

section Runs

variable {σ : Type} {W : World ingestSignature σ} {s s' : σ} {t : List (Event ingestSignature)}

/-- The loop over the documents, up to its end or to a read that failed. -/
theorem detectDocs_runs {docIds : List String} {outcome : Option String}
    (h : Runs W (detectDocs docIds ctx) s t (ctx', outcome) s') :
    (∀ e ∈ t, IsGet e.call) ∧ ((∃ e ∈ t, FailedRead e) → ∃ exc, outcome = some exc ∧
      Interrupted ctx ctx') := by
  induction docIds generalizing ctx s t with
  | nil =>
    obtain ⟨rfl, _, _⟩ := runs_done_iff.mp h
    exact ⟨by simp, by simp⟩
  | cons d rest ih =>
    obtain ⟨r, s₁, t₁, hw, rfl, hrest⟩ := runs_call_iff.mp h
    cases r with
    | error exc =>
      obtain ⟨rfl, heq, _⟩ := runs_done_iff.mp hrest
      obtain ⟨rfl, rfl⟩ := Prod.mk.inj heq
      refine ⟨fun e he => ?_, fun _ => ⟨exc, rfl, rfl, rfl⟩⟩
      rw [List.mem_singleton] at he
      rw [he]
      trivial
    | ok existing =>
      obtain ⟨hgets, hfail⟩ := ih hrest
      refine ⟨List.forall_mem_cons.mpr ⟨trivial, hgets⟩, ?_⟩
      rintro ⟨e, he, hfailed⟩
      rcases List.mem_cons.mp he with rfl | he
      · exact hfailed.elim
      · obtain ⟨exc, rfl, hfound⟩ := hfail ⟨e, he, hfailed⟩
        refine ⟨exc, rfl, ?_, ?_⟩
        · rw [hfound.rest]
          rfl
        · rw [hfound.chunks]
          exact map_bare_preload existing d ctx.chunks

/-- Detection in which a read fails leaves the context as it was, with an
error. -/
theorem execute_failed (hctx : BeforeDetection ctx)
    (h : Runs W (execute ctx) s t ctx' s') :
    (∀ e ∈ t, IsGet e.call) ∧ ((∃ e ∈ t, FailedRead e) → ∃ exc : String,
      ctx' = ctx.addError s!"ChangeDetectionStep: store read failed: {exc}") := by
  obtain ⟨⟨ctx₁, outcome⟩, s₁, t₁, t₂, rfl, hdetect, hdone⟩ := runs_bind_iff.mp h
  have hend : t₂ = [] ∧ ∀ exc, outcome = some exc → ctx' = fallback ctx₁ exc := by
    cases outcome with
    | none =>
      obtain ⟨rfl, _, _⟩ := runs_done_iff.mp hdone
      exact ⟨rfl, fun exc h => by cases h⟩
    | some exc =>
      obtain ⟨rfl, rfl, _⟩ := runs_done_iff.mp hdone
      exact ⟨rfl, fun exc' h => by rw [Option.some.inj h]⟩
  obtain ⟨rfl, hfallback⟩ := hend
  rw [List.append_nil]
  obtain ⟨r, s₂, t₃, _, rfl, hrest⟩ := runs_call_iff.mp hdetect
  cases r with
  | error exc =>
    obtain ⟨rfl, heq, _⟩ := runs_done_iff.mp hrest
    obtain ⟨rfl, rfl⟩ := Prod.mk.inj heq
    refine ⟨fun e he => ?_, fun _ => ⟨exc, ?_⟩⟩
    · rw [List.mem_singleton] at he
      rw [he]
      trivial
    · rw [hfallback exc rfl]
      exact fallback_eq hctx ⟨rfl, rfl⟩
  | ok listing =>
    obtain ⟨hgets, hfail⟩ := detectDocs_runs hrest
    refine ⟨List.forall_mem_cons.mpr ⟨trivial, hgets⟩, ?_⟩
    rintro ⟨e, he, hfailed⟩
    rcases List.mem_cons.mp he with rfl | he
    · exact hfailed.elim
    · obtain ⟨exc, rfl, hfound⟩ := hfail ⟨e, he, hfailed⟩
      refine ⟨exc, ?_⟩
      rw [hfallback exc rfl]
      refine fallback_eq hctx ⟨?_, hfound.chunks⟩
      rw [hfound.rest]

end Runs

end ChangeDetectionStep

/-! ## The batch -/

namespace IngestPipeline

/-- The steps of a batch without detection. -/
def undetectedSteps (p : IngestPipeline) (host : Host) : List PipelineStep :=
  (p.batchSteps host).filter fun step => step.name ≠ "change_detection"

/-- The steps of a batch after detection. -/
def afterDetection (p : IngestPipeline) (ctx : PipelineContext) : Ingest PipelineContext :=
  (p.summarizeDocuments ctx).bind fun ctx => (EmbedStep.execute 50 ctx).bind (StoreStep.execute 50)

theorem runSteps_undetectedSteps (p : IngestPipeline) (host : Host) (ctx : PipelineContext) :
    IngestEngine.runSteps (p.undetectedSteps host) ctx = p.afterDetection (p.hashed host ctx) := by
  have hsteps : p.undetectedSteps host
      = [p.chunkStep.toStep host, ContentHashStep.toStep host]
        ++ (if p.summarizeEnabled then [p.documentSummaryStep.toStep] else [])
        ++ [EmbedStep.toStep, StoreStep.toStep] := by
    unfold undetectedSteps batchSteps
    cases p.summarizeEnabled <;> rfl
  rw [hsteps, afterDetection, summarizeDocuments]
  unfold IngestEngine.runSteps
  cases p.summarizeEnabled <;> simp [hashed]

/-- Detection is the only step of a batch that reads the store. -/
theorem afterDetection_reads (p : IngestPipeline) (ctx : PipelineContext) :
    (p.afterDetection ctx).Yields (fun c => ¬ IsGet c) (fun _ => True) := by
  have hmodel {c : IngestCall} (h : CallsModel c) : ¬ IsGet c := by
    cases c <;> simp_all [CallsModel, IsGet]
  have hsummarize : (p.summarizeDocuments ctx).Yields (fun c => ¬ IsGet c) (fun _ => True) := by
    unfold summarizeDocuments
    split
    · exact (p.documentSummaryStep.execute_frame ctx).mono (fun _ => hmodel) fun _ _ => trivial
    · trivial
  refine hsummarize.bind fun ctx₁ _ => ?_
  refine ((embedStep_frame 50 ctx₁).mono (fun _ => hmodel) fun _ => id).bind fun ctx₂ _ => ?_
  refine (storeStep_frame (by decide) ctx₂).mono ?_ fun _ _ => trivial
  rintro c ⟨es, rfl, _⟩
  exact id

theorem afterDetection_errorsApart (p : IngestPipeline) : ErrorsApart p.afterDetection := by
  have hsummarize : ErrorsApart p.summarizeDocuments := by
    intro errors ctx
    unfold summarizeDocuments
    split
    · exact p.documentSummaryStep.execute_errorsApart errors ctx
    · rfl
  exact hsummarize.bind ((embedStep_errorsApart 50).bind (storeStep_errorsApart 50))

end IngestPipeline

/-- A batch in which detection failed: `reads` are the calls of detection and
`rest` the calls after it.  Those are the calls of a run of the other steps over
the batch, which leaves `without`. -/
structure FallsBack (p : IngestPipeline) (host : Host) (ports : Ports)
    (documents batch : List Document) (s s' : Collection)
    (reads rest : List (Event ingestSignature)) (error : String)
    (ctx without : PipelineContext) : Prop where
  reads_only : ∀ e ∈ reads, IsGet e.call
  detection : Runs (portWorld ports)
    (ChangeDetectionStep.execute (p.hashed host (IngestEngine.batchContext documents batch)))
    s reads ((p.hashed host (IngestEngine.batchContext documents batch)).addError error) s
  unmarked : (p.hashed host (IngestEngine.batchContext documents batch)).unchangedChunkHashes
    = .empty
  unembedded : ∀ c ∈ (p.hashed host (IngestEngine.batchContext documents batch)).chunks,
    c.embedding = none
  run : Runs (portWorld ports)
    (IngestEngine.runSteps (p.undetectedSteps host) (IngestEngine.batchContext documents batch))
    s rest without s'
  context : ctx = { without with errors := ctx.errors }
  errors : ∃ before after, without.errors = before ++ after ∧
    ctx.errors = before ++ error :: after

section Batch

variable {p : IngestPipeline} {host : Host} {ports : Ports} {documents batch : List Document}
  {s s' : Collection} {t : List (Event ingestSignature)} {ctx : PipelineContext}

/-- Reads leave the collection as it is. -/
theorem Runs.unchanged {α : Type} {q : Ingest α} {a : α}
    (h : Runs (portWorld ports) q s t a s') (ht : ∀ e ∈ t, IsGet e.call) : s' = s := by
  induction h with
  | done a s => rfl
  | call hw _ ih =>
    obtain ⟨hget, ht⟩ := List.forall_mem_cons.mp ht
    rw [ih ht, portWorld_readOnly hget.readOnly hw]

/-- A failed read of a batch is one of detection, and the batch falls back. -/
theorem batch_fallsBack
    (h : Runs (portWorld ports) (IngestEngine.runSteps (p.batchSteps host)
      (IngestEngine.batchContext documents batch)) s t ctx s')
    (hfail : ∃ e ∈ t, FailedRead e) :
    ∃ reads rest error without, t = reads ++ rest ∧
      FallsBack p host ports documents batch s s' reads rest error ctx without := by
  have hbefore := beforeDetection_hashed p host documents batch
  rw [IngestPipeline.runSteps_batchSteps] at h
  obtain ⟨ctx₁, s₁, reads, rest, rfl, hdetect, hrest⟩ := runs_bind_iff.mp h
  obtain ⟨hgets, hfailed⟩ := ChangeDetectionStep.execute_failed hbefore hdetect
  obtain rfl : s₁ = s := Runs.unchanged hdetect hgets
  -- The steps after detection do not read the store.
  have hreads : ∃ e ∈ reads, FailedRead e := by
    obtain ⟨e, he, hfailed⟩ := hfail
    rcases List.mem_append.mp he with he | he
    · exact ⟨e, he, hfailed⟩
    · exact absurd hfailed.isGet (((p.afterDetection_reads ctx₁).calls hrest).2 e he)
  obtain ⟨error, rfl⟩ : ∃ error : String, ctx₁
      = (p.hashed host (IngestEngine.batchContext documents batch)).addError error := by
    obtain ⟨exc, rfl⟩ := hfailed hreads
    exact ⟨_, rfl⟩
  -- Both runs continue from one context, after different errors.
  obtain ⟨ctx₀, earlier, hctx₀, hclean⟩ : ∃ (ctx₀ : PipelineContext) (earlier : List String),
      p.hashed host (IngestEngine.batchContext documents batch) = ctx₀.after earlier ∧
        ctx₀.errors = [] := by
    refine ⟨{ p.hashed host (IngestEngine.batchContext documents batch) with errors := [] },
      (p.hashed host (IngestEngine.batchContext documents batch)).errors, ?_, rfl⟩
    simp [PipelineContext.after]
  have herror (error : String) :
      (ctx₀.after earlier).addError error = ctx₀.after (earlier ++ [error]) := by
    simp [PipelineContext.after, PipelineContext.addError, hclean]
  rw [hctx₀, herror] at hrest
  change Runs _ (p.afterDetection _) _ _ _ _ at hrest
  rw [p.afterDetection_errorsApart] at hrest
  obtain ⟨ctx₂, s₂, t₁, t₂, rfl, hafter, hdone⟩ := runs_bind_iff.mp hrest
  obtain ⟨rfl, rfl, rfl⟩ := runs_done_iff.mp hdone
  have hwithout : Runs (portWorld ports) (IngestEngine.runSteps (p.undetectedSteps host)
      (IngestEngine.batchContext documents batch)) s₁ t₁ (ctx₂.after earlier) s' := by
    rw [p.runSteps_undetectedSteps, hctx₀, p.afterDetection_errorsApart]
    exact runs_bind_iff.mpr ⟨ctx₂, s', t₁, [], by simp, hafter, .done _ _⟩
  rw [List.append_nil]
  refine ⟨reads, t₁, error, ctx₂.after earlier, rfl, {
    reads_only := hgets
    detection := hdetect
    unmarked := hbefore.unchanged
    unembedded := fun c hc => (hbefore.passages c hc).2
    run := hwithout
    context := rfl
    errors := ⟨earlier, ctx₂.errors, rfl, by simp [PipelineContext.after]⟩ }⟩

end Batch

/-! ## The run -/

section Run

variable {p : IngestPipeline} {host : Host} {documents : List Document}

theorem overview_errors (p : IngestPipeline) (ctx : PipelineContext) :
    (p.overview ctx).Yields (fun _ => True) (fun ctx' => ctx.errors <+: ctx'.errors) := by
  unfold IngestPipeline.overview
  split
  · refine ((p.bokSummaryStep.execute_frame ctx).mono (fun _ _ => trivial)
      fun _ => id).bind fun ctx₁ h₁ => ?_
    refine ((embedStep_frame 50 ctx₁).mono (fun _ _ => trivial) fun _ => id).bind
      fun ctx₂ h₂ => ?_
    refine (storeStep_frame (by decide) ctx₂).mono (fun _ _ => trivial) fun ctx₃ h₃ => ?_
    exact h₁.errors.trans (h₂.errors.trans h₃.errors)
  · exact List.prefix_rfl

/-- The context of a run between its batches. -/
structure BetweenBatches (failed : Prop) (acc : PipelineContext) : Prop where
  chunks : acc.chunks = []
  errors : failed → acc.errors ≠ []

/-- Batches delete nothing and forget no error. -/
theorem batches_spec {failed : Prop} {batches : List (List Document)}
    (hbatches : ∀ batch ∈ batches, batch ∈ slices (max 1 p.ingestBatchSize) documents)
    {acc : PipelineContext} (hacc : BetweenBatches failed acc) :
    (batches.foldlM (IngestEngine.runBatch (p.batchSteps host) documents) acc).Yields
      (fun c => ¬ IsDelete c) (BetweenBatches failed) := by
  have hn : 0 < max 1 p.ingestBatchSize := by omega
  refine Yields.foldlM (fun acc hacc batch hbatch => ?_) hacc
  have hwrites : (IngestEngine.runBatch (p.batchSteps host) documents acc batch).Yields
      (WritesFor host ⟨p, documents⟩) (fun acc' => acc'.chunks = acc.chunks) :=
    runBatch_writes acc hn (hbatches batch hbatch)
  have herrors : (IngestEngine.runBatch (p.batchSteps host) documents acc batch).Yields
      (fun _ => True) (fun acc' => acc.errors <+: acc'.errors) := by
    refine (yields_true _).bind fun ctx _ => ?_
    exact List.prefix_append ..
  refine (hwrites.and herrors).mono (fun c hc => hc.not_isDelete) ?_
  rintro acc' ⟨hchunks, hprefix⟩
  refine ⟨hchunks.trans hacc.chunks, fun hfailed hnone => hacc.errors hfailed ?_⟩
  exact List.prefix_nil.mp (hnone ▸ hprefix)

/-- What is left to do after the batches. -/
def IngestPipeline.finish (p : IngestPipeline) (documents : List Document)
    (acc : PipelineContext) : Ingest IngestResult :=
  (IngestEngine.runSteps p.finalizeSteps acc).bind fun ctx =>
    done (IngestEngine.buildResult ctx documents.length)

/-- Errors gate the cleanup and fail the run. -/
theorem finish_spec (host : Host) {acc : PipelineContext} (hacc : BetweenBatches True acc) :
    (p.finish documents acc).Yields (fun c => ¬ IsDelete c)
      (fun result => result.success = false) := by
  unfold IngestPipeline.finish
  rw [IngestPipeline.runSteps_finalizeSteps, bind_assoc]
  have hwrites : (p.overview acc).Yields (WritesFor host ⟨p, documents⟩) (fun _ => True) :=
    overview_writes hacc.chunks
  refine ((hwrites.and (overview_errors p acc)).mono (fun c hc => hc.not_isDelete)
    fun _ => id).bind fun ctx hctx => ?_
  have herrors : ctx.errors ≠ [] := fun hnone =>
    hacc.errors trivial (List.prefix_nil.mp (hnone ▸ hctx.2))
  rw [runStep_orphanCleanup, if_neg herrors]
  simp [IngestEngine.buildResult, PipelineContext.addError]

/-- The run `h` cut at one of its batches: `acc` is the context before the
batch and `ctx` the one that the batch leaves. -/
structure RunAround (p : IngestPipeline) (host : Host) (ports : Ports)
    (documents : List Document) (before : List (List Document)) (batch : List Document)
    (later : List (List Document)) (s s₁ s₂ s' : Collection)
    (t₀ t₁ t₂ : List (Event ingestSignature)) (acc ctx : PipelineContext)
    (result : IngestResult) : Prop where
  earlier : Runs (portWorld ports) (before.foldlM
    (IngestEngine.runBatch (p.batchSteps host) documents) (IngestEngine.initialContext documents))
    s t₀ acc s₁
  batch : Runs (portWorld ports) (IngestEngine.runSteps (p.batchSteps host)
    (IngestEngine.batchContext documents batch)) s₁ t₁ ctx s₂
  later : Runs (portWorld ports) ((later.foldlM
    (IngestEngine.runBatch (p.batchSteps host) documents) (IngestEngine.merge acc ctx)).bind
      (p.finish documents)) s₂ t₂ result s'

/-- Every run can be cut at each of its batches. -/
theorem run_around {ports : Ports} {before later : List (List Document)} {batch : List Document}
    (hslices : slices (max 1 p.ingestBatchSize) documents = before ++ batch :: later)
    {s s' : Collection} {t : List (Event ingestSignature)} {result : IngestResult}
    (h : Runs (portWorld ports) (p.run host documents) s t result s') :
    ∃ s₁ s₂ t₀ t₁ t₂ acc ctx, t = t₀ ++ (t₁ ++ t₂) ∧
      RunAround p host ports documents before batch later s s₁ s₂ s' t₀ t₁ t₂ acc ctx result := by
  have hrun : p.run host documents
      = (before.foldlM (IngestEngine.runBatch (p.batchSteps host) documents)
          (IngestEngine.initialContext documents)).bind fun acc =>
        (IngestEngine.runSteps (p.batchSteps host)
          (IngestEngine.batchContext documents batch)).bind fun ctx =>
        (later.foldlM (IngestEngine.runBatch (p.batchSteps host) documents)
          (IngestEngine.merge acc ctx)).bind (p.finish documents) := by
    unfold IngestPipeline.run IngestEngine.runBatched
    rw [hslices, List.foldlM_append]
    simp only [List.foldlM_cons, bind_eq_bind, bind_assoc, IngestEngine.runBatch]
    rfl
  rw [hrun] at h
  obtain ⟨acc, s₁, t₀, t', rfl, hearlier, h⟩ := runs_bind_iff.mp h
  obtain ⟨ctx, s₂, t₁, t₂, rfl, hbatch, hlater⟩ := runs_bind_iff.mp h
  exact ⟨s₁, s₂, t₀, t₁, t₂, acc, ctx, rfl, hearlier, hbatch, hlater⟩

/-- The run without documents only reads when a read fails. -/
theorem cleanup_failed {ports : Ports} {s s' : Collection} {t : List (Event ingestSignature)}
    {result : IngestResult} (h : Runs (portWorld ports) IngestPipeline.cleanup s t result s')
    (hfail : ∃ e ∈ t, FailedRead e) : (∀ e ∈ t, IsGet e.call) ∧ result.success = false := by
  rw [IngestPipeline.cleanup_eq] at h
  obtain ⟨ctx, s₁, reads, rest, rfl, hdetect, h⟩ := runs_bind_iff.mp h
  obtain ⟨hgets, hfailed⟩ := ChangeDetectionStep.execute_failed
    ⟨by simp, rfl, rfl, rfl, rfl, rfl⟩ hdetect
  have hreads : ∃ e ∈ reads, FailedRead e := by
    by_contra hnone
    obtain ⟨e, he, hfailed⟩ := hfail
    rcases List.mem_append.mp he with he | he
    · exact hnone ⟨e, he, hfailed⟩
    · have hcalls : ((IngestEngine.runStep ctx OrphanCleanupStep.toStep).bind fun ctx =>
          done (IngestEngine.buildResult ctx 0)).Yields (fun c => ¬ IsGet c) (fun _ => True) := by
        rw [runStep_orphanCleanup]
        split
        · refine ((OrphanCleanupStep.execute_frame ctx).mono ?_ fun _ => id).bind
            fun _ _ => trivial
          intro c hc
          cases c <;> simp_all [IsDelete, IsGet]
        · trivial
      exact (hcalls.calls h).2 e he hfailed.isGet
  obtain ⟨exc, rfl⟩ := hfailed hreads
  rw [runStep_orphanCleanup, if_neg (by simp [PipelineContext.addError])] at h
  obtain ⟨rfl, rfl, _⟩ := runs_done_iff.mp h
  rw [List.append_nil]
  exact ⟨hgets, by simp [IngestEngine.buildResult, PipelineContext.addError]⟩

/-- A failed detection behaves as no detection.  In every run and for each of
its batches, if a read of the store fails in the batch then its other calls are
those of a run of the batch's other steps, and the whole run deletes nothing. -/
theorem failed_detection {ports : Ports} {s s' : Collection} {t : List (Event ingestSignature)}
    {result : IngestResult} (h : Runs (portWorld ports) (p.ingest host documents) s t result s') :
    (documents = [] → (∃ e ∈ t, FailedRead e) →
      (∀ e ∈ t, IsGet e.call) ∧ result.success = false) ∧
    (documents ≠ [] → ∀ before batch later,
      slices (max 1 p.ingestBatchSize) documents = before ++ batch :: later →
      ∃ s₁ s₂ t₀ t₁ t₂ acc ctx, t = t₀ ++ (t₁ ++ t₂) ∧
        RunAround p host ports documents before batch later s s₁ s₂ s' t₀ t₁ t₂ acc ctx result ∧
        ((∃ e ∈ t₁, FailedRead e) →
          (∃ reads rest error without, t₁ = reads ++ rest ∧
            FallsBack p host ports documents batch s₁ s₂ reads rest error ctx without) ∧
          (∀ e ∈ t, ¬ IsDelete e.call) ∧ result.success = false)) := by
  constructor
  · rintro rfl
    exact cleanup_failed h
  · intro hdocs before batch later hslices
    have hrun : p.ingest host documents = p.run host documents := by
      rw [IngestPipeline.ingest, if_neg (by simpa using hdocs)]
    rw [hrun] at h
    obtain ⟨s₁, s₂, t₀, t₁, t₂, acc, ctx, rfl, haround⟩ := run_around hslices h
    refine ⟨s₁, s₂, t₀, t₁, t₂, acc, ctx, rfl, haround, fun hfail => ?_⟩
    obtain ⟨reads, rest, error, without, rfl, hfalls⟩ := batch_fallsBack haround.batch hfail
    refine ⟨⟨reads, rest, error, without, rfl, hfalls⟩, ?_⟩
    have hmem : ∀ batch' ∈ before ++ batch :: later,
        batch' ∈ slices (max 1 p.ingestBatchSize) documents := fun _ h => hslices ▸ h
    -- the errors of the batch reach the finalize pass
    have hstart : BetweenBatches False (IngestEngine.initialContext documents) :=
      ⟨rfl, False.elim⟩
    obtain ⟨hacc, hearlier⟩ := (batches_spec
      (fun batch' hb => hmem batch' (List.mem_append_left _ hb)) hstart).calls haround.earlier
    have hmerged : BetweenBatches True (IngestEngine.merge acc ctx) := by
      obtain ⟨errs, errs', _, herrors⟩ := hfalls.errors
      exact ⟨hacc.chunks, fun _ => by simp [IngestEngine.merge, herrors]⟩
    have hrest : ((later.foldlM (IngestEngine.runBatch (p.batchSteps host) documents)
        (IngestEngine.merge acc ctx)).bind (p.finish documents)).Yields
        (fun c => ¬ IsDelete c) (fun result => result.success = false) :=
      (batches_spec
        (fun batch' hb => hmem batch' (List.mem_append_right _ (List.mem_cons_of_mem _ hb)))
        hmerged).bind fun _ hacc' => finish_spec host hacc'
    obtain ⟨hsuccess, hlater⟩ := hrest.calls haround.later
    have hbatch : Runs (portWorld ports) (IngestEngine.runBatch (p.batchSteps host) documents
        acc batch) s₁ (reads ++ rest) (IngestEngine.merge acc ctx) s₂ :=
      runs_bind_iff.mpr ⟨ctx, s₂, reads ++ rest, [], by simp, haround.batch, .done _ _⟩
    have hwrites : (IngestEngine.runBatch (p.batchSteps host) documents acc batch).Yields
        (WritesFor host ⟨p, documents⟩) (fun acc' => acc'.chunks = acc.chunks) :=
      runBatch_writes acc (by omega) (hmem batch (by simp))
    refine ⟨fun e he => ?_, hsuccess⟩
    rcases List.mem_append.mp he with he | he
    · exact hearlier e he
    rcases List.mem_append.mp he with he | he
    · exact ((hwrites.calls hbatch).2 e he).not_isDelete
    · exact hlater e he

end Run

/-! ## A store that does not list -/

/-- Ports that answer everything but the reads of the store. -/
def unreadablePorts : Script ingestSignature Collection
  | s, .get _ _ => (.error "down", s)
  | s, c => steadyPorts (fun _ _ => "ok") (fun _ => [1]) s c

/-- Digests that are all equal. -/
def zeroHost : Host := .ofTable [] isHexDigest_of_mem_nil

def redDocument : Document where
  content := "red"
  metadata := { documentId := "a", source := "s" }

/-- The run over one document on this store. -/
def unreadableRun : IngestResult × List (Event ingestSignature) × Collection :=
  (({} : IngestPipeline).ingest zeroHost [redDocument]).eval unreadablePorts .empty

theorem unreadablePorts_runs {α : Type} (q : Ingest α) (s : Collection) :
    Runs (portWorld .any) q s (q.eval unreadablePorts s).2.1 (q.eval unreadablePorts s).1
      (q.eval unreadablePorts s).2.2 := by
  have hsteady (s : Collection) (c : IngestCall) : portWorld .any s c
      (steadyPorts (fun _ _ => "ok") (fun _ => [1]) s c).1
      (steadyPorts (fun _ _ => "ok") (fun _ => [1]) s c).2 :=
    steadyPorts_portWorld (fun _ _ => trivial) (fun _ => trivial) s c
  refine eval_runs (fun s c => ?_) q s
  cases c with
  | get d b => rfl
  | _ => exact hsteady s _

/-- The document is stored and nothing is deleted. -/
theorem failed_detection_unreadable :
    (∀ e ∈ unreadableRun.2.1, ¬ IsDelete e.call) ∧ unreadableRun.1.success = false ∧
      unreadableRun.2.2.entries.length = 2 := by
  obtain ⟨s₁, s₂, t₀, t₁, t₂, acc, ctx, htrace, haround, hfails⟩ :=
    (failed_detection (unreadablePorts_runs (({} : IngestPipeline).ingest zeroHost [redDocument])
      .empty)).2 (by simp) [] [redDocument] [] rfl
  have hfail : ∃ e ∈ t₁, FailedRead e := by
    obtain ⟨rfl, _, _⟩ := runs_done_iff.mp haround.earlier
    have hbatch := haround.batch
    rw [IngestPipeline.runSteps_batchSteps] at hbatch
    obtain ⟨_, _, t₃, _, rfl, hdetect, _⟩ := runs_bind_iff.mp hbatch
    obtain ⟨_, _, t₄, _, rfl, hreads, _⟩ := runs_bind_iff.mp hdetect
    obtain ⟨r, _, t₅, _, rfl, _⟩ := runs_call_iff.mp hreads
    have hhead : (((({} : IngestPipeline).ingest zeroHost [redDocument]).eval unreadablePorts
        .empty).2.1).head? = some ⟨.get none false, .error "down"⟩ := rfl
    rw [htrace] at hhead
    obtain rfl : r = .error "down" := eq_of_heq (Event.mk.inj (Option.some.inj hhead)).2
    exact ⟨_, List.mem_cons_self .., trivial⟩
  obtain ⟨_, hnone, hsuccess⟩ := hfails hfail
  exact ⟨hnone, hsuccess, by decide +kernel⟩

end VirtualContributor.Pipeline
