import VirtualContributor.Pipeline.Frames

/-!
# Reachable collections

`Reachable host ports runs s` says that the collection `s` is left by the
runs `runs`, the latest first, in between cleanup runs.  A run may stop at
any point, and any of its calls may fail.

Every entry of a reachable collection has a provenance in these runs
(`Reachable.provenance`), because every entry that a run writes has one
(`program_calls`).
-/

namespace VirtualContributor.Pipeline

open Lib Program

/-! ## What a run writes -/

/-- The call deletes nothing, and the entries that it writes come from the
run `r`. -/
def WritesFor (host : Host) (r : IngestRun) : IngestCall → Prop
  | .ingest es => ∀ e ∈ es, Provenance host {r} e
  | .get _ _ | .invoke _ _ | .embed _ => True
  | .deleteIds _ | .deleteWhere _ => False

/-- The calls of a run. -/
def CallOf (host : Host) (r : IngestRun) (c : IngestCall) : Prop :=
  WritesFor host r c ∨ IsDelete c

section Writes

variable {host : Host} {r : IngestRun}

theorem IngestCall.readOnly.writesFor {c : IngestCall} (h : c.readOnly) :
    WritesFor host r c := by
  cases c <;> trivial

theorem CallsModel.writesFor {c : IngestCall} (h : CallsModel c) : WritesFor host r c :=
  h.readOnly.writesFor

theorem IsGet.writesFor {c : IngestCall} (h : IsGet c) : WritesFor host r c :=
  h.readOnly.writesFor

theorem WritesFor.not_isDelete {c : IngestCall} (h : WritesFor host r c) : ¬ IsDelete c := by
  cases c with
  | deleteIds ids => exact h.elim
  | deleteWhere d => exact h.elim
  | _ => exact id

theorem WritesOverview.writesFor {c : IngestCall} (h : WritesOverview c) :
    WritesFor host r c := by
  cases c with
  | ingest es =>
    obtain ⟨ctx, text, v, rfl⟩ := h
    intro e he
    rw [List.mem_singleton] at he
    subst he
    exact ⟨r, rfl, _, .overview ctx text, rfl⟩
  | _ => trivial

/-- The chunks of a context come from the run `r`. -/
def HasOrigins (host : Host) (r : IngestRun) (chunks : List Chunk) : Prop :=
  ∀ c ∈ chunks.map Chunk.bare, ChunkOrigin host r c

/-- What `StoreStep` writes for such chunks. -/
theorem HasOrigins.writesFor {ctx : PipelineContext} (h : HasOrigins host r ctx.chunks)
    {es : List Entry} (hes : ∀ e ∈ es, e ∈ StoreStep.storable ctx) :
    WritesFor host r (.ingest es) := by
  intro e he
  obtain ⟨c, hc, _, v, _, rfl⟩ := mem_storable.mp (hes e he)
  exact ⟨r, rfl, c.bare, h _ (List.mem_map_of_mem hc), rfl⟩

/-- The passages of a batch are passages of the run. -/
theorem mem_passages_of_batch {n : Nat} (hn : 0 < n) {batch : List Document}
    (hbatch : batch ∈ slices n r.documents) {c : Chunk}
    (hc : c ∈ batch.flatMap (contentChunks host r.pipeline.chunkStep)) :
    c ∈ r.passages host := by
  obtain ⟨doc, hdoc, hc⟩ := List.mem_flatMap.mp hc
  exact IngestRun.mem_passages.mpr ⟨doc, mem_of_mem_slices hn hbatch hdoc, hc⟩

/-- Every document with a passage in a context is a document of the run. -/
theorem HasOrigins.docIds {ctx : PipelineContext}
    (h : ∀ c ∈ ctx.chunks.map Chunk.bare, c ∈ r.passages host) {d : String}
    (hd : d ∈ DocumentSummaryStep.docIds ctx) : d ∈ r.ids := by
  have hmem : d ∈ ctx.chunks.map Chunk.docId := OrderedSet.mem_ofList.mp hd
  obtain ⟨c, hc, rfl⟩ := List.mem_map.mp hmem
  exact (IngestRun.passage_spec (h _ (List.mem_map_of_mem hc))).1

theorem summarizeDocuments_writes {ctx : PipelineContext}
    (h : ∀ c ∈ ctx.chunks.map Chunk.bare, c ∈ r.passages host) :
    (r.pipeline.summarizeDocuments ctx).Yields CallsModel
      (fun ctx' => HasOrigins host r ctx'.chunks) := by
  unfold IngestPipeline.summarizeDocuments
  split
  · refine (r.pipeline.documentSummaryStep.execute_frame ctx).mono (fun _ => id) fun ctx' hf => ?_
    obtain ⟨added, hadded, hsum⟩ := hf.chunks
    intro c hc
    rw [hadded, List.mem_append] at hc
    rcases hc with hc | hc
    · exact .passage (h c hc)
    · obtain ⟨d, hd, text, source, rfl⟩ := hsum c hc
      exact .summary text source (HasOrigins.docIds h (List.mem_of_mem_filter hd))
  · exact fun c hc => .passage (h c hc)

theorem embedAndStore_writes {ctx : PipelineContext} (h : HasOrigins host r ctx.chunks) :
    ((EmbedStep.execute 50 ctx).bind (StoreStep.execute 50)).Yields (WritesFor host r)
      (fun _ => True) := by
  refine ((embedStep_frame 50 ctx).mono (fun _ => CallsModel.writesFor)
    fun _ => id).bind fun ctx' hf => ?_
  refine (storeStep_frame (by decide) ctx').mono ?_ fun _ _ => trivial
  rintro c ⟨es, rfl, hes⟩
  refine HasOrigins.writesFor ?_ hes
  rw [HasOrigins, hf.chunks]
  exact h

/-- Every batch writes entries of the run. -/
theorem runBatch_writes (acc : PipelineContext) {n : Nat} (hn : 0 < n) {batch : List Document}
    (hbatch : batch ∈ slices n r.documents) :
    (IngestEngine.runBatch (r.pipeline.batchSteps host) r.documents acc batch).Yields
      (WritesFor host r) (fun acc' => acc'.chunks = acc.chunks) := by
  show ((IngestEngine.runSteps _ _).bind _).Yields _ _
  rw [IngestPipeline.runSteps_batchSteps, hashed_batchContext, bind_assoc]
  refine ((ChangeDetectionStep.execute_frame _).mono (fun _ => IsGet.writesFor)
    fun _ => id).bind fun ctx hctx => ?_
  have hpass : ∀ c ∈ ctx.chunks.map Chunk.bare, c ∈ r.passages host := by
    intro c hc
    rw [hctx.1] at hc
    obtain ⟨c₀, hc₀, rfl⟩ := List.mem_map.mp hc
    have hmem := mem_passages_of_batch hn hbatch hc₀
    rwa [Chunk.bare_eq_self (IngestRun.passage_spec hmem).2.2.2]
  rw [bind_assoc]
  refine ((summarizeDocuments_writes hpass).mono (fun _ => CallsModel.writesFor)
    fun _ => id).bind fun ctx' hctx' => ?_
  exact (embedAndStore_writes hctx').bind fun _ _ => rfl

theorem overview_writes {ctx : PipelineContext} (h : ctx.chunks = []) :
    (r.pipeline.overview ctx).Yields (WritesFor host r) (fun _ => True) := by
  unfold IngestPipeline.overview
  split
  · refine ((r.pipeline.bokSummaryStep.execute_frame ctx).mono
      (fun _ => WritesOverview.writesFor) fun _ => id).bind fun ctx' hf => ?_
    refine embedAndStore_writes fun c hc => ?_
    obtain ⟨added, hadded, hbok⟩ := hf.chunks
    rw [hadded, h] at hc
    obtain ⟨text, rfl⟩ := hbok c hc
    exact .overview ctx text
  · trivial

/-- Every entry that a run writes comes from the run. -/
theorem program_calls (host : Host) (r : IngestRun) :
    (r.program host).Yields (CallOf host r) (fun _ => True) := by
  have hn : 0 < max 1 r.pipeline.ingestBatchSize := by omega
  rw [IngestRun.program, IngestPipeline.run_eq]
  refine (Yields.foldlM (I := fun acc : PipelineContext => acc.chunks = [])
    (fun acc hacc batch hbatch => ?_) rfl).bind fun acc hacc => ?_
  · exact (runBatch_writes acc hn hbatch).mono (fun _ => Or.inl) fun _ h => h.trans hacc
  · refine ((overview_writes hacc).mono (fun _ => Or.inl) fun _ => id).bind fun ctx _ => ?_
    rw [runStep_orphanCleanup]
    split
    · exact ((OrphanCleanupStep.execute_frame ctx).mono (fun _ => Or.inr)
        fun _ => id).bind fun _ _ => trivial
    · trivial

/-- The cleanup run writes nothing. -/
theorem cleanup_writesNothing :
    IngestPipeline.cleanup.Yields WritesNothing (fun _ => True) := by
  rw [IngestPipeline.cleanup_eq]
  refine ((ChangeDetectionStep.execute_frame _).mono (fun _ => IsGet.writesNothing)
    fun _ => id).bind fun ctx _ => ?_
  rw [runStep_orphanCleanup]
  split
  · exact ((OrphanCleanupStep.execute_frame ctx).mono (fun _ => IsDelete.writesNothing)
      fun _ => id).bind fun _ _ => trivial
  · trivial

end Writes

/-! ## Histories -/

/-- The collections that a history of runs can leave, from the empty one. -/
inductive Reachable (host : Host) (ports : Ports) : List IngestRun → Collection → Prop
  | empty : Reachable host ports [] .empty
  | run {runs : List IngestRun} {s s' : Collection} (r : IngestRun) :
      Reachable host ports runs s → Reaches (portWorld ports) (r.program host) s s' →
      Reachable host ports (r :: runs) s'
  | cleanup {runs : List IngestRun} {s s' : Collection} :
      Reachable host ports runs s → Reaches (portWorld ports) IngestPipeline.cleanup s s' →
      Reachable host ports runs s'

/-- Every entry of the collection was written by one of the runs. -/
def WellFormed (host : Host) (runs : Set IngestRun) (s : Collection) : Prop :=
  ∀ e ∈ s, Provenance host runs e

theorem WellFormed.mono {host : Host} {runs runs' : Set IngestRun} {s : Collection}
    (h : WellFormed host runs s) (hsub : ∀ r ∈ runs, r ∈ runs') : WellFormed host runs' s :=
  fun e he => (h e he).mono hsub

/-- One call of a run keeps the collection well-formed. -/
theorem WellFormed.step {host : Host} {ports : Ports} {runs : Set IngestRun} {r : IngestRun}
    (hr : r ∈ runs) {s s' : Collection} {c : IngestCall} {a : c.Answer}
    (hc : CallOf host r c) (h : portWorld ports s c a s') (hs : WellFormed host runs s) :
    WellFormed host runs s' := by
  intro e he
  rcases portWorld_mem h he with he | ⟨es, rfl, he⟩
  · exact hs e he
  · rcases hc with hc | hc
    · exact (hc e he).mono fun r' hr' => Set.mem_singleton_iff.mp hr' ▸ hr
    · exact hc.elim

/-- Whatever its history, a collection holds entries of its runs only. -/
theorem Reachable.wellFormed {host : Host} {ports : Ports} {runs : List IngestRun}
    {s : Collection} (h : Reachable host ports runs s) : WellFormed host {r | r ∈ runs} s := by
  induction h with
  | empty => exact fun e he => absurd he (Collection.not_mem_empty e)
  | @run runs s s' r _ hreach ih =>
    have hs : WellFormed host {r' | r' ∈ r :: runs} s :=
      ih.mono fun r' hr' => List.mem_cons_of_mem _ hr'
    exact (program_calls host r).reaches
      (fun _ _ _ _ hc hw hs => hs.step (List.mem_cons_self ..) hc hw) hreach hs
  | @cleanup runs s s' _ hreach ih =>
    refine cleanup_writesNothing.reaches (fun s c a s' hc hw hs => ?_) hreach ih
    intro e he
    rcases portWorld_mem hw he with he | ⟨es, rfl, _⟩
    · exact hs e he
    · exact hc.elim

end VirtualContributor.Pipeline
