import VirtualContributor.Pipeline.Plan

namespace VirtualContributor.Pipeline

open Lib Program

/-! ## Assigning embeddings -/

theorem getElem?_modify_embedding (chunks : List Chunk) (i j : Nat) (v : Embedding) :
    (chunks.modify i (fun c => { c with embedding := some v }))[j]?
      = if i = j then (chunks[j]?).map (fun c => { c with embedding := some v })
        else chunks[j]? := by
  rw [List.getElem?_modify]
  cases chunks[j]? <;> by_cases h : i = j <;> simp [h]

/-- A position that is not assigned keeps its chunk. -/
theorem getElem?_assignEmbeddings_of_not_mem {chunks : List Chunk} {positions : List Nat}
    {vs : List Embedding} {j : Nat} (hj : j ∉ positions) :
    (assignEmbeddings chunks positions vs)[j]? = chunks[j]? := by
  unfold assignEmbeddings
  have hkeys : ∀ p ∈ positions.zip vs, p.1 ≠ j :=
    fun p hp h => hj (h ▸ (List.of_mem_zip hp).1)
  generalize positions.zip vs = ps at hkeys ⊢
  induction ps generalizing chunks with
  | nil => rfl
  | cons p ps ih =>
    obtain ⟨hp, hps⟩ := List.forall_mem_cons.mp hkeys
    rw [List.foldl_cons, ih hps, getElem?_modify_embedding, if_neg hp]

/-- A chunk with an embedding keeps one. -/
theorem isSome_assignEmbeddings {chunks : List Chunk} {positions : List Nat}
    {vs : List Embedding} {j : Nat}
    (hj : j ∈ (positions.zip vs).map Prod.fst ∨ ∀ c ∈ chunks[j]?, c.embedding.isSome = true) :
    ∀ c ∈ (assignEmbeddings chunks positions vs)[j]?, c.embedding.isSome = true := by
  unfold assignEmbeddings
  generalize positions.zip vs = ps at hj ⊢
  induction ps generalizing chunks with
  | nil => exact hj.resolve_left List.not_mem_nil
  | cons p ps ih =>
    refine ih ?_
    rw [List.map_cons, List.mem_cons, or_assoc] at hj
    rcases hj with rfl | hj | hj
    · refine Or.inr fun c hc => ?_
      rw [getElem?_modify_embedding, if_pos rfl, Option.mem_map] at hc
      obtain ⟨c₀, _, rfl⟩ := hc
      rfl
    · exact Or.inl hj
    · refine Or.inr fun c hc => ?_
      rw [getElem?_modify_embedding] at hc
      split at hc
      · obtain ⟨c₀, _, rfl⟩ := Option.mem_map.mp hc
        rfl
      · exact hj c hc

/-- Where the chunks come from after an assignment. -/
theorem mem_assignEmbeddings {chunks : List Chunk} {positions : List Nat} {vs : List Embedding}
    {c : Chunk} (hc : c ∈ assignEmbeddings chunks positions vs) :
    ∃ c₀ ∈ chunks, c.bare = c₀.bare ∧ (c.embedding = c₀.embedding ∨
      ∃ i v, (i, v) ∈ positions.zip vs ∧ c.embedding = some v ∧
        (chunks[i]?).map Chunk.bare = some c₀.bare) := by
  unfold assignEmbeddings at hc
  generalize positions.zip vs = ps at hc ⊢
  induction ps generalizing chunks with
  | nil => exact ⟨c, hc, rfl, Or.inl rfl⟩
  | cons p ps ih =>
    obtain ⟨i, v⟩ := p
    rw [List.foldl_cons] at hc
    obtain ⟨c₁, hc₁, hbare₁, hemb⟩ := ih hc
    have hmap := map_bare_modify chunks i v
    obtain ⟨j, hj⟩ := List.mem_iff_getElem?.mp hc₁
    have hback : (chunks[j]?).map Chunk.bare = some c₁.bare := by
      rw [← List.getElem?_map, ← hmap, List.getElem?_map, hj]
      rfl
    obtain ⟨c₀, hc₀, hbare₀⟩ := Option.map_eq_some_iff.mp hback
    refine ⟨c₀, List.mem_iff_getElem?.mpr ⟨j, hc₀⟩, hbare₁.trans hbare₀.symm, ?_⟩
    rcases hemb with hemb | ⟨i', v', hmem, hv', hat⟩
    · rw [getElem?_modify_embedding, hc₀] at hj
      split at hj
      · rename_i hij
        subst hij
        obtain rfl := Option.some.inj hj
        exact Or.inr ⟨i, v, List.mem_cons_self .., hemb, by rw [hc₀]; rfl⟩
      · obtain rfl := Option.some.inj hj
        exact Or.inl hemb
    · refine Or.inr ⟨i', v', List.mem_cons_of_mem _ hmem, hv', ?_⟩
      rw [← List.getElem?_map, ← hmap, List.getElem?_map, hat, hbare₀]

namespace Solo

variable {K : Solo} {ctx ctx' : PipelineContext} {s s' : Collection}

/-! ## Embedding -/

/-- The provider may return `v` for the text. -/
def mayVector (K : Solo) (text : String) (v : Embedding) : Prop :=
  ∃ texts vs, K.ports.mayEmbed texts vs ∧ (text, v) ∈ texts.zip vs

/-- Every text gets an embedding. -/
def Full (K : Solo) : Prop := ∀ texts r, K.ok (.embed texts) r →
  ∃ vs, r = .ok vs ∧ (K.ports.mayEmbed texts vs → vs.length = texts.length)

/-- What the chunks to be stored have as embeddings comes from the
provider. -/
def Embedded (K : Solo) (ctx : PipelineContext) : Prop :=
  ∀ c ∈ ctx.chunks, ∀ v, c.embedding = some v →
    StoreStep.isUnchanged ctx c = true ∨ K.mayVector c.content v

/-- The chunk at a position, if there is one, has an embedding. -/
def HasEmbedding (ctx : PipelineContext) (i : Nat) : Prop :=
  ∀ c ∈ ctx.chunks[i]?, c.embedding.isSome = true

/-- A program that only reads leaves the collection as it is. -/
theorem leaves_of_readOnly {α : Type} {Q : α → Prop} {p : Ingest α}
    (h : p.Yields IngestCall.readOnly Q) (s : Collection) :
    K.Leaves p (fun a s' => Q a ∧ s' = s) s := by
  refine h.ensures (stable_none _) (fun s₁ c r s₂ hc hs hw => ⟨trivial, ?_⟩) rfl
  rw [portWorld_readOnly hc hw.1, hs]

/-- The context `ctx'` is `ctx` after the chunks at some positions were
embedded. -/
structure Embeds (K : Solo) (positions : Nat → Prop) (ctx ctx' : PipelineContext) : Prop where
  frame : EmbedFrame ctx ctx'
  embedded : K.Embedded ctx'
  kept : ∀ i, HasEmbedding ctx i → HasEmbedding ctx' i
  full : K.Full → ctx'.errors = ctx.errors ∧ ∀ i, positions i → HasEmbedding ctx' i

theorem Embeds.refl (positions : Nat → Prop) (h : K.Embedded ctx)
    (hall : ∀ i, positions i → HasEmbedding ctx i) : Embeds K positions ctx ctx :=
  ⟨EmbedFrame.refl ctx, h, fun _ => id, fun _ => ⟨rfl, hall⟩⟩

theorem Embeds.trans {positions positions' : Nat → Prop} {ctx₁ ctx₂ ctx₃ : PipelineContext}
    (h : Embeds K positions ctx₁ ctx₂) (h' : Embeds K positions' ctx₂ ctx₃) :
    Embeds K (fun i => positions i ∨ positions' i) ctx₁ ctx₃ where
  frame := h.frame.trans h'.frame
  embedded := h'.embedded
  kept := fun i hi => h'.kept i (h.kept i hi)
  full := fun hfull => by
    obtain ⟨herr, hpos⟩ := h.full hfull
    obtain ⟨herr', hpos'⟩ := h'.full hfull
    exact ⟨herr'.trans herr, fun i hi => hi.elim (fun hi => h'.kept i (hpos i hi)) (hpos' i)⟩

theorem content_of_bare {c c' : Chunk} (h : c.bare = c'.bare) :
    c.content = c'.content ∧ c.contentHash = c'.contentHash :=
  ⟨show c.bare.content = c'.bare.content by rw [h],
    show c.bare.contentHash = c'.bare.contentHash by rw [h]⟩

/-- The texts of some chunks, in order. -/
theorem filterMap_content {chunks : List Chunk} {positions : List Nat}
    (hrange : ∀ i ∈ positions, i < chunks.length) :
    positions.filterMap (fun i => (chunks[i]?).map Chunk.content)
      = positions.map (fun i => ((chunks[i]?).map Chunk.content).getD "") := by
  rw [← List.filterMap_eq_map]
  refine List.filterMap_congr fun i hi => ?_
  simp [List.getElem?_eq_getElem (hrange i hi)]

/-- One call to the provider. -/
theorem embedBatch_leaves {failure : Nat → String → String} {batch : List Nat × Nat}
    (hrange : ∀ i ∈ batch.1, i < ctx.chunks.length) (h : K.Embedded ctx) :
    K.Leaves (embedBatch failure ctx batch)
      (fun ctx' s' => s' = s ∧ Embeds K (· ∈ batch.1) ctx ctx') s := by
  have htexts := filterMap_content hrange
  rintro _ rfl r s₂ ⟨hw, hok⟩
  cases r with
  | error exc =>
    obtain rfl : s₂ = s := hw
    refine ⟨trivial, ensures_done (stable_none _) ⟨rfl, ?_⟩⟩
    refine ⟨⟨rfl, rfl, List.prefix_append ..⟩, h, fun _ => id, fun hfull => ?_⟩
    obtain ⟨vs, hvs, _⟩ := hfull _ _ hok
    cases hvs
  | ok vs =>
    obtain ⟨rfl, hvs⟩ : s₂ = s ∧ K.ports.mayEmbed _ vs := hw
    refine ⟨trivial, ensures_done (stable_none _) ⟨rfl, ?_⟩⟩
    refine ⟨⟨rfl, map_bare_assignEmbeddings .., List.prefix_rfl⟩, ?_, ?_, fun hfull => ?_⟩
    · intro c hc v hv
      obtain ⟨c₀, hc₀, hbare, hemb⟩ := mem_assignEmbeddings hc
      obtain ⟨hcontent, hhash⟩ := content_of_bare hbare
      rcases hemb with hemb | ⟨i, v', hiv, hv', hat⟩
      · have hold := h c₀ hc₀ v (hemb ▸ hv)
        rwa [StoreStep.isUnchanged, ← hhash, ← hcontent] at hold
      · obtain rfl : v = v' := Option.some.inj (hv.symm.trans hv')
        refine Or.inr ⟨_, vs, hvs, ?_⟩
        rw [htexts, List.zip_map_left]
        refine List.mem_map.mpr ⟨(i, v), hiv, ?_⟩
        obtain ⟨c₁, hc₁, hbare₁⟩ := Option.map_eq_some_iff.mp hat
        rw [hcontent, ← (content_of_bare hbare₁).1]
        simp [hc₁]
    · exact fun i hi => isSome_assignEmbeddings (Or.inr hi)
    · obtain ⟨vs', hvs', hlen⟩ := hfull _ _ hok
      obtain rfl := Except.ok.inj hvs'
      refine ⟨rfl, fun i hi => isSome_assignEmbeddings (Or.inl ?_)⟩
      rw [List.map_fst_zip]
      · exact hi
      · rw [hlen hvs, htexts, List.length_map]

/-- Embedding the chunks at some positions. -/
theorem embedMissing_leaves (batchSize : Nat) (hn : 0 < batchSize)
    (failure : Nat → String → String) {positions : List Nat}
    (h : K.Embedded ctx) :
    K.Leaves (embedMissing batchSize failure positions ctx)
      (fun ctx' s' => s' = s ∧ Embeds K (· ∈ positions) ctx ctx') s := by
  let missing := positions.filter (fun i => (ctx.chunks[i]?).any (fun c => c.embedding.isNone))
  have hmissing {i : Nat} (hi : i ∈ missing) : i < ctx.chunks.length := by
    have hany := (List.mem_filter.mp hi).2
    by_contra hlen
    rw [List.getElem?_eq_none (Nat.le_of_not_lt hlen)] at hany
    cases hany
  have hloop : K.Leaves (embedMissing batchSize failure positions ctx) (fun ctx' s' => s' = s ∧
      Embeds K (fun i => ∃ b ∈ (slices batchSize missing).zipIdx, i ∈ b.1) ctx ctx') s := by
    refine Ensures.foldlM (I := fun (pre : List (List Nat × Nat)) ctx' s' => s' = s ∧
      Embeds K (fun i => ∃ b ∈ pre, i ∈ b.1) ctx ctx') (fun _ _ => stable_none _) ?_
      ⟨rfl, .refl _ h fun i hi => absurd hi (by simp)⟩
    rintro pre batch post ctx' s' hsplit ⟨rfl, hs⟩
    have hzip : batch ∈ (slices batchSize missing).zipIdx :=
      hsplit ▸ List.mem_append_right pre (List.mem_cons_self ..)
    have hbatch : batch.1 ∈ slices batchSize missing := List.fst_mem_of_mem_zipIdx hzip
    have hlen : ctx'.chunks.length = ctx.chunks.length := by
      have hmap := congrArg List.length hs.frame.chunks
      rwa [List.length_map, List.length_map] at hmap
    refine (embedBatch_leaves (fun i hi => ?_) hs.embedded).mono ?_
    · rw [hlen]
      exact hmissing (mem_of_mem_slices hn hbatch hi)
    · rintro ctx'' s'' ⟨rfl, hs'⟩
      refine ⟨rfl, ⟨hs.frame.trans hs'.frame, hs'.embedded, fun i hi => hs'.kept i (hs.kept i hi),
        fun hfull => ?_⟩⟩
      obtain ⟨herr, hpos⟩ := (hs.trans hs').full hfull
      refine ⟨herr, fun i hi => hpos i ?_⟩
      obtain ⟨b, hb, hi⟩ := hi
      rcases List.mem_append.mp hb with hb | hb
      · exact Or.inl ⟨b, hb, hi⟩
      · exact Or.inr (List.mem_singleton.mp hb ▸ hi)
  refine hloop.mono ?_
  rintro ctx' s' ⟨rfl, hs⟩
  refine ⟨rfl, hs.frame, hs.embedded, hs.kept, fun hfull => ?_⟩
  obtain ⟨herr, hpos⟩ := hs.full hfull
  refine ⟨herr, fun i hi => ?_⟩
  by_cases hmem : i ∈ missing
  · rw [← flatten_slices hn missing] at hmem
    obtain ⟨b, hb, hib⟩ := List.mem_flatten.mp hmem
    obtain ⟨j, hj⟩ := List.mem_iff_getElem?.mp hb
    exact hpos i ⟨(b, j), List.mk_mem_zipIdx_iff_getElem?.mpr hj, hib⟩
  · refine hs.kept i fun c hc => ?_
    rw [Option.mem_def] at hc
    by_contra hnone
    refine hmem (List.mem_filter.mpr ⟨hi, ?_⟩)
    rw [hc]
    simpa using hnone

/-- `EmbedStep` embeds every chunk that has no embedding. -/
theorem embedStep_leaves (h : K.Embedded ctx) :
    K.Leaves (EmbedStep.execute 50 ctx)
      (fun ctx' s' => s' = s ∧ EmbedFrame ctx ctx' ∧ K.Embedded ctx' ∧
        (K.Full → ctx'.errors = ctx.errors ∧ ∀ c ∈ ctx'.chunks, c.embedding.isSome = true)) s := by
  refine (embedMissing_leaves 50 (by decide) _ h).mono ?_
  rintro ctx' s' ⟨rfl, hs⟩
  refine ⟨rfl, hs.frame, hs.embedded, fun hfull => ?_⟩
  obtain ⟨herr, hpos⟩ := hs.full hfull
  refine ⟨herr, fun c hc => ?_⟩
  obtain ⟨i, hi⟩ := List.mem_iff_getElem?.mp hc
  refine hpos i (List.mem_range.mpr ?_) c hi
  have hmap := congrArg List.length hs.frame.chunks
  rw [List.length_map, List.length_map] at hmap
  rw [← hmap]
  exact (List.getElem?_eq_some_iff.mp hi).1

/-! ## Storing -/

/-- Deduplication keeps the last entry of each id. -/
theorem lastOf_dedupe (es : List Entry) (k : String) :
    Collection.lastOf (StoreStep.dedupe es) k = Collection.lastOf es k := by
  induction es with
  | nil => rfl
  | cons e es ih =>
    unfold StoreStep.dedupe
    rw [Collection.lastOf_cons]
    split
    · rename_i hdup
      rw [ih]
      cases hlast : Collection.lastOf es k with
      | some x => rfl
      | none =>
        obtain ⟨x, hx, hid⟩ := List.mem_map.mp hdup
        rw [if_neg fun hk => Collection.lastOf_eq_none.mp hlast x hx (hid.trans hk)]
        rfl
    · rw [Collection.lastOf_cons, ih]

/-- The context `ctx'` and the collection `s'` after `written` was written
from `ctx` and `s`. -/
structure Stores (ctx : PipelineContext) (s : Collection) (written : List Entry)
    (ctx' : PipelineContext) (s' : Collection) : Prop where
  rest : ctx' = { ctx with chunksStored := ctx'.chunksStored, errors := ctx'.errors }
  errors : ctx'.errors = (StoreStep.reportMissing ctx).errors
  stored : ctx'.chunksStored = ctx.chunksStored + written.length
  lookup : ∀ k, s'.lookup k = (Collection.lastOf written k).or (s.lookup k)

/-- `StoreStep` writes everything storable. -/
theorem storeStep_leaves (ctx : PipelineContext) (s : Collection) :
    K.Leaves (StoreStep.execute 50 ctx) (Stores ctx s (StoreStep.storable ctx)) s := by
  have hall : (slices 50 (StoreStep.storable ctx)).zipIdx.flatMap Prod.fst
      = StoreStep.storable ctx := by
    rw [List.flatMap_def, List.zipIdx_map_fst]
    exact flatten_slices (by decide) _
  have hmissing : (StoreStep.reportMissing ctx).chunksStored = ctx.chunksStored := by
    unfold StoreStep.reportMissing
    dsimp only
    split <;> rfl
  have hloop : K.Leaves (StoreStep.execute 50 ctx)
      (Stores ctx s ((slices 50 (StoreStep.storable ctx)).zipIdx.flatMap Prod.fst)) s := by
    refine Ensures.foldlM
      (I := fun (pre : List (List Entry × Nat)) => Stores ctx s (pre.flatMap Prod.fst))
      (fun _ _ => stable_none _) ?_
      ⟨(reportMissing_frame ctx).rest, rfl, hmissing, fun _ => rfl⟩
    rintro pre batch post ctx' s' - h _ rfl r s₂ ⟨hw, hok⟩
    obtain rfl := K.store_ok (.ingest _) r hok
    obtain rfl : s₂ = s'.upsertAll _ := hw
    have hwritten : (pre ++ [batch]).flatMap Prod.fst = pre.flatMap Prod.fst ++ batch.1 := by
      rw [List.flatMap_append, List.flatMap_singleton]
    refine ⟨trivial, ensures_done (stable_none _) ⟨by rw [h.rest], h.errors, ?_, fun k => ?_⟩⟩
    · show ctx'.chunksStored + batch.1.length = _
      rw [h.stored, hwritten, List.length_append, Nat.add_assoc]
    · rw [Collection.lookup_upsertAll, lastOf_dedupe, h.lookup, hwritten,
        Collection.lastOf_append, Option.or_assoc]
  rwa [hall] at hloop

/-! ## Summaries -/

/-- Map-reduce over the texts may come out as `out`. -/
def Summarized (K : Solo) (m : MapReduce) (texts : List String)
    (out : Except String String) : Prop :=
  ∃ s t s', Runs K.world (m.summarize texts) s t out s'

theorem summarize_leaves (m : MapReduce) (texts : List String) (s : Collection) :
    K.Leaves (m.summarize texts) (fun out s' => s' = s ∧ K.Summarized m texts out ∧
      (2 ≤ m.reduceFanin → ∃ text, out = .ok text)) s := by
  have hframe := leaves_of_readOnly (K := K)
    ((m.summarize_frame texts).mono (fun _ h => h.callsModel.readOnly) fun _ => id) s
  refine (hframe.and (ensures_exists_run (W := K.world) (m.summarize texts) s)).mono ?_
  rintro out s' ⟨⟨hok, rfl⟩, t, ht⟩
  exact ⟨rfl, ⟨_, t, _, ht⟩, hok⟩

/-- The document gets a summary in this run. -/
def ToSummarize (K : Solo) (d : String) : Prop :=
  K.run.pipeline.summarizeEnabled = true ∧
    K.run.pipeline.chunkThreshold ≤ (K.chunksOf d).length ∧ K.Changed d

/-- The text is a summary of the document, generated from its passages. -/
def SummaryOf (K : Solo) (d text : String) : Prop :=
  K.Summarized K.run.pipeline.documentSummaryStep.mapReduce
    ((K.chunksOf d).map Chunk.content) (.ok text)

/-- What the summary step decides for a document: a summary that is not blank,
or none because the models returned a blank one. -/
def Told (K : Solo) (d : String) : Option String → Prop
  | some text => K.SummaryOf d text ∧ isBlank text = false
  | none => ∃ text, K.SummaryOf d text ∧ isBlank text = true

/-- The chunk of the summary of a document. -/
def summaryFor (K : Solo) (sums : OrderedDict String String) (d : String) : Option Chunk :=
  (sums.get? d).bind fun text => (K.chunksOf d).head?.map fun first =>
    DocumentSummaryStep.summaryChunk d text first.metadata

/-- The result of one document, with what it decides. -/
def Answers (K : Solo) (d : String) (result : DocumentSummaryStep.SummaryResult) : Prop :=
  result.docId = d ∧ ((∃ text first, K.Told d (some text) ∧ (K.chunksOf d).head? = some first ∧
      result.outcome = .ok (DocumentSummaryStep.summaryChunk d text first.metadata)) ∨
    (K.Told d none ∧ ∃ exc, result.outcome = .error exc))

section Summary

variable {batch : List Document} (hbatch : batch.Sublist K.run.documents)

include hbatch

/-- The summary step sees the passages of the document. -/
theorem map_bare_docChunks (hchunks : ctx.chunks.map Chunk.bare = K.passagesOf batch) {d : String}
    (hd : d ∈ K.docIdsOf batch) :
    (DocumentSummaryStep.docChunks ctx d).map Chunk.bare = K.chunksOf d := by
  rw [← chunksOf_eq hbatch hd, ← hchunks, List.filter_map]
  rfl

theorem summarizeOne_leaves (hchunks : ctx.chunks.map Chunk.bare = K.passagesOf batch) {d : String}
    (hd : d ∈ K.docIdsOf batch) (s : Collection) :
    K.Leaves (K.run.pipeline.documentSummaryStep.summarizeOne ctx d)
      (fun result s' => K.Answers d result ∧ s' = s) s := by
  have hbare := map_bare_docChunks hbatch hchunks hd
  have htexts : (DocumentSummaryStep.docChunks ctx d).map Chunk.content
      = (K.chunksOf d).map Chunk.content := by
    rw [← hbare, List.map_map]
    rfl
  obtain ⟨c, hc, hcd⟩ := hd
  have hne : DocumentSummaryStep.docChunks ctx d ≠ [] := by
    rw [← hchunks] at hc
    obtain ⟨c₀, hc₀, rfl⟩ := List.mem_map.mp hc
    exact List.ne_nil_of_mem (List.mem_filter.mpr ⟨hc₀, decide_eq_true hcd⟩)
  refine (summarize_leaves _ _ s).bind ?_
  rintro out s' ⟨rfl, hsum, hok⟩
  obtain ⟨text, rfl⟩ := hok (show 2 ≤ 10 by decide)
  rw [htexts] at hsum
  dsimp only
  split
  · rename_i hblank
    exact ensures_done (stable_none _) ⟨⟨rfl, Or.inr ⟨⟨text, hsum, hblank⟩, _, rfl⟩⟩, rfl⟩
  · rename_i hblank
    cases hchunksOf : DocumentSummaryStep.docChunks ctx d with
    | nil => exact absurd hchunksOf hne
    | cons first rest =>
      have hhead : (K.chunksOf d).head? = some first.bare := by
        rw [← hbare, hchunksOf]
        rfl
      exact ensures_done (stable_none _) ⟨⟨rfl, Or.inl ⟨text, first.bare,
        ⟨hsum, Bool.not_eq_true _ ▸ hblank⟩, hhead, rfl⟩⟩, rfl⟩

end Summary

/-- The context `ctx'` is `ctx` after the results for the documents `ds` were
applied. -/
structure Applied (K : Solo) (ds : List String) (ctx ctx' : PipelineContext) : Prop where
  rest : ctx' = { ctx with
    chunks := ctx'.chunks, documentSummaries := ctx'.documentSummaries, errors := ctx'.errors }
  others : ∀ d, d ∉ ds → ctx'.documentSummaries.get? d = ctx.documentSummaries.get? d
  told : ∀ d ∈ ds, K.Told d (ctx'.documentSummaries.get? d)
  chunks : ctx'.chunks = ctx.chunks ++ ds.filterMap (K.summaryFor ctx'.documentSummaries)
  grows : ctx.errors <+: ctx'.errors
  failed : ∀ d ∈ ds, ctx'.documentSummaries.get? d = none → ctx'.errors ≠ []
  fine : (∀ d ∈ ds, (ctx'.documentSummaries.get? d).isSome = true) → ctx'.errors = ctx.errors

/-- A summary for the first document. -/
theorem Applied.cons_ok {d text : String} {ds : List String} {first : Chunk} (hd : d ∉ ds)
    (htold : K.Told d (some text)) (hhead : (K.chunksOf d).head? = some first)
    (h : Applied K ds { ctx with
      documentSummaries := ctx.documentSummaries.set d text
      chunks := ctx.chunks ++ [DocumentSummaryStep.summaryChunk d text first.metadata] } ctx') :
    Applied K (d :: ds) ctx ctx' := by
  have hget : ctx'.documentSummaries.get? d = some text :=
    (h.others d hd).trans (by rw [OrderedDict.get?_set, if_pos rfl])
  have hfor : K.summaryFor ctx'.documentSummaries d
      = some (DocumentSummaryStep.summaryChunk d text first.metadata) := by
    rw [summaryFor, hget, hhead]
    rfl
  refine ⟨h.rest, fun d' hd' => ?_, ?_, ?_, h.grows, ?_, fun hall => ?_⟩
  · rw [List.mem_cons, not_or] at hd'
    rw [h.others d' hd'.2, OrderedDict.get?_set, if_neg hd'.1]
  · exact List.forall_mem_cons.mpr ⟨hget ▸ htold, h.told⟩
  · rw [h.chunks, List.filterMap_cons_some hfor, List.append_assoc]
    rfl
  · refine List.forall_mem_cons.mpr ⟨fun hnone => ?_, h.failed⟩
    rw [hget] at hnone
    cases hnone
  · exact h.fine fun d' hd' => hall d' (List.mem_cons_of_mem _ hd')

/-- No summary for the first document. -/
theorem Applied.cons_error {d exc : String} {ds : List String} (hd : d ∉ ds)
    (hnone : ctx.documentSummaries.get? d = none) (htold : K.Told d none)
    (h : Applied K ds (ctx.addError exc) ctx') : Applied K (d :: ds) ctx ctx' := by
  have hget : ctx'.documentSummaries.get? d = none := (h.others d hd).trans hnone
  have hfor : K.summaryFor ctx'.documentSummaries d = none := by
    rw [summaryFor, hget]
    rfl
  refine ⟨h.rest, fun d' hd' => ?_, ?_, ?_, (List.prefix_append ..).trans h.grows, ?_,
    fun hall => ?_⟩
  · rw [List.mem_cons, not_or] at hd'
    exact h.others d' hd'.2
  · exact List.forall_mem_cons.mpr ⟨hget ▸ htold, h.told⟩
  · rw [h.chunks, List.filterMap_cons_none hfor]
    rfl
  · refine List.forall_mem_cons.mpr ⟨fun _ herr => ?_, h.failed⟩
    have hnil := List.prefix_nil.mp (herr ▸ h.grows)
    exact List.append_ne_nil_of_right_ne_nil _ (List.cons_ne_nil _ _) hnil
  · have hsome := hall d (List.mem_cons_self ..)
    rw [hget] at hsome
    cases hsome

theorem foldl_applyResult {ds : List String} {results : List DocumentSummaryStep.SummaryResult}
    (hres : List.Forall₂ K.Answers ds results) (hnodup : ds.Nodup)
    (hnone : ∀ d ∈ ds, ctx.documentSummaries.get? d = none)
    (targets : List (String × List Nat)) :
    Applied K ds ctx (results.foldl DocumentSummaryStep.applyResult (ctx, targets)).1 := by
  induction hres generalizing ctx targets with
  | nil =>
    exact ⟨rfl, fun _ _ => rfl, by simp, by simp, List.prefix_rfl, by simp, fun _ => rfl⟩
  | @cons d result ds results hanswer _ ih =>
    obtain ⟨hd, hnodup'⟩ := List.nodup_cons.mp hnodup
    obtain ⟨hnone_d, hnone'⟩ := List.forall_mem_cons.mp hnone
    obtain ⟨rfl, hcase⟩ := hanswer
    rw [List.foldl_cons]
    rcases hcase with ⟨text, first, htold, hhead, hout⟩ | ⟨htold, exc, hout⟩
    · rw [DocumentSummaryStep.applyResult_ok hout]
      refine .cons_ok hd htold hhead (ih hnodup' (fun d' hd' => ?_) _)
      have hne : d' ≠ result.docId := fun heq => hd (heq ▸ hd')
      show (ctx.documentSummaries.set _ _).get? d' = none
      rw [OrderedDict.get?_set, if_neg hne]
      exact hnone' d' hd'
    · rw [DocumentSummaryStep.applyResult_error hout]
      exact .cons_error hd hnone_d htold (@ih (ctx.addError exc) hnodup' hnone' _)

end Solo

end VirtualContributor.Pipeline
