import VirtualContributor.Pipeline.Sync

/-!
# What one batch establishes

`Progress` is the invariant of a run.  It relates the context of a batch, or
the merged context, to the collection of the moment, and other parties may
change the collection as `Setting.others` allows.

The two fields `covered` and `done` are what the cleanup will rest on: a
content entry is the run's own, or listed for deletion, or somebody else's.
They hold as long as no error was recorded, and so does `found`, which says
that nothing the run skipped is missing.  The fields `safe` and `hit` follow
the summaries: a summary becomes an orphan only when a document goes by its
document id, and then it does.

This module has the invariant and detection.
-/

namespace VirtualContributor.Pipeline

open Lib Program

/-- The document `x` of the run reaches the threshold, so it keeps its
summary.  The document whose summary would share the entry of the overview is
left out. -/
def IngestRun.Large (host : Host) (r : IngestRun) (x : String) : Prop :=
  summaryEntryId x ≠ bokEntryId ∧ ∃ doc ∈ r.documents, doc.id = x ∧
    r.pipeline.chunkThreshold ≤ (contentChunks host r.pipeline.chunkStep doc).length

namespace Setting

variable (K : Setting)

/-! ## The invariant -/

/-- The passages of some of the run's documents. -/
def passagesOf (docs : List Document) : List Chunk :=
  docs.flatMap (contentChunks K.host K.run.pipeline.chunkStep)

/-- The documents with a passage among those of `done`. -/
def docIdsOf (done : List Document) : Set String :=
  {d | ∃ c ∈ K.passagesOf done, c.docId = d}

/-- The large documents of the run. -/
abbrev Large (x : String) : Prop := K.run.Large K.host x

/-- An id that the run may delete: no fingerprint of its own, and no summary
that it keeps. -/
def Harmless (k : String) : Prop := k ∉ K.fingerprints ∧ ∀ x, K.Large x → k ≠ summaryEntryId x

/-- The invariant of a run.  `start` are ids found at the beginning, `listed`
says that the collection was listed, and `docs` are the documents compared so
far. -/
structure Progress (start : Set String) (listed : Prop) (docs : Set String)
    (ctx : PipelineContext) (s : Collection) : Prop where
  wf : WellFormed K.host K.runs s
  visible : ∀ k ∈ entryIds s, ∀ d, K.Owner k d → d ∈ K.visible ∨ d ∈ K.run.ids
  persists : ∀ k ∈ start, k ∈ K.kept → k ∈ entryIds s
  orphans : ∀ k ∈ ctx.orphanIds, k ∉ K.fingerprints
  safe : ∀ x, K.Large x → summaryEntryId x ∈ ctx.orphanIds →
    summaryDocumentId x ∈ K.docIdsOf K.run.documents
  removed : ∀ d ∈ ctx.removedDocumentIds, K.Removable d
  covered : ctx.errors = [] → listed → ∀ k ∈ entryIds s, ∀ d, K.Owner k d →
    d ∈ K.run.ids ∨ d = "" ∨ d ∈ ctx.removedDocumentIds ∨ k ∈ K.foreign
  done : ctx.errors = [] → ∀ k ∈ entryIds s, ∀ d ∈ docs, K.Owner k d →
    k ∈ K.fingerprints ∨ k ∈ ctx.orphanIds ∨ k ∈ K.foreign
  found : ctx.errors = [] → ∀ k ∈ ctx.unchangedChunkHashes, k ∈ K.kept → k ∈ entryIds s
  hit : ctx.errors = [] → ∀ x, summaryEntryId x ∈ start → summaryEntryId x ∈ K.kept →
    summaryDocumentId x ∈ docs → summaryEntryId x ∈ ctx.orphanIds

variable {K} {start : Set String} {listed : Prop} {docs : Set String} {ctx ctx' : PipelineContext}
  {s s' : Collection}

/-- The invariant survives a step that adds ids of the run or of the others
only and deletes nothing that is kept. -/
theorem Progress.sync (h : K.Progress start listed docs ctx s)
    (hstep : (Pipeline.sync K.host K.runs (K.foreign ∪ K.written) K.kept).step s s') :
    K.Progress start listed docs ctx s' := by
  obtain ⟨hwf, hadd, hkeep⟩ := hstep h.wf
  refine ⟨hwf, ?_, ?_, h.orphans, h.safe, h.removed, ?_, ?_, ?_, h.hit⟩
  · intro k hk d hd
    rcases hadd k hk with hk | hk | hk
    · exact h.visible k hk d hd
    · exact K.foreign_owner k hk d hd
    · exact Or.inr (owner_mem_ids (mem_fingerprints_of_written hk hd) hd)
  · exact fun k hk hkept => hkeep k (h.persists k hk hkept) hkept
  · intro herr hlisted k hk d hd
    rcases hadd k hk with hk | hk | hk
    · exact h.covered herr hlisted k hk d hd
    · exact Or.inr (Or.inr (Or.inr hk))
    · exact Or.inl (owner_mem_ids (mem_fingerprints_of_written hk hd) hd)
  · intro herr k hk d hd howner
    rcases hadd k hk with hk | hk | hk
    · exact h.done herr k hk d hd howner
    · exact Or.inr (Or.inr hk)
    · exact Or.inl (mem_fingerprints_of_written hk howner)
  · exact fun herr k hk hkept => hkeep k (h.found herr k hk hkept) hkept

/-- The context `ctx'` is `ctx` with errors recorded and harmless orphans
added; the other fields of the invariant are the same. -/
structure Extends (K : Setting) (ctx ctx' : PipelineContext) : Prop where
  errors : ctx.errors <+: ctx'.errors
  removed : ctx'.removedDocumentIds = ctx.removedDocumentIds
  unchanged : ctx'.unchangedChunkHashes = ctx.unchangedChunkHashes
  orphans : ∀ k ∈ ctx.orphanIds, k ∈ ctx'.orphanIds
  added : ∀ k ∈ ctx'.orphanIds, k ∈ ctx.orphanIds ∨ K.Harmless k

theorem Extends.of_eq (herr : ctx.errors <+: ctx'.errors)
    (hrem : ctx'.removedDocumentIds = ctx.removedDocumentIds)
    (hunch : ctx'.unchangedChunkHashes = ctx.unchangedChunkHashes)
    (horph : ctx'.orphanIds = ctx.orphanIds) : K.Extends ctx ctx' :=
  ⟨herr, hrem, hunch, fun _ => horph ▸ id, fun _ hk => Or.inl (horph ▸ hk)⟩

theorem Extends.refl (K : Setting) (ctx : PipelineContext) : K.Extends ctx ctx :=
  .of_eq List.prefix_rfl rfl rfl rfl

theorem Extends.trans {ctx₁ ctx₂ ctx₃ : PipelineContext} (h : K.Extends ctx₁ ctx₂)
    (h' : K.Extends ctx₂ ctx₃) : K.Extends ctx₁ ctx₃ where
  errors := h.errors.trans h'.errors
  removed := h'.removed.trans h.removed
  unchanged := h'.unchanged.trans h.unchanged
  orphans := fun k hk => h'.orphans k (h.orphans k hk)
  added := by
    intro k hk
    rcases h'.added k hk with hk | hk
    · exact h.added k hk
    · exact Or.inr hk

theorem EmbedFrame.extends (h : EmbedFrame ctx ctx') : K.Extends ctx ctx' :=
  .of_eq h.errors (by rw [h.rest]) (by rw [h.rest]) (by rw [h.rest])

theorem StoreFrame.extends (h : StoreFrame ctx ctx') : K.Extends ctx ctx' :=
  .of_eq h.errors (by rw [h.rest]) (by rw [h.rest]) (by rw [h.rest])

theorem BokFrame.extends (h : BokFrame ctx ctx') : K.Extends ctx ctx' := by
  have hrem : ctx'.removedDocumentIds = ctx.removedDocumentIds := by rw [h.rest]
  have hunch : ctx'.unchangedChunkHashes = ctx.unchangedChunkHashes := by rw [h.rest]
  rcases h.orphans with horph | ⟨_, horph⟩
  · exact .of_eq h.errors hrem hunch horph
  · refine ⟨h.errors, hrem, hunch, fun k hk => ?_, fun k hk => ?_⟩
    · rw [horph]
      exact OrderedSet.mem_insert.mpr (Or.inl hk)
    · rw [horph, OrderedSet.mem_insert] at hk
      refine hk.imp_right ?_
      rintro rfl
      refine ⟨?_, fun x hx => Ne.symm hx.1⟩
      rintro ⟨c, _, hc⟩
      exact sha256_ne_bokEntryId K.host _ hc

/-- The invariant survives what a step does to the context. -/
theorem Progress.context (h : K.Progress start listed docs ctx s) (he : K.Extends ctx ctx') :
    K.Progress start listed docs ctx' s := by
  have hnil (h' : ctx'.errors = []) : ctx.errors = [] := List.prefix_nil.mp (h' ▸ he.errors)
  refine ⟨h.wf, h.visible, h.persists, ?_, ?_, he.removed ▸ h.removed, ?_, ?_, ?_, ?_⟩
  · intro k hk
    rcases he.added k hk with hk | hk
    · exact h.orphans k hk
    · exact hk.1
  · intro x hx hk
    rcases he.added _ hk with hk | hk
    · exact h.safe x hx hk
    · exact absurd rfl (hk.2 x hx)
  · intro herr' hlisted
    rw [he.removed]
    exact h.covered (hnil herr') hlisted
  · intro herr' k hk d hd howner
    rcases h.done (hnil herr') k hk d hd howner with hk | hk | hk
    · exact Or.inl hk
    · exact Or.inr (Or.inl (he.orphans k hk))
    · exact Or.inr (Or.inr hk)
  · intro herr'
    rw [he.unchanged]
    exact h.found (hnil herr')
  · exact fun herr' x hx hkept hd => he.orphans _ (h.hit (hnil herr') x hx hkept hd)

theorem Progress.stable : K.others.Stable (K.Progress start listed docs ctx) :=
  fun _ _ hstep h => h.sync (sync_mono (fun _ => Or.inl) (fun _ => id) hstep)

theorem Progress.write : K.wrote.Stable (K.Progress start listed docs ctx) :=
  fun _ _ hstep h => h.sync (sync_mono (fun _ => Or.inr) (fun _ _ => trivial) hstep)

/-- What neither the others nor a write of the run can break holds after a
program that deletes nothing. -/
theorem ensures_of_writes {α : Type} {Q : α → Prop} {φ : Collection → Prop} {p : Ingest α}
    (hp : p.Yields (WritesFor K.host K.run) Q) (hothers : K.others.Stable φ)
    (hwrote : K.wrote.Stable φ) {s : Collection} (h : φ s) :
    p.Ensures (portWorld K.ports) K.others K.guarantee (fun a s => Q a ∧ φ s) s := by
  refine hp.ensures hothers (fun s c r s' hc hs hw => ?_) h
  have hstep := wrote_of_writesFor hc hw
  exact ⟨own_of_wrote K hstep, hwrote hstep hs⟩

/-! ## The passages of a batch -/

section Batch

variable {batch : List Document}

theorem mem_passagesOf {c : Chunk} (hbatch : ∀ doc ∈ batch, doc ∈ K.run.documents)
    (hc : c ∈ K.passagesOf batch) : c ∈ K.passages := by
  obtain ⟨doc, hdoc, hc⟩ := List.mem_flatMap.mp hc
  exact IngestRun.mem_passages.mpr ⟨doc, hbatch doc hdoc, hc⟩

/-- The passages of a document are all in one batch. -/
theorem mem_passagesOf_of_docId (hbatch : ∀ doc ∈ batch, doc ∈ K.run.documents) {c c' : Chunk}
    (hc : c ∈ K.passages) (hc' : c' ∈ K.passagesOf batch) (h : c'.docId = c.docId) :
    c ∈ K.passagesOf batch := by
  obtain ⟨doc, hdoc, hcd⟩ := IngestRun.mem_passages.mp hc
  obtain ⟨doc', hdoc', hcd'⟩ := List.mem_flatMap.mp hc'
  have hid : doc'.id = doc.id := by
    rw [← (contentChunks_spec hcd).1, ← (contentChunks_spec hcd').1, h]
  have hsame : doc' = doc := List.inj_on_of_nodup_map K.nodup_ids (hbatch doc' hdoc') hdoc hid
  exact List.mem_flatMap.mpr ⟨doc, hsame ▸ hdoc', hcd⟩

variable (hbatch : ∀ doc ∈ batch, doc ∈ K.run.documents)
  (hchunks : ctx.chunks.map Chunk.bare = K.passagesOf batch)

include hbatch hchunks

/-- The chunks of a batch that are still all there, up to embeddings. -/
theorem passage_of_mem_chunks {c : Chunk} (hc : c ∈ ctx.chunks) :
    c.bare ∈ K.passagesOf batch ∧ c.isContent = true ∧ c.contentHash = some (K.key c.bare) := by
  have hmem : c.bare ∈ K.passagesOf batch := hchunks ▸ List.mem_map_of_mem hc
  obtain ⟨_, hcontent, hhash, _⟩ := IngestRun.passage_spec (mem_passagesOf hbatch hmem)
  exact ⟨hmem, hcontent, hhash⟩

theorem mem_currentDocIds {d : String} :
    d ∈ ChangeDetectionStep.currentDocIds ctx.chunks ↔
      ∃ c ∈ K.passagesOf batch, c.docId = d := by
  rw [ChangeDetectionStep.currentDocIds, OrderedSet.mem_ofList, List.mem_map]
  constructor
  · rintro ⟨c, hc, rfl⟩
    exact ⟨c.bare, (passage_of_mem_chunks hbatch hchunks (List.mem_of_mem_filter hc)).1, rfl⟩
  · rintro ⟨c, hc, rfl⟩
    rw [← hchunks] at hc
    obtain ⟨c₀, hc₀, rfl⟩ := List.mem_map.mp hc
    exact ⟨c₀, List.mem_filter.mpr ⟨hc₀, (passage_of_mem_chunks hbatch hchunks hc₀).2.1⟩, rfl⟩

/-- The hashes that detection compares for one document. -/
theorem mem_hashes {d k : String} :
    k ∈ (ChangeDetectionStep.docChunks ctx.chunks d).filterMap Chunk.contentHash ↔
      ∃ c ∈ K.passagesOf batch, c.docId = d ∧ K.key c = k := by
  rw [List.mem_filterMap]
  constructor
  · rintro ⟨c, hc, hk⟩
    obtain ⟨hc, hd⟩ := List.mem_filter.mp hc
    obtain ⟨hmem, _, hhash⟩ := passage_of_mem_chunks hbatch hchunks hc
    rw [hhash] at hk
    rw [Bool.and_eq_true, decide_eq_true_iff] at hd
    exact ⟨c.bare, hmem, hd.2, Option.some.inj hk⟩
  · rintro ⟨c, hc, rfl, rfl⟩
    rw [← hchunks] at hc
    obtain ⟨c₀, hc₀, rfl⟩ := List.mem_map.mp hc
    obtain ⟨_, hcontent, hhash⟩ := passage_of_mem_chunks hbatch hchunks hc₀
    refine ⟨c₀, List.mem_filter.mpr ⟨hc₀, ?_⟩, hhash⟩
    rw [hcontent, Bool.true_and, decide_eq_true_iff]
    rfl

/-! ## Detection -/

/-- Comparing one document, against a listing of what the collection holds of
it. -/
theorem Progress.compareDoc {d : String} {existing : GetResult}
    (hd : ∃ c ∈ K.passagesOf batch, c.docId = d)
    (hlists : existing.ids = (s.select (some d)).map Entry.id)
    (h : K.Progress start listed docs ctx s) :
    K.Progress start listed (insert d docs) (ChangeDetectionStep.compareDoc ctx d existing) s := by
  have hmem {k : String} : k ∈ existing.ids ↔ ∃ e ∈ s, e.docId = some d ∧ e.id = k := by
    rw [hlists, List.mem_map]
    simp only [Collection.mem_select_some, and_assoc]
  refine ⟨h.wf, h.visible, h.persists, ?_, ?_, h.removed, h.covered, ?_, ?_, ?_⟩
  · intro k hk
    rcases OrderedSet.mem_union.mp hk with hk | hk
    · exact h.orphans k hk
    · obtain ⟨hin, hout⟩ := OrderedSet.mem_diff.mp hk
      rw [OrderedSet.mem_ofList] at hin hout
      rintro ⟨c, hc, rfl⟩
      obtain ⟨e, he, hdoc, hid⟩ := hmem.mp hin
      -- an entry under the run's own fingerprint belongs to the same document
      have hsame : e.docId = some c.docId :=
        docId_of_belongs h.wf he (Or.inl (hid ▸ owner_of_passage hc))
      rw [hdoc, Option.some.injEq] at hsame
      obtain ⟨c', hc', hdc'⟩ := hd
      have hcb := mem_passagesOf_of_docId hbatch hc hc' (hdc'.trans hsame)
      exact hout ((mem_hashes hbatch hchunks).mpr ⟨c, hcb, hsame.symm, rfl⟩)
  · intro x hx hk
    rcases OrderedSet.mem_union.mp hk with hk | hk
    · exact h.safe x hx hk
    · obtain ⟨e, he, hdoc, hid⟩ := hmem.mp (OrderedSet.mem_ofList.mp (OrderedSet.mem_diff.mp hk).1)
      have hsame : e.docId = some (summaryDocumentId x) :=
        docId_of_belongs h.wf he (Or.inr ⟨x, hid, rfl⟩)
      rw [hdoc, Option.some.injEq] at hsame
      obtain ⟨c, hc, hcd⟩ := hd
      obtain ⟨doc, hdoc, hc⟩ := List.mem_flatMap.mp hc
      exact ⟨c, List.mem_flatMap.mpr ⟨doc, hbatch doc hdoc, hc⟩, hcd.trans hsame⟩
  · intro herr k hk d' hd' howner
    rcases Set.mem_insert_iff.mp hd' with rfl | hd'
    · by_cases hhash : k ∈ (ChangeDetectionStep.docChunks ctx.chunks d').filterMap Chunk.contentHash
      · obtain ⟨c, hc, _, rfl⟩ := (mem_hashes hbatch hchunks).mp hhash
        exact Or.inl (mem_fingerprints (mem_passagesOf hbatch hc))
      · have hin : k ∈ existing.ids := hmem.mpr ((mem_entryIds_iff h.wf (Or.inl howner)).mp hk)
        refine Or.inr (Or.inl (OrderedSet.mem_union.mpr (Or.inr ?_)))
        exact OrderedSet.mem_diff.mpr
          ⟨OrderedSet.mem_ofList.mpr hin, fun hk' => hhash (OrderedSet.mem_ofList.mp hk')⟩
    · rcases h.done herr k hk d' hd' howner with hk | hk | hk
      · exact Or.inl hk
      · exact Or.inr (Or.inl (OrderedSet.mem_union.mpr (Or.inl hk)))
      · exact Or.inr (Or.inr hk)
  · intro herr k hk hkept
    rcases OrderedSet.mem_insertAll.mp hk with hk | hk
    · exact h.found herr k hk hkept
    · obtain ⟨hhash, hin⟩ := List.mem_filter.mp hk
      obtain ⟨c, hc, _, rfl⟩ := (mem_hashes hbatch hchunks).mp hhash
      obtain ⟨e, he, _, hid⟩ := hmem.mp (by simpa using hin)
      exact ⟨e, he, hid⟩
  · intro herr x hx hkept hd'
    rcases Set.mem_insert_iff.mp hd' with rfl | hd'
    · have hin : summaryEntryId x ∈ existing.ids := hmem.mpr
        ((mem_entryIds_iff h.wf (Or.inr ⟨x, rfl, rfl⟩)).mp (h.persists _ hx hkept))
      refine OrderedSet.mem_union.mpr (Or.inr (OrderedSet.mem_diff.mpr
        ⟨OrderedSet.mem_ofList.mpr hin, fun hk => ?_⟩))
      obtain ⟨c, _, _, hc⟩ := (mem_hashes hbatch hchunks).mp (OrderedSet.mem_ofList.mp hk)
      exact sha256_ne_summaryEntryId K.host _ x hc
    · exact OrderedSet.mem_union.mpr (Or.inl (h.hit herr x hx hkept hd'))

omit hbatch hchunks

/-- A read at the moment of its call. -/
theorem ensures_storeGet {α : Type} {d : Option String} {b : Bool}
    {f : Except String GetResult → Ingest α} {Q : α → Collection → Prop}
    (h : K.Progress start listed docs ctx s)
    (hok : ∀ g s, g.Lists (s.select d) → K.Progress start listed docs ctx s →
      (f (.ok g)).Ensures (portWorld K.ports) K.others K.guarantee Q s)
    (herr : ∀ exc s, K.Progress start listed docs ctx s →
      (f (.error exc)).Ensures (portWorld K.ports) K.others K.guarantee Q s) :
    ((storeGet d b).bind f).Ensures (portWorld K.ports) K.others K.guarantee Q s := by
  refine ensures_call Progress.stable h fun s₁ r s₂ h₁ hw => ?_
  have hstep : K.wrote.step s₁ s₂ := wrote_of_readOnly (c := .get d b) trivial hw
  refine ⟨own_of_wrote K hstep, ?_⟩
  cases r with
  | ok g =>
    obtain ⟨rfl, hlists, _⟩ := hw
    exact hok g s₂ hlists h₁
  | error exc => exact herr exc s₂ (Progress.write hstep h₁)

theorem mem_existingDocIds {listing : GetResult} {d : String}
    (hlists : listing.Lists (s.select none)) (hs : WellFormed K.host K.runs s) :
    d ∈ ChangeDetectionStep.existingDocIds listing ↔
      d ≠ "" ∧ ∃ k ∈ entryIds s, K.Owner k d := by
  rw [hs.mem_existingDocIds hlists]
  refine and_congr_right fun _ => ⟨?_, ?_⟩
  · rintro ⟨e, he, hcontent, hd⟩
    obtain ⟨d', hdoc, howner⟩ := owner_of_mem (K := K) hs he hcontent
    obtain rfl : d' = d := Option.some.inj (hdoc.symm.trans hd)
    exact ⟨e.id, ⟨e, he, rfl⟩, howner⟩
  · rintro ⟨k, ⟨e, he, rfl⟩, howner⟩
    have hcontent := isContent_of_owner hs he howner
    exact ⟨e, he, hcontent, docId_of_owner hs he hcontent howner⟩

/-- The listing at the beginning of detection. -/
theorem Progress.listing {listing : GetResult} (hdocs : K.run.documents ≠ [])
    (hall : ctx.allDocumentIds = OrderedSet.ofList K.run.ids)
    (hlists : listing.Lists (s.select none)) (h : K.Progress start listed docs ctx s) :
    K.Progress start True docs { ctx with
      removedDocumentIds := (ChangeDetectionStep.existingDocIds listing).diff
        (ChangeDetectionStep.knownDocIds ctx) } s := by
  have hknown {d : String} : d ∈ ChangeDetectionStep.knownDocIds ctx ↔ d ∈ K.run.ids := by
    have hne : (OrderedSet.ofList K.run.ids).isEmpty = false := by
      rw [← Bool.not_eq_true, OrderedSet.isEmpty_iff]
      intro hempty
      obtain ⟨doc, hdoc⟩ := List.exists_mem_of_ne_nil _ hdocs
      exact hempty doc.id (OrderedSet.mem_ofList.mpr (List.mem_map_of_mem hdoc))
    rw [ChangeDetectionStep.knownDocIds, hall, hne]
    exact OrderedSet.mem_ofList
  have hrem {d : String} : d ∈ (ChangeDetectionStep.existingDocIds listing).diff
      (ChangeDetectionStep.knownDocIds ctx) ↔
        (d ≠ "" ∧ ∃ k ∈ entryIds s, K.Owner k d) ∧ d ∉ K.run.ids := by
    rw [OrderedSet.mem_diff, mem_existingDocIds hlists h.wf, hknown]
  refine ⟨h.wf, h.visible, h.persists, h.orphans, h.safe, ?_, ?_, h.done, h.found, h.hit⟩
  · intro d hd
    obtain ⟨⟨hne, k, hk, howner⟩, hnot⟩ := hrem.mp hd
    exact ⟨(h.visible k hk d howner).resolve_right hnot, hnot, hne⟩
  · intro _ _ k hk d howner
    by_cases hid : d ∈ K.run.ids
    · exact Or.inl hid
    · by_cases hne : d = ""
      · exact Or.inr (Or.inl hne)
      · exact Or.inr (Or.inr (Or.inl (hrem.mpr ⟨⟨hne, k, hk, howner⟩, hid⟩)))

/-- What detection leaves when a read failed: an error, and nothing to delete
or to skip. -/
theorem Progress.fallback {exc : String} (h : K.Progress start listed docs ctx s)
    (listed' : Prop) (docs' : Set String) :
    K.Progress start listed' docs' (ChangeDetectionStep.fallback ctx exc) s := by
  have herr : (ChangeDetectionStep.fallback ctx exc).errors ≠ [] :=
    List.append_ne_nil_of_right_ne_nil _ (List.cons_ne_nil _ _)
  exact ⟨h.wf, h.visible, h.persists, fun k hk => absurd hk (OrderedSet.not_mem_empty k),
    fun x _ hk => absurd hk (OrderedSet.not_mem_empty _),
    fun d hd => absurd hd (OrderedSet.not_mem_empty d), fun h' => absurd h' herr,
    fun h' => absurd h' herr, fun h' => absurd h' herr, fun h' => absurd h' herr⟩

include hbatch

/-- The loop over the documents of a batch. -/
theorem detectDocs_ensures {docIds : List String}
    (hdocIds : ∀ d ∈ docIds, ∃ c ∈ K.passagesOf batch, c.docId = d)
    (hchunks : ctx.chunks.map Chunk.bare = K.passagesOf batch)
    (h : K.Progress start True docs ctx s) :
    (ChangeDetectionStep.detectDocs docIds ctx).Ensures (portWorld K.ports) K.others K.guarantee
      (fun r s => r.1.chunks.map Chunk.bare = K.passagesOf batch ∧
        ∃ docs', K.Progress start True docs' r.1 s ∧
          (r.2 = none → ∀ d, d ∈ docs ∨ d ∈ docIds → d ∈ docs')) s := by
  induction docIds generalizing docs ctx s with
  | nil =>
    intro s' hr
    refine ⟨hchunks, docs, Progress.stable hr ?_, fun _ d hd => hd.resolve_right (by simp)⟩
    exact h.context (.of_eq List.prefix_rfl rfl rfl rfl)
  | cons d rest ih =>
    obtain ⟨hd, hrest⟩ := List.forall_mem_cons.mp hdocIds
    refine ensures_storeGet h (fun existing s₁ hlists h₁ => ?_) fun exc s₁ h₁ s' hr => ?_
    · refine (ih hrest ?_ (h₁.compareDoc hbatch hchunks hd hlists.1)).mono
        fun r s₂ ⟨hbare, docs', hprog, hall⟩ => ⟨hbare, docs', hprog, fun hnone d' hd' => ?_⟩
      · exact (ChangeDetectionStep.map_bare_preload existing d ctx.chunks).trans hchunks
      · refine hall hnone d' ?_
        rcases hd' with hd' | hd'
        · exact Or.inl (Set.mem_insert_of_mem d hd')
        · rcases List.mem_cons.mp hd' with rfl | hd'
          · exact Or.inl (Set.mem_insert ..)
          · exact Or.inr hd'
    · exact ⟨hchunks, docs, Progress.stable hr h₁, fun hnone => by cases hnone⟩

/-- Detection compares every document of the batch, or it records an error. -/
theorem detection_ensures (hdocs : K.run.documents ≠ [])
    (hall : ctx.allDocumentIds = OrderedSet.ofList K.run.ids)
    (hchunks : ctx.chunks.map Chunk.bare = K.passagesOf batch)
    (h : K.Progress start listed ∅ ctx s) :
    (ChangeDetectionStep.execute ctx).Ensures (portWorld K.ports) K.others K.guarantee
      (fun ctx' s => ctx'.chunks.map Chunk.bare = K.passagesOf batch ∧
        K.Progress start True (K.docIdsOf batch) ctx' s) s := by
  have hdetect : (ChangeDetectionStep.detect ctx).Ensures (portWorld K.ports) K.others K.guarantee
      (fun r s => r.1.chunks.map Chunk.bare = K.passagesOf batch ∧
        ∃ listed' docs', K.Progress start listed' docs' r.1 s ∧
          (r.2 = none → listed' ∧ ∀ d, (∃ c ∈ K.passagesOf batch, c.docId = d) → d ∈ docs')) s := by
    refine ensures_storeGet h (fun listing s₁ hlists h₁ => ?_) fun exc s₁ h₁ s' hr => ?_
    · refine (detectDocs_ensures hbatch ?_ ?_ (h₁.listing hdocs hall hlists)).mono
        fun r s₂ ⟨hbare, docs', hprog, hcmp⟩ =>
          ⟨hbare, True, docs', hprog, fun hnone => ⟨trivial, fun d hd => ?_⟩⟩
      · exact fun d hd => (mem_currentDocIds hbatch hchunks).mp hd
      · exact hchunks
      · exact hcmp hnone d (Or.inr ((mem_currentDocIds hbatch hchunks).mpr hd))
    · exact ⟨hchunks, listed, ∅, Progress.stable hr h₁, fun hnone => by cases hnone⟩
  refine hdetect.bind fun r s₁ ⟨hbare, listed', docs', hprog, hcmp⟩ => ?_
  obtain ⟨ctx', outcome⟩ := r
  cases outcome with
  | none =>
    intro s' hr
    obtain ⟨hlisted, hcmp⟩ := hcmp rfl
    refine ⟨hbare, Progress.stable hr ⟨hprog.wf, hprog.visible, hprog.persists, hprog.orphans,
      hprog.safe, hprog.removed, fun herr _ => hprog.covered herr hlisted, ?_, hprog.found, ?_⟩⟩
    · exact fun herr k hk d hd => hprog.done herr k hk d (hcmp d hd)
    · exact fun herr x hx hkept hd => hprog.hit herr x hx hkept (hcmp _ hd)
  | some exc =>
    intro s' hr
    exact ⟨(ChangeDetectionStep.map_bare_fallback ctx' exc).trans hbare,
      Progress.stable hr (hprog.fallback _ _)⟩

omit hbatch

/-- The documents that the summary step goes through. -/
theorem mem_docIds (hchunks : ctx.chunks.map Chunk.bare = K.passagesOf batch) {d : String} :
    d ∈ DocumentSummaryStep.docIds ctx ↔ d ∈ K.docIdsOf batch := by
  have hmem : d ∈ DocumentSummaryStep.docIds ctx ↔ d ∈ ctx.chunks.map Chunk.docId :=
    OrderedSet.mem_ofList
  have hmap : ctx.chunks.map Chunk.docId = (K.passagesOf batch).map Chunk.docId := by
    rw [← hchunks, List.map_map]
    rfl
  rw [hmem, hmap, List.mem_map]
  rfl

/-- The summary step sees every passage of a document. -/
theorem length_docChunks_ge (hchunks : ctx.chunks.map Chunk.bare = K.passagesOf batch)
    {doc : Document} (hdoc : doc ∈ batch) :
    (contentChunks K.host K.run.pipeline.chunkStep doc).length
      ≤ (DocumentSummaryStep.docChunks ctx doc.id).length := by
  have hlen : (DocumentSummaryStep.docChunks ctx doc.id).length
      = ((K.passagesOf batch).filter (fun c => c.docId = doc.id)).length := by
    rw [← hchunks, List.filter_map, List.length_map]
    rfl
  rw [hlen]
  have hself : (contentChunks K.host K.run.pipeline.chunkStep doc).filter
      (fun c => c.docId = doc.id) = contentChunks K.host K.run.pipeline.chunkStep doc :=
    List.filter_eq_self.mpr fun c hc => decide_eq_true (contentChunks_spec hc).1
  rw [← hself]
  refine ((List.sublist_flatten_of_mem ?_).filter _).length_le
  exact List.mem_map_of_mem hdoc

end Batch

end Setting

end VirtualContributor.Pipeline
