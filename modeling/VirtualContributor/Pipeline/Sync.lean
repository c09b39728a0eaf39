import VirtualContributor.Pipeline.History

/-!
# What a run relies on and what it promises

A `sync` step is a change of the collection that adds ids of one set only and
keeps the ids of another.

* `Setting` fixes one run, the runs that may have written before or beside
  it, and what the others may add and will keep.
* `Setting.others` is the interference the run relies on, `Setting.own` is
  what it promises in return.
* `Belongs k d`: entries with the id `k` carry the document id `d`.  An id
  determines its document id (`belongs_unique`), so no call can hit an entry
  under two documents.
-/

namespace VirtualContributor.Pipeline

open Lib Program

/-! ## Ids and documents -/

/-- The ids of the entries. -/
def entryIds (s : Collection) : Set String := {k | ∃ e ∈ s, e.id = k}

/-- The passages that the given runs made. -/
def produced (host : Host) (runs : Set IngestRun) : Set Chunk :=
  {c | ∃ r ∈ runs, c ∈ r.passages host}

/-- The fingerprint `k` is that of a passage of the document `d`. -/
def OwnedBy (host : Host) (runs : Set IngestRun) (k d : String) : Prop :=
  ∃ c ∈ produced host runs, ContentHashStep.contentHash host c = k ∧ c.docId = d

theorem OwnedBy.mem_ids {host : Host} {runs : Set IngestRun} {k d : String}
    (h : OwnedBy host runs k d) : ∃ r ∈ runs, d ∈ r.ids := by
  obtain ⟨c, ⟨r, hr, hc⟩, _, rfl⟩ := h
  exact ⟨r, hr, (IngestRun.passage_spec hc).1⟩

/-- The document id of an entry with the id `k` is `d`.  The overview goes by
the ids of the summary of a document "body-of-knowledge". -/
def Belongs (host : Host) (runs : Set IngestRun) (k d : String) : Prop :=
  OwnedBy host runs k d ∨ ∃ x, k = summaryEntryId x ∧ d = summaryDocumentId x

theorem bokEntryId_eq : bokEntryId = summaryEntryId "body-of-knowledge" := by decide

theorem bokDocumentId_eq :
    BOK_SUMMARY_DOCUMENT_ID = summaryDocumentId "body-of-knowledge" := by decide

/-- A content entry was written for a passage, under its fingerprint. -/
theorem WellFormed.content {host : Host} {runs : Set IngestRun} {s : Collection}
    (hs : WellFormed host runs s) {e : Entry} (he : e ∈ s) (hc : e.isContent = true) :
    ∃ c ∈ produced host runs, e.id = ContentHashStep.contentHash host c ∧
      e.docId = some c.docId ∧ e.document = c.content ∧
      e.metadata.embeddingType = c.metadata.embeddingType := by
  obtain ⟨r, hr, c, hcr, heq⟩ := (hs e he).content hc
  refine ⟨c, ⟨r, hr, hcr⟩, ?_, ?_, ?_, ?_⟩
  · rw [heq]
    exact storageId_passage hcr
  all_goals
    rw [heq]
    rfl

/-- A listing of a collection names the documents that have content.  Content
is labelled, so the spelling of its document id does not matter. -/
theorem WellFormed.mem_existingDocIds {host : Host} {runs : Set IngestRun} {s : Collection}
    (hs : WellFormed host runs s) {listing : GetResult} (hlists : listing.Lists (s.select none))
    {d : String} : d ∈ ChangeDetectionStep.existingDocIds listing ↔
      d ≠ "" ∧ ∃ e ∈ s, e.isContent = true ∧ e.docId = some d := by
  rw [ChangeDetectionStep.existingDocIds, OrderedSet.mem_ofList, hlists.2, Option.getD_some,
    List.mem_filterMap]
  constructor
  · rintro ⟨m, hm, hd⟩
    obtain ⟨hm, hlisted⟩ := List.mem_filter.mp hm
    obtain ⟨e, he, rfl⟩ := List.mem_map.mp hm
    rw [ChangeDetectionStep.listsContent, Bool.and_eq_true, Bool.and_eq_true] at hlisted
    have htruthy := hlisted.2
    rw [hd, truthy, decide_eq_true_iff] at htruthy
    exact ⟨htruthy, e, he, hlisted.1.2, hd⟩
  · rintro ⟨hne, e, he, hcontent, hd⟩
    refine ⟨e.metadata, List.mem_filter.mpr ⟨List.mem_map_of_mem he, ?_⟩, hd⟩
    obtain ⟨r, _, c, hc, heq⟩ := (hs e he).content hcontent
    obtain ⟨doc, _, hpassage⟩ := IngestRun.mem_passages.mp hc
    have hlabel : e.metadata.embeddingType.isNone = false := by
      rw [heq, Option.isNone_eq_false_iff]
      exact contentChunks_label hpassage
    have hcontent' : Pipeline.isContent e.metadata.embeddingType = true := hcontent
    have hd' : e.metadata.documentId = some d := hd
    simp [ChangeDetectionStep.listsContent, hlabel, hcontent', hd', truthy, hne]

theorem WellFormed.belongs {host : Host} {runs : Set IngestRun} {s : Collection}
    (hs : WellFormed host runs s) {e : Entry} (he : e ∈ s) :
    ∃ d, e.docId = some d ∧ Belongs host runs e.id d := by
  cases hc : e.isContent with
  | true =>
    obtain ⟨c, hc, hid, hdoc, _⟩ := hs.content he hc
    exact ⟨c.docId, hdoc, Or.inl ⟨c, hc, hid.symm, rfl⟩⟩
  | false =>
    rcases (hs e he).derived hc with ⟨r, _, x, _, hid, hdoc⟩ | ⟨hid, hdoc⟩
    · exact ⟨summaryDocumentId x, hdoc, Or.inr ⟨x, hid, rfl⟩⟩
    · exact ⟨_, hdoc, Or.inr ⟨_, hid.trans bokEntryId_eq, bokDocumentId_eq⟩⟩

/-- A step that keeps the collection well-formed, adds ids of `adds` only and
keeps those of `keeps`. -/
def sync (host : Host) (runs : Set IngestRun) (adds keeps : Set String) :
    Interference Collection where
  step := fun s s' => WellFormed host runs s → WellFormed host runs s' ∧
    (∀ k ∈ entryIds s', k ∈ entryIds s ∨ k ∈ adds) ∧
    ∀ k ∈ entryIds s, k ∈ keeps → k ∈ entryIds s'
  refl := fun _ hs => ⟨hs, fun _ => Or.inl, fun _ hk _ => hk⟩
  trans := by
    intro s₁ s₂ s₃ h₁₂ h₂₃ hs
    obtain ⟨hs₂, hadd₂, hkeep₂⟩ := h₁₂ hs
    obtain ⟨hs₃, hadd₃, hkeep₃⟩ := h₂₃ hs₂
    refine ⟨hs₃, fun k hk => ?_, fun k hk hkept => hkeep₃ k (hkeep₂ k hk hkept) hkept⟩
    rcases hadd₃ k hk with hk | hk
    · exact hadd₂ k hk
    · exact Or.inr hk

theorem sync_mono {host : Host} {runs : Set IngestRun} {adds adds' keeps keeps' : Set String}
    (hadds : ∀ k ∈ adds, k ∈ adds') (hkeeps : ∀ k ∈ keeps', k ∈ keeps) {s s' : Collection}
    (h : (sync host runs adds keeps).step s s') : (sync host runs adds' keeps').step s s' := by
  intro hs
  obtain ⟨hs', hadd, hkeep⟩ := h hs
  exact ⟨hs', fun k hk => (hadd k hk).imp_right (hadds k),
    fun k hk hk' => hkeep k hk (hkeeps k hk')⟩

/-! ## The setting of a run -/

/-- One run among others.  The set `foreign` bounds the ids that others may
add meanwhile, `kept` are ids that they do not delete, and `visible` bounds
the documents that may have content in the collection. -/
structure Setting where
  host : Host
  ports : Ports
  run : IngestRun
  runs : Set IngestRun
  run_mem : run ∈ runs
  collisionFree : CollisionFree host (produced host runs)
  nodup_ids : run.ids.Nodup
  foreign : Set String
  kept : Set String
  visible : Set String
  foreign_owner : ∀ k ∈ foreign, ∀ d, OwnedBy host runs k d → d ∈ visible ∨ d ∈ run.ids

namespace Setting

variable (K : Setting)

/-- The passages of the run. -/
abbrev passages : List Chunk := K.run.passages K.host

/-- The fingerprint of a chunk. -/
abbrev key (c : Chunk) : String := ContentHashStep.contentHash K.host c

/-- The fingerprints of the run's passages. -/
def fingerprints : Set String := {k | ∃ c ∈ K.passages, K.key c = k}

/-- The owner of a fingerprint among the runs of the setting. -/
abbrev Owner (k d : String) : Prop := OwnedBy K.host K.runs k d

/-- The documents that the run may take for removed. -/
def Removable (x : String) : Prop := x ∈ K.visible ∧ x ∉ K.run.ids ∧ x ≠ ""

/-- The documents that the cleanup of the summary of a removed document
hits. -/
def Endangered (d : String) : Prop := ∃ x, K.Removable x ∧ d = summaryDocumentId x

/-- The fingerprints that the run itself does not delete. -/
def spared : Set String := {k | k ∈ K.fingerprints ∧ ∀ d, K.Owner k d → ¬ K.Endangered d}

/-- The ids that the run writes: its fingerprints, and ids of derived
entries. -/
def written : Set String := {k | k ∈ K.fingerprints ∨ ∀ d, ¬ K.Owner k d}

/-- What the run relies on. -/
def others : Interference Collection := sync K.host K.runs K.foreign K.kept

/-- What the run promises. -/
def own : Interference Collection := sync K.host K.runs K.written K.spared

/-- A write of the run deletes nothing. -/
def wrote : Interference Collection := sync K.host K.runs K.written Set.univ

/-- The run's calls as a world. -/
def guarantee : World ingestSignature Collection := fun s _ _ s' => K.own.step s s'

theorem own_of_wrote {s s' : Collection} (h : K.wrote.step s s') : K.own.step s s' :=
  sync_mono (fun _ => id) (fun _ _ => trivial) h

variable {K}

theorem mem_produced {c : Chunk} (hc : c ∈ K.passages) : c ∈ produced K.host K.runs :=
  ⟨K.run, K.run_mem, hc⟩

/-- A fingerprint belongs to one document. -/
theorem owner_unique {k d d' : String} (h : K.Owner k d) (h' : K.Owner k d') : d = d' := by
  obtain ⟨c, hc, rfl, rfl⟩ := h
  obtain ⟨c', hc', hkey, rfl⟩ := h'
  exact ((K.collisionFree.same hc' hc hkey).2).symm

theorem owner_of_passage {c : Chunk} (hc : c ∈ K.passages) : K.Owner (K.key c) c.docId :=
  ⟨c, mem_produced hc, rfl, rfl⟩

theorem mem_fingerprints {c : Chunk} (hc : c ∈ K.passages) : K.key c ∈ K.fingerprints :=
  ⟨c, hc, rfl⟩

/-- The run's fingerprints belong to its documents. -/
theorem owner_mem_ids {k d : String} (hk : k ∈ K.fingerprints) (h : K.Owner k d) :
    d ∈ K.run.ids := by
  obtain ⟨c, hc, rfl⟩ := hk
  rw [owner_unique h (owner_of_passage hc)]
  exact (IngestRun.passage_spec hc).1

theorem mem_fingerprints_of_written {k d : String} (hk : k ∈ K.written) (h : K.Owner k d) :
    k ∈ K.fingerprints := by
  rcases hk with hk | hk
  · exact hk
  · exact absurd h (hk d)

/-- A content entry is owned by its document. -/
theorem owner_of_mem {s : Collection} (hs : WellFormed K.host K.runs s) {e : Entry} (he : e ∈ s)
    (hc : e.isContent = true) : ∃ d, e.docId = some d ∧ K.Owner e.id d := by
  obtain ⟨c, hc, hid, hdoc, _⟩ := hs.content he hc
  exact ⟨c.docId, hdoc, c, hc, hid.symm, rfl⟩

theorem docId_of_owner {s : Collection} (hs : WellFormed K.host K.runs s) {e : Entry}
    (he : e ∈ s) (hc : e.isContent = true) {d : String} (h : K.Owner e.id d) :
    e.docId = some d := by
  obtain ⟨d', hdoc, h'⟩ := owner_of_mem hs he hc
  rw [hdoc, owner_unique h h']

/-- An entry under a fingerprint is content. -/
theorem isContent_of_owner {s : Collection} (hs : WellFormed K.host K.runs s) {e : Entry}
    (he : e ∈ s) {d : String} (h : K.Owner e.id d) : e.isContent = true := by
  obtain ⟨c, _, hid, _⟩ := h
  exact (hs e he).isContent_of_id hid.symm

/-- The id of a derived entry is no fingerprint. -/
theorem not_owner_summaryEntryId (x d : String) : ¬ K.Owner (summaryEntryId x) d := by
  rintro ⟨c, _, hc, _⟩
  exact sha256_ne_summaryEntryId K.host _ x hc

/-- An id determines the document id. -/
theorem belongs_unique {k d d' : String} (h : Belongs K.host K.runs k d)
    (h' : Belongs K.host K.runs k d') : d = d' := by
  rcases h with h | ⟨x, rfl, rfl⟩
  · rcases h' with h' | ⟨x', rfl, _⟩
    · exact owner_unique h h'
    · exact absurd h (not_owner_summaryEntryId x' d)
  · rcases h' with h' | ⟨x', hx, rfl⟩
    · exact absurd h' (not_owner_summaryEntryId x d')
    · rw [summaryEntryId_inj hx]

theorem docId_of_belongs {s : Collection} (hs : WellFormed K.host K.runs s) {e : Entry}
    (he : e ∈ s) {d : String} (h : Belongs K.host K.runs e.id d) : e.docId = some d := by
  obtain ⟨d', hdoc, h'⟩ := hs.belongs he
  rw [hdoc, belongs_unique h h']

theorem mem_entryIds_iff {s : Collection} (hs : WellFormed K.host K.runs s) {k d : String}
    (h : Belongs K.host K.runs k d) : k ∈ entryIds s ↔ ∃ e ∈ s, e.docId = some d ∧ e.id = k := by
  constructor
  · rintro ⟨e, he, rfl⟩
    exact ⟨e, he, docId_of_belongs hs he h, rfl⟩
  · rintro ⟨e, he, _, rfl⟩
    exact ⟨e, he, rfl⟩

/-! ## The effect of the calls -/

/-- A write of entries of the run. -/
theorem wrote_of_ingest {s s' : Collection} {es : List Entry}
    {r : IngestCall.Answer (.ingest es)} (hes : WritesFor K.host K.run (.ingest es))
    (h : portWorld K.ports s (.ingest es) r s') : K.wrote.step s s' := by
  intro hs
  have hs' : WellFormed K.host K.runs s' := hs.step K.run_mem (Or.inl hes) h
  refine ⟨hs', ?_, ?_⟩
  · rintro k ⟨e, he, rfl⟩
    rcases portWorld_mem h he with he | ⟨es', heq, he⟩
    · exact Or.inl ⟨e, he, rfl⟩
    · obtain rfl : es = es' := by cases heq; rfl
      refine Or.inr ?_
      by_cases howner : ∃ d, K.Owner e.id d
      · obtain ⟨d, c, _, hid, _⟩ := howner
        have hcontent := (hes e he).isContent_of_id hid.symm
        obtain ⟨r, hr, c, hcr, heq⟩ := (hes e he).content hcontent
        obtain rfl := Set.mem_singleton_iff.mp hr
        refine Or.inl ⟨c, hcr, ?_⟩
        rw [heq]
        exact (storageId_passage hcr).symm
      · exact Or.inr (not_exists.mp howner)
  · rintro k ⟨e, he, rfl⟩ -
    obtain ⟨part, hpart⟩ : ∃ part : List Entry, s' = s.upsertAll part := by
      cases r with
      | ok _ => exact ⟨es, h⟩
      | error exc =>
        obtain ⟨part, _, hs''⟩ := h
        exact ⟨part, hs''⟩
    by_cases hin : e.id ∈ part.map Entry.id
    · obtain ⟨x, hx, hid⟩ := List.mem_map.mp hin
      obtain ⟨y, _, hyid, hy⟩ := Collection.exists_of_mem_upsertAll (s := s) hx
      exact ⟨y, hpart ▸ hy, hyid.trans hid⟩
    · exact ⟨e, hpart ▸ Collection.mem_upsertAll_of_not_mem he hin, rfl⟩

theorem wrote_of_readOnly {s s' : Collection} {c : IngestCall} {r : c.Answer}
    (hc : c.readOnly) (h : portWorld K.ports s c r s') : K.wrote.step s s' := by
  rw [portWorld_readOnly hc h]
  exact K.wrote.refl s

/-- Every call that deletes nothing is a write of the run. -/
theorem wrote_of_writesFor {s s' : Collection} {c : IngestCall} {r : c.Answer}
    (hc : WritesFor K.host K.run c) (h : portWorld K.ports s c r s') : K.wrote.step s s' := by
  cases c with
  | ingest es => exact wrote_of_ingest hc h
  | get d b => exact wrote_of_readOnly (c := .get d b) trivial h
  | invoke role m => exact wrote_of_readOnly (c := .invoke role m) trivial h
  | embed ts => exact wrote_of_readOnly (c := .embed ts) trivial h
  | deleteIds ids => exact hc.elim
  | deleteWhere d => exact hc.elim

/-- A deletion of some ids, completed or not. -/
theorem deleteIds_step {s s' : Collection} {ids : List String}
    {r : IngestCall.Answer (.deleteIds ids)} (h : portWorld K.ports s (.deleteIds ids) r s') :
    (sync K.host K.runs ∅ {k | k ∉ ids}).step s s' := by
  intro hs
  refine ⟨hs.step (r := K.run) K.run_mem (c := .deleteIds ids) (Or.inr trivial) h, ?_, ?_⟩
  · rintro k ⟨e, he, rfl⟩
    rcases portWorld_mem h he with he | ⟨es, heq, _⟩
    · exact Or.inl ⟨e, he, rfl⟩
    · cases heq
  · rintro k ⟨e, he, rfl⟩ hk
    have hkeep : e.id ∉ ids := hk
    refine ⟨e, ?_, rfl⟩
    cases r with
    | ok _ =>
      obtain rfl : s' = s.keep _ := h
      exact Collection.mem_keep.mpr ⟨he, by simpa using hkeep⟩
    | error exc =>
      obtain ⟨part, rfl⟩ := h
      exact Collection.mem_keep.mpr ⟨he, by simp [hkeep]⟩

/-- A deletion of the entries of one document id, completed or not. -/
theorem deleteWhere_step {s s' : Collection} {d : String}
    {r : IngestCall.Answer (.deleteWhere d)} (h : portWorld K.ports s (.deleteWhere d) r s') :
    (sync K.host K.runs ∅ {k | ¬ Belongs K.host K.runs k d}).step s s' := by
  intro hs
  refine ⟨hs.step (r := K.run) K.run_mem (c := .deleteWhere d) (Or.inr trivial) h, ?_, ?_⟩
  · rintro k ⟨e, he, rfl⟩
    rcases portWorld_mem h he with he | ⟨es, heq, _⟩
    · exact Or.inl ⟨e, he, rfl⟩
    · cases heq
  · rintro k ⟨e, he, rfl⟩ hk
    obtain ⟨d', hdoc, hbelongs⟩ := hs.belongs he
    have hkeep : e.docId ≠ some d := by
      rw [hdoc]
      exact fun heq => hk (Option.some.inj heq ▸ hbelongs)
    refine ⟨e, ?_, rfl⟩
    cases r with
    | ok _ =>
      obtain rfl : s' = s.keep _ := h
      exact Collection.mem_keep.mpr ⟨he, by simpa using hkeep⟩
    | error exc =>
      obtain ⟨part, rfl⟩ := h
      exact Collection.mem_keep.mpr ⟨he, by simp [hkeep]⟩

end Setting

end VirtualContributor.Pipeline
