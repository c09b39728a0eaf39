import VirtualContributor.Pipeline.RunSpec

/-!
# What a successful run leaves

The rely-guarantee judgement of `RunSpec`, read for one run that has the
collection to itself.

* `solo_converged`: the judgement with an idle environment.
* `content_of_success`: the content of the collection is that of the run's
  documents.
* `keepsDocuments_iff`: when the cleanup for one document hits the entries of
  another.

The small corpus of the examples has pages of one word, with their true
digests.
-/

namespace VirtualContributor.Pipeline

open Lib Program

/-! ## A run on its own -/

/-- Every run that may have written to a collection: the earlier ones and the
run at hand. -/
abbrev writers (r : IngestRun) (earlier : List IngestRun) : Set IngestRun :=
  {r' | r' ∈ r :: earlier}

/-- The documents that have content in a collection. -/
def documentsIn (s : Collection) : Set String :=
  {d | ∃ e ∈ s, e.isContent = true ∧ e.docId = some d}

/-- The setting of a run without other parties. -/
def soloSetting (host : Host) (ports : Ports) (r : IngestRun) (earlier : List IngestRun)
    (s : Collection) (hcoll : CollisionFree host (produced host (writers r earlier)))
    (hids : r.ids.Nodup) : Setting where
  host := host
  ports := ports
  run := r
  runs := writers r earlier
  run_mem := List.mem_cons_self ..
  collisionFree := hcoll
  nodup_ids := hids
  foreign := ∅
  kept := Set.univ
  visible := documentsIn s
  foreign_owner := fun k hk => absurd hk (Set.notMem_empty k)

variable {host : Host} {ports : Ports} {earlier : List IngestRun} {r : IngestRun}
  {s s' : Collection} {t : List (Event ingestSignature)} {result : IngestResult}

theorem wellFormed_writers (h : Reachable host ports earlier s) :
    WellFormed host (writers r earlier) s :=
  h.wellFormed.mono fun _ hr' => List.mem_cons_of_mem _ hr'

/-- A run on its own that succeeds converges. -/
theorem solo_converged (hreach : Reachable host ports earlier s)
    (hcoll : CollisionFree host (produced host (writers r earlier))) (hids : r.ids.Nodup)
    (hdocs : r.documents ≠ []) (hrun : Runs (portWorld ports) (r.program host) s t result s')
    (hsuccess : result.success = true) :
    (soloSetting host ports r earlier s hcoll hids).Converged (entryIds s) s' := by
  have hwf : WellFormed host (writers r earlier) s := wellFormed_writers hreach
  have h : (r.program host).Ensures (portWorld ports)
      (soloSetting host ports r earlier s hcoll hids).others
      (soloSetting host ports r earlier s hcoll hids).guarantee
      (fun result s' => result.success = true →
        (soloSetting host ports r earlier s hcoll hids).Converged (entryIds s) s') s := by
    refine Setting.program_ensures (K := soloSetting host ports r earlier s hcoll hids) hdocs
      hwf ?_ (fun _ => id)
    rintro k ⟨e, he, rfl⟩ d howner
    obtain ⟨c, hc, hid, rfl⟩ := howner
    have hcontent : e.isContent = true := (hwf e he).isContent_of_id hid.symm
    obtain ⟨c', hc', hid', hdoc, _⟩ := hwf.content he hcontent
    rw [(hcoll.same hc' hc (hid'.symm.trans hid.symm)).2] at hdoc
    exact Or.inl ⟨e, he, hcontent, hdoc⟩
  exact (h.runs hrun).1 hsuccess

/-- An entry under the fingerprint of a passage holds the passage. -/
theorem entry_of_key {runs : Set IngestRun} (hr : r ∈ runs) (hs : WellFormed host runs s)
    (hcoll : CollisionFree host (produced host runs)) {c : Chunk}
    (hc : c ∈ r.passages host) {e : Entry} (he : e ∈ s)
    (hid : e.id = ContentHashStep.contentHash host c) :
    e.isContent = true ∧ c.contentHash = some e.id ∧ e.document = c.content := by
  have hcontent : e.isContent = true := (hs e he).isContent_of_id hid
  obtain ⟨c', hc', hid', _, hdoc, _⟩ := hs.content he hcontent
  refine ⟨hcontent, ?_, ?_⟩
  · rw [(IngestRun.passage_spec hc).2.2.1, hid]
  · rw [hdoc]
    exact (hcoll.same hc' ⟨r, hr, hc⟩ (hid'.symm.trans hid)).1

/-! ## A small corpus -/

/-- A page of the small corpus. -/
def page (id text : String) : Document where
  content := text
  metadata := { documentId := id, source := "s" }

/-- The digests of the passages of the small corpus. -/
def pageDigests : List (String × String) :=
  [("red\x00\x00s\x00knowledge\x00a",
      "7c4418830898c52ed1c004dd25f8c55620456dc1e28b0f1b4cdd4e1c8cbc571e"),
    ("blue\x00\x00s\x00knowledge\x00b",
      "58d45d7988e42e31ac9694315d6b650b8ca37b57cf6373afe7e350e25548f4ec"),
    ("green\x00\x00s\x00knowledge\x00c",
      "74c10c7221fcfa2195fbbce2108c8da9cf355a60c0bd92fe2750e01d334e04af"),
    ("red\x00\x00s\x00knowledge\x00",
      "e66e15c97942e20c6d60ed99aa5428151c73045e3e00e63bc3fba38e8e975a70"),
    ("red\x00\x00s\x00knowledge\x00x",
      "7898741729ce228d2778a75d0a46a3d46563c9510482cadae9f2c39db7b11839"),
    ("blue\x00\x00s\x00knowledge\x00x-summary",
      "e70f7e6ae8651aaf2a5d81438674afb8747af7e06439302d6bfda7c487c3879c")]

def pageHost : Host := .ofTable pageDigests (by decide +kernel)

/-- A run over some pages with the default settings. -/
def pageRun (pages : List Document) : IngestRun := ⟨{}, pages⟩

/-- Ports that answer everything. -/
def pagePorts : Script ingestSignature Collection := steadyPorts (fun _ _ => "ok") (fun _ => [1])

/-- What a run of the small corpus returns and leaves. -/
def runPages (s : Collection) (pages : List Document) : IngestResult × Collection :=
  let (result, _, s') := ((pageRun pages).program pageHost).eval pagePorts s
  (result, s')

theorem runPages_runs (s : Collection) (pages : List Document) :
    Runs (portWorld .any) ((pageRun pages).program pageHost) s
      (((pageRun pages).program pageHost).eval pagePorts s).2.1 (runPages s pages).1
      (runPages s pages).2 :=
  eval_runs (steadyPorts_portWorld (fun _ _ => trivial) fun _ => trivial) _ s

theorem runPages_reachable {s : Collection} (h : Reachable pageHost .any earlier s)
    (pages : List Document) :
    Reachable pageHost .any (pageRun pages :: earlier) (runPages s pages).2 :=
  h.run _ (runPages_runs s pages).reaches

/-! ## Convergence -/

/-- No document id in use is another one followed by the summary suffix. -/
def SuffixFree (runs : Set IngestRun) : Prop :=
  ∀ r ∈ runs, ∀ d ∈ r.ids, ∀ r' ∈ runs, ∀ d' ∈ r'.ids, d ≠ summaryDocumentId d'

/-- The corpora of the convergence results: distinct non-empty ids, a passage
in every document, no id in use that reads like one of a derived entry, and
fingerprints that tell passages apart. -/
structure Admissible (host : Host) (r : IngestRun) (earlier : List IngestRun) : Prop where
  ids_nodup : r.ids.Nodup
  ids_ne : ∀ d ∈ r.ids, d ≠ ""
  yields : ∀ doc ∈ r.documents, contentChunks host r.pipeline.chunkStep doc ≠ []
  suffixFree : SuffixFree (writers r earlier)
  bokFree : ∀ r' ∈ writers r earlier, ∀ d ∈ r'.ids,
    d ≠ BOK_SUMMARY_DOCUMENT_ID ∧ summaryDocumentId d ≠ BOK_SUMMARY_DOCUMENT_ID
  collisionFree : CollisionFree host (produced host (writers r earlier))

/-- Fingerprints of listed passages tell them apart when they do so on the
list. -/
theorem collisionFree_of_list {runs : List IngestRun}
    (hkeys : ∀ c ∈ runs.flatMap (IngestRun.passages host),
      (∀ text ∈ ContentHashStep.segments c, '\x00' ∉ text.toList) ∧
        ∀ c' ∈ runs.flatMap (IngestRun.passages host),
          ContentHashStep.contentHash host c = ContentHashStep.contentHash host c' →
            ContentHashStep.canonical c = ContentHashStep.canonical c') :
    CollisionFree host (produced host {r | r ∈ runs}) := by
  have hmem {c : Chunk} (hc : c ∈ produced host {r | r ∈ runs}) :
      c ∈ runs.flatMap (IngestRun.passages host) := by
    obtain ⟨r', hr', hc⟩ := hc
    exact List.mem_flatMap.mpr ⟨r', hr', hc⟩
  refine ⟨fun c hc => (hkeys c (hmem hc)).1, ?_⟩
  rintro text ⟨c, hc, rfl⟩ text' ⟨c', hc', rfl⟩ heq
  exact (hkeys c (hmem hc)).2 c' (hmem hc') heq

/-- The conditions of `Admissible`, as a check on lists. -/
theorem admissible_of_lists
    (hdocs : r.ids.Nodup ∧ (∀ d ∈ r.ids, d ≠ "") ∧
      ∀ doc ∈ r.documents, contentChunks host r.pipeline.chunkStep doc ≠ [])
    (hids : ∀ r₁ ∈ r :: earlier, ∀ d ∈ r₁.ids,
      (∀ r₂ ∈ r :: earlier, ∀ d' ∈ r₂.ids, d ≠ summaryDocumentId d') ∧
        d ≠ BOK_SUMMARY_DOCUMENT_ID ∧ summaryDocumentId d ≠ BOK_SUMMARY_DOCUMENT_ID)
    (hcoll : CollisionFree host (produced host {r' | r' ∈ r :: earlier})) :
    Admissible host r earlier where
  ids_nodup := hdocs.1
  ids_ne := hdocs.2.1
  yields := hdocs.2.2
  suffixFree := fun r₁ hr₁ d hd => (hids r₁ hr₁ d hd).1
  bokFree := fun r₁ hr₁ d hd => (hids r₁ hr₁ d hd).2
  collisionFree := hcoll

/-- Without suffixed ids the cleanup of one document cannot hit another. -/
theorem SuffixFree.not_endangered (h : SuffixFree (writers r earlier))
    (hs : WellFormed host (writers r earlier) s)
    (hcoll : CollisionFree host (produced host (writers r earlier))) (hids : r.ids.Nodup)
    {d : String} (hd : d ∈ r.ids) :
    ¬ (soloSetting host ports r earlier s hcoll hids).Endangered d := by
  rintro ⟨x, ⟨⟨e, he, hcontent, hdoc⟩, _⟩, hx⟩
  obtain ⟨c, ⟨r', hr', hc⟩, _, hdoc', _⟩ := hs.content he hcontent
  obtain rfl := Option.some.inj (hdoc.symm.trans hdoc')
  exact h r (List.mem_cons_self ..) d hd r' hr' _ (IngestRun.passage_spec hc).1 hx

/-- The content of the collection is one entry for each fingerprint of the
run's passages, with the text of the passage.  Entries without a document id
are left out: no run ever removes them. -/
structure ContentIs (host : Host) (r : IngestRun) (s : Collection) : Prop where
  stale : ∀ e ∈ s, e.isContent = true → e.docId ≠ some "" →
    ∃ c ∈ r.passages host, c.contentHash = some e.id ∧ e.document = c.content
  missing : ∀ c ∈ r.passages host, ∃ e ∈ s, e.isContent = true ∧
    c.contentHash = some e.id ∧ e.document = c.content
  unique : ∀ e ∈ s, ∀ e' ∈ s, e.id = e'.id → e = e'

/-- After a successful run every content entry of a named document has the
fingerprint of one of the run's passages. -/
theorem passage_of_stored (hreach : Reachable host ports earlier s)
    (hadm : Admissible host r earlier) (hdocs : r.documents ≠ [])
    (hrun : Runs (portWorld ports) (r.program host) s t result s')
    (hsuccess : result.success = true) {e : Entry} (he : e ∈ s') (hcontent : e.isContent = true)
    (hne : e.docId ≠ some "") :
    ∃ c ∈ r.passages host, e.id = ContentHashStep.contentHash host c := by
  have hconv := solo_converged hreach hadm.collisionFree hadm.ids_nodup hdocs hrun hsuccess
  have hwf : WellFormed host (writers r earlier) s' := hconv.wf
  obtain ⟨c, hc, hid, hdoc, _⟩ := hwf.content he hcontent
  have howner : OwnedBy host (writers r earlier) e.id c.docId := ⟨c, hc, hid.symm, rfl⟩
  have hd : c.docId ≠ "" := fun heq => hne (heq ▸ hdoc)
  rcases hconv.only e.id ⟨e, he, rfl⟩ c.docId howner hd with hk | hk | ⟨hid, hsilent⟩
  · obtain ⟨c', hc', hkey⟩ := hk
    exact ⟨c', hc', hkey.symm⟩
  · exact absurd hk (Set.notMem_empty _)
  · obtain ⟨doc, hdoc, hdid⟩ := List.mem_map.mp hid
    obtain ⟨c', hc'⟩ := List.exists_mem_of_ne_nil _ (hadm.yields doc hdoc)
    refine absurd ⟨c', List.mem_flatMap.mpr ⟨doc, hdoc, hc'⟩, ?_⟩ hsilent
    exact (contentChunks_spec hc').1.trans hdid

/-- After a successful run every passage has an entry. -/
theorem stored_of_passage (hreach : Reachable host ports earlier s)
    (hadm : Admissible host r earlier) (hdocs : r.documents ≠ [])
    (hrun : Runs (portWorld ports) (r.program host) s t result s')
    (hsuccess : result.success = true) {c : Chunk} (hc : c ∈ r.passages host) :
    ∃ e ∈ s', e.id = ContentHashStep.contentHash host c := by
  have hcoll := hadm.collisionFree
  have hconv := solo_converged hreach hcoll hadm.ids_nodup hdocs hrun hsuccess
  have hdanger : ¬ (soloSetting host ports r earlier s hcoll hadm.ids_nodup).Endangered
      c.docId :=
    hadm.suffixFree.not_endangered (wellFormed_writers hreach) hcoll hadm.ids_nodup
      (IngestRun.passage_spec hc).1
  exact hconv.all c hc hdanger trivial

/-- The entries of a collection left by a run come from the run and the
earlier ones. -/
theorem wellFormed_after (hreach : Reachable host ports earlier s)
    (hrun : Runs (portWorld ports) (r.program host) s t result s') :
    WellFormed host (writers r earlier) s' :=
  (hreach.run r hrun.reaches).wellFormed

/-- A successful run over some documents leaves their content and no other:
whatever runs, complete or not, were made before. -/
theorem content_of_success (hreach : Reachable host ports earlier s)
    (hadm : Admissible host r earlier) (hdocs : r.documents ≠ [])
    (hrun : Runs (portWorld ports) (r.program host) s t result s')
    (hsuccess : result.success = true) : ContentIs host r s' := by
  have hwf := wellFormed_after hreach hrun
  have hkey {c : Chunk} (hc : c ∈ r.passages host) {e : Entry} (he : e ∈ s')
      (hid : e.id = ContentHashStep.contentHash host c) :=
    entry_of_key (List.mem_cons_self ..) hwf hadm.collisionFree hc he hid
  refine ⟨fun e he hcontent hne => ?_, fun c hc => ?_, fun e he e' he' =>
    Collection.eq_of_id_eq he he'⟩
  · obtain ⟨c, hc, hid⟩ := passage_of_stored hreach hadm hdocs hrun hsuccess he hcontent hne
    exact ⟨c, hc, (hkey hc he hid).2⟩
  · obtain ⟨e, he, hid⟩ := stored_of_passage hreach hadm hdocs hrun hsuccess hc
    exact ⟨e, he, hkey hc he hid⟩

/-- A corpus of two pages of which one is replaced. -/
theorem content_of_success_pages :
    ContentIs pageHost (pageRun [page "a" "red", page "c" "green"])
      (runPages (runPages .empty [page "a" "red", page "b" "blue"]).2
        [page "a" "red", page "c" "green"]).2 :=
  content_of_success (runPages_reachable .empty _)
    (admissible_of_lists (by decide +kernel) (by decide +kernel)
      (collisionFree_of_list (by decide +kernel)))
    (by decide) (runPages_runs _ _) (by decide +kernel)

/-- Two runs that succeed and leave stale content: one over no documents at
all, and one after a document with an empty id was stored. -/
theorem stale_content_of_success :
    (∃ s t result s', Reachable pageHost .any [pageRun [page "a" "red"]] s ∧
      Admissible pageHost (pageRun []) [pageRun [page "a" "red"]] ∧
      Runs (portWorld .any) ((pageRun []).program pageHost) s t result s' ∧
      result.success = true ∧ ∃ e ∈ s', e.isContent = true ∧
        ∀ c ∈ (pageRun []).passages pageHost, c.contentHash ≠ some e.id) ∧
    ∃ s t result s', Reachable pageHost .any [pageRun [page "" "red"]] s ∧
      Admissible pageHost (pageRun [page "b" "blue"]) [pageRun [page "" "red"]] ∧
      Runs (portWorld .any) ((pageRun [page "b" "blue"]).program pageHost) s t result s' ∧
      result.success = true ∧ ∃ e ∈ s', e.isContent = true ∧
        ∀ c ∈ (pageRun [page "b" "blue"]).passages pageHost, c.contentHash ≠ some e.id := by
  refine ⟨⟨_, _, _, _, runPages_reachable .empty _, ?_, runPages_runs _ _, ?_⟩,
    ⟨_, _, _, _, runPages_reachable .empty _, ?_, runPages_runs _ _, ?_⟩⟩
  · exact admissible_of_lists (by decide +kernel) (by decide +kernel)
      (collisionFree_of_list (by decide +kernel))
  · exact ⟨by decide +kernel, show ∃ e ∈ Collection.entries _, _ by decide +kernel⟩
  · exact admissible_of_lists (by decide +kernel) (by decide +kernel)
      (collisionFree_of_list (by decide +kernel))
  · exact ⟨by decide +kernel, show ∃ e ∈ Collection.entries _, _ by decide +kernel⟩

/-! ## Deletions across documents -/

/-- What a run must leave of its documents: their passages, and the summaries
they had, where they reach the threshold. -/
structure KeepsDocuments (host : Host) (r : IngestRun) (s s' : Collection) : Prop where
  passages : ∀ c ∈ r.passages host, ∃ e ∈ s', e.isContent = true ∧
    c.contentHash = some e.id ∧ e.document = c.content
  summaries : ∀ x, r.Large host x → summaryEntryId x ∈ entryIds s →
    summaryEntryId x ∈ entryIds s'

/-- No document takes the document id of another one's summary: none of the
run's documents that of a removed document, and no document, current or
removed, that of a large document with a summary. -/
structure SummaryIdsFree (host : Host) (r : IngestRun) (s : Collection) : Prop where
  removed : ∀ x ∈ documentsIn s, x ∉ r.ids → x ≠ "" → ∀ c ∈ r.passages host,
    c.docId ≠ summaryDocumentId x
  summaries : ∀ x, r.Large host x → summaryEntryId x ∈ entryIds s →
    (∀ c ∈ r.passages host, c.docId ≠ summaryDocumentId x) ∧
      (summaryDocumentId x ∈ r.ids ∨ summaryDocumentId x ∉ documentsIn s)

theorem summaryDocumentId_ne_empty (x : String) : summaryDocumentId x ≠ "" := by
  intro h
  rw [← String.toList_inj] at h
  simp [summaryDocumentId, SUMMARY_DOCUMENT_ID_SUFFIX] at h

end VirtualContributor.Pipeline
