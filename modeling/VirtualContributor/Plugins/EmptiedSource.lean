import VirtualContributor.Pipeline.Convergence
import VirtualContributor.Plugins.FailedCrawl
import VirtualContributor.Plugins.Space

/-!
# A source that yields no document

A plugin whose source yields no document runs change detection and the cleanup
over no documents.  Change detection lists the documents that have content, and
the cleanup deletes what is filed under them and under their summaries.

* `cleanup_mem`: what such a run leaves.
* `Attached`: every derived entry is filed under a document that has content.
* `emptied_source_iff`: a plugin that reports success leaves nothing exactly
  when that holds.
-/

namespace VirtualContributor.Plugins

open Lib Program Messaging Pipeline Web

/-! ## The deletions -/

section Deletions

variable {ports : Ports} {s s' : Collection} {t : List (Event ingestSignature)}

/-- The two deletions for a removed document, when neither fails. -/
theorem deleteRemoved_spec {acc acc' : PipelineContext × Nat} {d : String}
    (h : Runs (portWorld ports) (OrphanCleanupStep.deleteRemoved acc d) s t acc' s') :
    acc.1.errors <+: acc'.1.errors ∧ (acc'.1.errors = acc.1.errors →
      ∀ e, e ∈ s' ↔ e ∈ s ∧ e.docId ≠ some d ∧ e.docId ≠ some (summaryDocumentId d)) := by
  have hfailed (text : String) : acc.1.errors <+: (acc.1.addError text).errors ∧
      (acc.1.addError text).errors ≠ acc.1.errors := by
    refine ⟨List.prefix_append .., fun heq => ?_⟩
    have hlength := congrArg List.length heq
    simp [PipelineContext.addError] at hlength
  obtain ⟨r, s₁, t₁, hw, rfl, hrest⟩ := runs_call_iff.mp h
  cases r with
  | error exc =>
    obtain ⟨_, rfl, _⟩ := runs_done_iff.mp hrest
    exact ⟨(hfailed _).1, fun heq => absurd heq (hfailed _).2⟩
  | ok _ =>
    obtain rfl : s₁ = _ := hw
    obtain ⟨r, s₂, t₂, hw₂, rfl, hdone⟩ := runs_call_iff.mp hrest
    cases r with
    | error exc =>
      obtain ⟨_, rfl, _⟩ := runs_done_iff.mp hdone
      exact ⟨(hfailed _).1, fun heq => absurd heq (hfailed _).2⟩
    | ok _ =>
      obtain rfl : s₂ = _ := hw₂
      obtain ⟨_, rfl, rfl⟩ := runs_done_iff.mp hdone
      refine ⟨List.prefix_rfl, fun _ e => ?_⟩
      simp only [Collection.mem_keep, decide_eq_true_eq, and_assoc]

/-- The deletions for a list of removed documents, when none fails. -/
theorem deleteAll_spec {docs : List String} {acc acc' : PipelineContext × Nat}
    (h : Runs (portWorld ports) (docs.foldlM OrphanCleanupStep.deleteRemoved acc) s t acc' s') :
    acc.1.errors <+: acc'.1.errors ∧ (acc'.1.errors = acc.1.errors →
      ∀ e, e ∈ s' ↔ e ∈ s ∧
        ∀ d ∈ docs, e.docId ≠ some d ∧ e.docId ≠ some (summaryDocumentId d)) := by
  induction docs generalizing acc s t with
  | nil =>
    obtain ⟨_, rfl, rfl⟩ := runs_done_iff.mp h
    exact ⟨List.prefix_rfl, fun _ e => by simp⟩
  | cons d docs ih =>
    rw [List.foldlM_cons] at h
    obtain ⟨acc₁, s₁, t₁, t₂, rfl, hfirst, hrest⟩ := runs_bind_iff.mp h
    obtain ⟨hgrow₁, hmem₁⟩ := deleteRemoved_spec hfirst
    obtain ⟨hgrow₂, hmem₂⟩ := ih hrest
    refine ⟨hgrow₁.trans hgrow₂, fun heq e => ?_⟩
    have heq₁ : acc₁.1.errors = acc.1.errors :=
      (hgrow₁.eq_of_length_le (heq ▸ hgrow₂.length_le)).symm
    rw [hmem₂ (heq.trans heq₁.symm) e, hmem₁ heq₁ e, List.forall_mem_cons, and_assoc]

end Deletions

/-! ## The cleanup run -/

/-- A successful cleanup run keeps what is not filed under a document that has
content, nor under the summary of one. -/
theorem cleanup_mem {host : Host} {ports : Ports} {runs : Set IngestRun} {s s' : Collection}
    {t : List (Event ingestSignature)} {result : IngestResult} (hs : WellFormed host runs s)
    (h : Runs (portWorld ports) IngestPipeline.cleanup s t result s')
    (hsuccess : result.success = true) :
    ∀ e, e ∈ s' ↔ e ∈ s ∧ ∀ d ∈ documentsIn s, d ≠ "" →
      e.docId ≠ some d ∧ e.docId ≠ some (summaryDocumentId d) := by
  rw [IngestPipeline.cleanup_eq] at h
  obtain ⟨ctx, s₁, t₁, t₂, rfl, hdetect, hrest⟩ := runs_bind_iff.mp h
  obtain ⟨ctx', s₂, t₃, t₄, rfl, hclean, hdone⟩ := runs_bind_iff.mp hrest
  obtain ⟨rfl, rfl, rfl⟩ := runs_done_iff.mp hdone
  have hnone : ctx'.errors = [] := by
    simpa [IngestEngine.buildResult] using hsuccess
  obtain ⟨r, s₃, t₅, hw, rfl, hread⟩ := runs_call_iff.mp hdetect
  rw [runStep_orphanCleanup] at hclean
  cases r with
  | error exc =>
    obtain ⟨_, rfl, _⟩ := runs_done_iff.mp hread
    rw [if_neg (by simp [ChangeDetectionStep.fallback, PipelineContext.addError])] at hclean
    obtain ⟨_, rfl, _⟩ := runs_done_iff.mp hclean
    simp [PipelineContext.addError] at hnone
  | ok listing =>
    obtain ⟨rfl, hlists, _⟩ := hw
    obtain ⟨_, rfl, rfl⟩ := runs_done_iff.mp hread
    rw [if_pos rfl] at hclean
    obtain ⟨acc, s₄, t₆, t₇, rfl, horphans, hloop⟩ := runs_bind_iff.mp hclean
    obtain ⟨_, rfl, rfl⟩ := runs_done_iff.mp horphans
    obtain ⟨acc', s₅, t₈, t₉, rfl, hdeletes, hlast⟩ := runs_bind_iff.mp hloop
    obtain ⟨_, rfl, rfl⟩ := runs_done_iff.mp hlast
    intro e
    rw [(deleteAll_spec hdeletes).2 hnone e]
    refine and_congr_right fun _ => ⟨fun h d hd hne => ?_, fun h d hd => ?_⟩
    · refine h d (OrderedSet.mem_diff.mpr ⟨(hs.mem_existingDocIds hlists).mpr ⟨hne, hd⟩, ?_⟩)
      exact OrderedSet.not_mem_empty d
    · obtain ⟨hne, hd⟩ := (hs.mem_existingDocIds hlists).mp (OrderedSet.mem_diff.mp hd).1
      exact h d hd hne

/-! ## What is left -/

/-- Every derived entry is filed under a document that has content, or under
the summary of one. -/
def Attached (s : Collection) : Prop :=
  ∀ e ∈ s, e.isContent = false → ∃ e' ∈ s, e'.isContent = true ∧
    (e.docId = e'.docId ∨ e.docId = e'.docId.map summaryDocumentId)

/-- A successful cleanup run over a collection of named documents leaves
nothing exactly when every derived entry is attached. -/
theorem cleanup_empties_iff {host : Host} {ports : Ports} {earlier : List IngestRun}
    {s s' : Collection} {t : List (Event ingestSignature)} {result : IngestResult}
    (hreach : Reachable host ports earlier s) (hids : ∀ r ∈ earlier, ∀ d ∈ r.ids, d ≠ "")
    (h : Runs (portWorld ports) IngestPipeline.cleanup s t result s')
    (hsuccess : result.success = true) : (∀ e, e ∉ s') ↔ Attached s := by
  have hwf := hreach.wellFormed
  have hmem := cleanup_mem hwf h hsuccess
  have hnamed : ∀ e ∈ s, e.isContent = true → ∃ d, e.docId = some d ∧ d ≠ "" := by
    intro e he hcontent
    obtain ⟨c, ⟨r, hr, hc⟩, _, hdoc, _⟩ := hwf.content he hcontent
    exact ⟨c.docId, hdoc, hids r hr _ (IngestRun.passage_spec hc).1⟩
  constructor
  · intro hnone e he hderived
    by_contra hfree
    refine hnone e ((hmem e).mpr ⟨he, fun d hd _ => ?_⟩)
    obtain ⟨e', he', hcontent, hdoc⟩ := hd
    refine ⟨fun h => hfree ⟨e', he', hcontent, Or.inl (h.trans hdoc.symm)⟩, fun h => ?_⟩
    exact hfree ⟨e', he', hcontent, Or.inr (by rw [h, hdoc]; rfl)⟩
  · intro hattached e he'
    obtain ⟨he, hkept⟩ := (hmem e).mp he'
    by_cases hcontent : e.isContent = true
    · obtain ⟨d, hdoc, hne⟩ := hnamed e he hcontent
      exact (hkept d ⟨e, he, hcontent, hdoc⟩ hne).1 hdoc
    · obtain ⟨e', he', hcontent', hdoc⟩ := hattached e he (Bool.eq_false_of_not_eq_true hcontent)
      obtain ⟨d, hd, hne⟩ := hnamed e' he' hcontent'
      have hkept := hkept d ⟨e', he', hcontent', hd⟩ hne
      rw [hd] at hdoc
      rcases hdoc with hdoc | hdoc
      · exact hkept.1 hdoc
      · exact hkept.2 hdoc

/-! ## The plugins -/

/-- The world of the space plugin: the tree may be read in any way, and the
pipeline's ports behave as ports. -/
def spaceWorld (ports : Ports) : World spaceSignature Collection
  | s, .inl _, _, s' => s' = s
  | s, .inr c, r, s' => portWorld ports s c r s'

/-- The calls of a crawl, answered in any way. -/
def anyFetch : World fetchSignature Unit := fun _ _ _ _ => True

/-- A plugin whose source was read, yields no document and reports success,
leaves nothing in the collection exactly when every derived entry was filed
under a document with content: the website plugin, whose crawl returned pages
without text, and the space plugin, whose reader returned no document. -/
theorem emptied_source_iff {host : Host} {ports : Ports} {earlier : List IngestRun}
    {s : Collection} (hreach : Reachable host ports earlier s)
    (hids : ∀ r ∈ earlier, ∀ d ∈ r.ids, d ≠ "") :
    (∀ (L : SiteLib) (plugin : IngestWebsitePlugin) (timestamp : Int) (event : IngestWebsite)
      (pages : List Page) (t : List (Event siteSignature)) (result : IngestWebsiteResult)
      (s' : Collection),
      Runs (siteWorld ports) (plugin.handle L host timestamp event) s t result s' →
      Runs anyFetch (crawl L event.baseUrl plugin.pageLimit) () (leftEvents t) (.ok pages) () →
      pageDocuments L pages = [] → result.result = .success →
        ((∀ e, e ∉ s') ↔ Attached s)) ∧
    ∀ (plugin : IngestSpacePlugin) (timestamp : Int) (event : IngestBodyOfKnowledge)
      (t : List (Event spaceSignature)) (result : IngestBodyOfKnowledgeResult) (s' : Collection),
      Runs (spaceWorld ports) (plugin.handle host timestamp event) s
        (⟨.inl (.readBodyOfKnowledge event.bodyOfKnowledgeId event.type), .ok []⟩ :: t) result s' →
      result.result = "success" → ((∀ e, e ∉ s') ↔ Attached s) := by
  constructor
  · intro L plugin timestamp event pages t result s' hrun hcrawl hempty hsuccess
    unfold IngestWebsitePlugin.handle at hrun
    cases hparsed : L.urlparse event.baseUrl with
    | error text =>
      rw [hparsed] at hrun
      obtain ⟨_, rfl, _⟩ := runs_done_iff.mp hrun
      cases hsuccess
    | ok parsed =>
      rw [hparsed] at hrun
      obtain ⟨outcome, s₁, t₁, t₂, rfl, hleft, hrest⟩ := runs_bind_iff.mp hrun
      obtain ⟨log, rfl, hlog⟩ := runs_of_inLeft hleft
      obtain rfl := crawl_unchanged hlog
      cases outcome with
      | error exc =>
        obtain ⟨_, rfl, _⟩ := runs_done_iff.mp hrest
        cases hsuccess
      | ok pages' =>
        obtain ⟨ingested, s₂, t₃, t₄, rfl, hingest, hdone⟩ := runs_bind_iff.mp hrest
        obtain ⟨events, rfl, hevents⟩ := runs_of_inRight hingest
        obtain ⟨rfl, rfl, rfl⟩ := runs_done_iff.mp hdone
        rw [List.append_nil, leftEvents_append_inRight, leftEvents_map_inLeft] at hcrawl
        obtain rfl : pages' = pages := Except.ok.inj (hlog.value_unique hcrawl)
        rw [hempty] at hevents
        have hok : ingested.success = true := by
          by_contra hfail
          simp [websiteResultOf, websiteResult, hfail] at hsuccess
        exact cleanup_empties_iff hreach hids hevents hok
  · intro plugin timestamp event t result s' hrun hsuccess
    unfold IngestSpacePlugin.handle at hrun
    split at hrun
    · cases hrun with
      | call hw hrest =>
      obtain rfl := hw
      change Runs _ ((IngestPipeline.cleanup.inRight (S := readerSignature)).bind _) _ _ _ _
        at hrest
      obtain ⟨ingested, s₂, t₂, t₃, rfl, hingest, hdone⟩ := runs_bind_iff.mp hrest
      obtain ⟨events, rfl, hevents⟩ := runs_of_inRight hingest
      obtain ⟨_, rfl, rfl⟩ := runs_done_iff.mp hdone
      have hok : ingested.success = true := by
        by_contra hfail
        simp [spaceResultOf, spaceResult, hfail] at hsuccess
      exact cleanup_empties_iff hreach hids hevents hok
    · obtain ⟨heq, _⟩ := runs_done_iff.mp hrun
      cases heq

/-! ## Two small histories -/

/-- A run over one page, with or without summaries. -/
def onePage (summarize : Bool) : IngestRun :=
  ⟨{ summarizeEnabled := summarize }, [page "a" "red"]⟩

/-- What it leaves in an empty collection. -/
def onePageLeft (summarize : Bool) : Collection :=
  (((onePage summarize).program pageHost).eval pagePorts .empty).2.2

theorem onePage_reachable (summarize : Bool) :
    Reachable pageHost .any [onePage summarize] (onePageLeft summarize) :=
  .run _ .empty
    (eval_runs (steadyPorts_portWorld (fun _ _ => trivial) fun _ => trivial) _ _).reaches

/-- An event for a body of knowledge. -/
def emptiedEvent : IngestBodyOfKnowledge where
  bodyOfKnowledgeId := "bok"
  type := "alkemio-space"
  purpose := "knowledge"
  personaId := "p"

/-- A tree without documents, and ports that answer everything. -/
def emptyTree : Script spaceSignature Collection
  | s, .inl _ => (.ok [], s)
  | s, .inr c => steadyPorts (fun _ _ => "ok") (fun _ => [1]) s c

/-- The run of the space plugin on the empty tree. -/
def emptiedRun (summarize : Bool) :
    IngestBodyOfKnowledgeResult × List (Event spaceSignature) × Collection :=
  (IngestSpacePlugin.handle pageHost {} 0 emptiedEvent).eval emptyTree (onePageLeft summarize)

theorem emptyTree_runs (p : Program spaceSignature IngestBodyOfKnowledgeResult)
    (s : Collection) :
    Runs (spaceWorld .any) p s (p.eval emptyTree s).2.1 (p.eval emptyTree s).1
      (p.eval emptyTree s).2.2 := by
  refine eval_runs (fun s c => ?_) p s
  cases c with
  | inl c => exact rfl
  | inr c => exact steadyPorts_portWorld (fun _ _ => trivial) (fun _ => trivial) s c

/-- A network that serves an empty page. -/
def emptyPage : (c : FetchCall) → c.Answer
  | .resolve _ => .ok ["93.184.216.34"]
  | .headersForRequest _ _ => .ok []
  | .credentialToken => .ok none
  | .send _ => .ok ⟨200, fun name => if name = "content-type" then some "text/html" else none⟩
  | .readBody _ _ => .ok (some [], none)

/-- The run of the website plugin in this network. -/
def emptiedSiteRun : IngestWebsiteResult × List (Event siteSignature) × Collection :=
  (IngestWebsitePlugin.handle siteLib pageHost {} 0 siteEvent).eval (siteScript emptyPage)
    (onePageLeft false)

/-- The crawl of this network. -/
def emptiedCrawl : Except Exc (List Page) × Log × Unit :=
  (crawl siteLib "http://a.example/").eval (fun u c => (emptyPage c, u)) ()

/-- The plugin makes the calls of the crawl, and then those of the cleanup. -/
theorem leftEvents_emptiedSiteRun : leftEvents emptiedSiteRun.2.1 = emptiedCrawl.2.1 := by
  have hparsed : siteLib.urlparse siteEvent.baseUrl
      = .ok ⟨"http", "a.example", "/", "", "", ""⟩ := by
    simp [siteLib, siteEvent]
  have hcrawl := eval_inLeft (T := ingestSignature) (A := siteScript emptyPage)
    (f := emptyPage) (fun _ _ => rfl) (crawl siteLib "http://a.example/") (onePageLeft false)
  rw [emptiedSiteRun, IngestWebsitePlugin.handle, hparsed]
  show leftEvents (((crawl siteLib "http://a.example/").inLeft.bind _).eval _ _).2.1 = _
  rw [eval_bind, hcrawl]
  show leftEvents (emptiedCrawl.2.1.map Event.inLeft ++ _) = _
  rw [leftEvents_append, leftEvents_map_inLeft]
  refine List.append_right_eq_self.mpr (List.isEmpty_iff.mp ?_)
  decide +kernel

/-- A page without text and a tree without documents, where no summaries were
made. -/
theorem emptied_source_iff_onePage :
    (∀ e, e ∉ emptiedSiteRun.2.2) ∧ ∀ e, e ∉ (emptiedRun false).2.2 := by
  have hids : ∀ r ∈ [onePage false], ∀ d ∈ r.ids, d ≠ "" := by decide
  have hattached : Attached (onePageLeft false) :=
    show ∀ e ∈ Collection.entries _, _ → ∃ e' ∈ Collection.entries _, _ by decide +kernel
  have h := emptied_source_iff (onePage_reachable false) hids
  constructor
  · refine (h.1 siteLib {} 0 siteEvent [⟨"http://a.example/", ""⟩] emptiedSiteRun.2.1
      emptiedSiteRun.1 emptiedSiteRun.2.2 ?_ ?_ (by decide +kernel) (by decide +kernel)).mpr
      hattached
    · exact siteScript_runs emptyPage _ _
    · have hrun : Runs anyFetch (crawl siteLib "http://a.example/") () emptiedCrawl.2.1
          emptiedCrawl.1 () := eval_runs (fun _ _ => trivial) _ ()
      have hpages : emptiedCrawl.1.toOption = some [⟨"http://a.example/", ""⟩] := by
        decide +kernel
      rw [leftEvents_emptiedSiteRun]
      cases houtcome : emptiedCrawl.1 with
      | error exc =>
        rw [houtcome] at hpages
        cases hpages
      | ok pages =>
        rw [houtcome] at hpages hrun
        obtain rfl : pages = _ := Option.some.inj hpages
        exact hrun
  · exact (h.2 {} 0 emptiedEvent _ _ _ (emptyTree_runs _ _) (by decide +kernel)).mpr hattached

/-- The overview outlives the last document. -/
theorem overview_left_onePage :
    ∃ (earlier : List IngestRun) (s s' : Collection) (t : List (Event spaceSignature))
      (result : IngestBodyOfKnowledgeResult),
      Reachable pageHost .any earlier s ∧ (∀ r ∈ earlier, ∀ d ∈ r.ids, d ≠ "") ∧
      Runs (spaceWorld .any) (IngestSpacePlugin.handle pageHost {} 0 emptiedEvent) s
        (⟨.inl (.readBodyOfKnowledge emptiedEvent.bodyOfKnowledgeId emptiedEvent.type), .ok []⟩ :: t)
        result s' ∧
      result.result = "success" ∧ ∃ e ∈ s', e.id = bokEntryId := by
  refine ⟨[onePage true], onePageLeft true, (emptiedRun true).2.2, _, (emptiedRun true).1,
    onePage_reachable true, by decide, emptyTree_runs _ _, by decide +kernel, ?_⟩
  show ∃ e ∈ Collection.entries _, _
  decide +kernel

end VirtualContributor.Plugins
