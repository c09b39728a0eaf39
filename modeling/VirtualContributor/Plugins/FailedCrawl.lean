import VirtualContributor.Pipeline.Frames
import VirtualContributor.Plugins.Website

/-!
# A crawl that does not reach its base page

`failedCrawl_iff`: when the base page cannot be reached, the website plugin
keeps the knowledge it has exactly when the cause was a transport error.  The
crawler raises for that cause only; a failed resolution and a server error
look like an empty site, and an empty site is cleaned up.

What happened is read off the log of the fetches.
-/

namespace VirtualContributor.Plugins

open Lib Program Messaging Pipeline Web

/-! ## Unreachable pages -/

/-- Why a page could not be reached. -/
inductive Cause where
  | resolution
  | transport
  | serverError
deriving DecidableEq

/-- The failure that a call of a fetch shows. -/
def failure : Event fetchSignature → Option Cause
  | ⟨.resolve _, .error _⟩ => some .resolution
  | ⟨.resolve _, .ok []⟩ => some .resolution
  | ⟨.send _, .error _⟩ => some .transport
  | ⟨.send _, .ok response⟩ =>
    if 500 ≤ response.statusCode ∧ response.statusCode < 600 then some .serverError else none
  | ⟨.readBody _ _, .error _⟩ => some .transport
  | _ => none

/-- Whether a call read a page. -/
def isRead : Event fetchSignature → Bool
  | ⟨.readBody _ _, .ok _⟩ => true
  | _ => false

/-- The failure that a log ends with. -/
def lastFailure (log : Log) : Option Cause := log.getLast?.bind failure

/-- The base page could not be reached: the last call failed, and no page had
been read. -/
structure BaseUnreachable (log : Log) (cause : Cause) : Prop where
  last : lastFailure log = some cause
  unread : ∀ e ∈ log, isRead e = false

/-- The plugin reports a failure and does not touch the store. -/
structure KeepsKnowledge (s s' : Collection) (t : List (Event siteSignature))
    (result : IngestWebsiteResult) : Prop where
  failed : result.result = .failure
  unchanged : s' = s
  noStoreCall : ∀ e ∈ t, ∀ c, e.call ≠ .inr c

/-! ## The guard -/

@[simp] theorem lastFailure_append (log : Log) (e : Event fetchSignature) :
    lastFailure (log ++ [e]) = failure e := by
  rw [lastFailure, List.getLast?_append]
  rfl

/-- The world of judgements that promise nothing about single calls. -/
abbrev anything : World fetchSignature Log := fun _ _ _ _ => True

section Guard

variable {L : UrlLib} {opts : FetchOptions}

/-- A check ends without a failure, or it is refused for a failed
resolution. -/
theorem checkDestination_end {deployment : Deployment} {target : String} {log : Log}
    (hlog : lastFailure log = none) :
    (checkDestination L deployment target).Ensures recording .none anything
      (fun decision log' => lastFailure log' = none ∨ decision.allowed = false ∧
        decision.reason = some .resolution ∧ lastFailure log' = some .resolution) log := by
  unfold checkDestination
  split
  · rename_i parts host _ hhost
    split
    · exact ensures_done (stable_none _) (Or.inl hlog)
    · split
      · exact ensures_done (stable_none _) (Or.inl hlog)
      · split
        · exact ensures_done (stable_none _) (Or.inl hlog)
        · refine ensures_record (fun _ => trivial) fun answer => ensures_done (stable_none _) ?_
          rw [lastFailure_append]
          rcases answer with exc | (_ | ⟨value, rest⟩)
          · exact Or.inr ⟨rfl, rfl, rfl⟩
          · exact Or.inr ⟨rfl, rfl, rfl⟩
          · exact Or.inl rfl
  · exact ensures_done (stable_none _) (Or.inl hlog)

/-- How a hop ends: an exception shows a transport failure or none, and a
result does not hide one. -/
def HopEnd : Except Exc HopOutcome → Log → Prop
  | .error _, log => lastFailure log = none ∨ lastFailure log = some .transport
  | .ok (.result r), log => (r.body.isSome → ∃ e ∈ log, isRead e = true) ∧
      ∀ cause, lastFailure log = some cause →
        r.body = none ∧ unreachable r = false ∧ cause ≠ .transport
  | .ok (.redirect _ _ _), log => lastFailure log = none

theorem receive_end {target host : String} {hops : Nat} {log : Log} {request : Request}
    {response : Web.Response} :
    (receive L opts target host hops response).Ensures recording .none anything HopEnd
      (log ++ [⟨.send request, .ok response⟩]) := by
  have hcalm (hstatus : response.statusCode < 500) :
      lastFailure (log ++ [⟨.send request, .ok response⟩]) = none := by
    rw [lastFailure_append, failure, if_neg]
    omega
  have hlow : ∀ status ∈ REDIRECT_STATUSES, status < 500 := by decide
  unfold receive
  split
  · rename_i hstatus
    refine ensures_done (stable_none _) ?_
    have hcalm := hcalm (hlow _ hstatus)
    unfold followRedirect
    dsimp only
    split
    · exact Or.inl hcalm
    · exact ⟨fun h => absurd h Bool.false_ne_true, fun cause h => by simp [hcalm] at h⟩
    · split
      · exact hcalm
      · split
        · exact Or.inl hcalm
        · exact hcalm
        · exact ⟨fun h => absurd h Bool.false_ne_true, fun cause h => by simp [hcalm] at h⟩
  · split
    · refine ensures_done (stable_none _)
        ⟨fun h => absurd h Bool.false_ne_true, fun cause h => ⟨rfl, rfl, ?_⟩⟩
      rw [lastFailure_append, failure] at h
      split at h
      · rintro rfl
        simp at h
      · simp at h
    · rename_i hok
      have hcalm := hcalm (by omega)
      dsimp only
      split
      · exact ensures_done (stable_none _)
          ⟨fun h => absurd h Bool.false_ne_true, fun cause h => by simp [hcalm] at h⟩
      · refine ensures_record (fun _ => trivial) fun answer => ?_
        cases answer with
        | error exc => exact ensures_done (stable_none _) (Or.inr (lastFailure_append ..))
        | ok body =>
          refine ensures_done (stable_none _) ⟨fun _ => ⟨_, List.mem_append_right _
            (List.mem_singleton_self _), rfl⟩, fun cause h => ?_⟩
          rw [lastFailure_append] at h
          exact absurd h (by simp [failure])

theorem fetchHop_end {target : String} {hops : Nat} {log : Log} (hlog : lastFailure log = none) :
    (fetchHop L opts target hops).Ensures recording .none anything HopEnd log := by
  unfold fetchHop
  refine (checkDestination_end hlog).bind fun decision log₁ hdecision => ?_
  dsimp only
  split
  · rename_i hallowed
    have hcalm : lastFailure log₁ = none :=
      hdecision.resolve_right fun h => by simp [hallowed] at h
    have hheaders : (collectHeaders L opts target decision).Ensures recording .none anything
        (fun _ log' => lastFailure log' = none) log₁ := by
      unfold collectHeaders
      dsimp only
      split
      · refine ensures_record (fun _ => trivial) fun answer => ?_
        cases answer <;> exact ensures_done (stable_none _) (lastFailure_append ..)
      · exact ensures_done (stable_none _) hcalm
    refine hheaders.bind fun headers log₂ hcalm₂ => ?_
    cases headers with
    | error exc => exact ensures_done (stable_none _) (Or.inl hcalm₂)
    | ok headers =>
      have htoken : (currentToken opts).Ensures recording .none anything
          (fun _ log' => lastFailure log' = none) log₂ := by
        unfold currentToken
        split
        · exact ensures_record (fun _ => trivial) fun answer =>
            ensures_done (stable_none _) (lastFailure_append ..)
        · exact ensures_done (stable_none _) hcalm₂
      refine htoken.bind fun token log₃ hcalm₃ => ?_
      cases token with
      | error exc => exact ensures_done (stable_none _) (Or.inl hcalm₃)
      | ok token =>
        dsimp only
        split
        · exact ensures_done (stable_none _) (Or.inl hcalm₃)
        · refine ensures_record (fun _ => trivial) fun answer => ?_
          cases answer with
          | error exc => exact ensures_done (stable_none _) (Or.inr (lastFailure_append ..))
          | ok response => exact receive_end
  · refine ensures_done (stable_none _)
      ⟨fun h => absurd h Bool.false_ne_true, fun cause h => ⟨rfl, ?_, ?_⟩⟩
    · rcases hdecision with hcalm | ⟨_, hreason, _⟩
      · simp [hcalm] at h
      · simp [unreachable, withoutBody, hreason]
    · rcases hdecision with hcalm | ⟨_, _, hresolution⟩
      · simp [hcalm] at h
      · rw [hresolution] at h
        rintro rfl
        simp at h

/-- How the fetch of a page ends.  A failure leaves no body, and it is told as
unreachable when it was one of the transport. -/
structure PageEnd (r : GuardedFetchResult) (log : Log) : Prop where
  read : r.body.isSome → ∃ e ∈ log, isRead e = true
  failed : ∀ cause, lastFailure log = some cause →
    r.body = none ∧ (unreachable r = true ↔ cause = .transport)

theorem fetchFrom_end {left : Nat} {target : String} {log : Log} (hlog : lastFailure log = none) :
    (fetchFrom L opts left target).Ensures recording .none anything
      (fun res log' => match res with
        | .error _ => lastFailure log' = none ∨ lastFailure log' = some .transport
        | .ok r => PageEnd r log') log := by
  have result {r : GuardedFetchResult} {log' : Log} (h : HopEnd (.ok (.result r)) log') :
      PageEnd r log' :=
    ⟨h.1, fun cause hcause => ⟨(h.2 cause hcause).1, by
      simp [(h.2 cause hcause).2.1, (h.2 cause hcause).2.2]⟩⟩
  induction left generalizing target log with
  | zero =>
    unfold fetchFrom
    refine (fetchHop_end hlog).bind fun outcome log' h => ?_
    rcases outcome with exc | (r | ⟨next, status, host⟩)
    · exact ensures_done (stable_none _) h
    · exact ensures_done (stable_none _) (result h)
    · refine ensures_done (stable_none _)
        ⟨fun hbody => absurd hbody Bool.false_ne_true, fun cause hcause => ?_⟩
      rw [h] at hcause
      simp at hcause
  | succ left ih =>
    unfold fetchFrom
    refine (fetchHop_end hlog).bind fun outcome log' h => ?_
    rcases outcome with exc | (r | ⟨next, status, host⟩)
    · exact ensures_done (stable_none _) h
    · exact ensures_done (stable_none _) (result h)
    · exact ih h

theorem guardedFetch_end {url : String} {log : Log} (hlog : lastFailure log = none) :
    (guardedFetch L opts url).Ensures recording .none anything
      (fun res log' => ∃ r, res = .ok r ∧ PageEnd r log') log := by
  unfold guardedFetch
  refine (fetchFrom_end hlog).bind fun res log' h => ?_
  cases res with
  | ok r => exact ensures_done (stable_none _) ⟨r, rfl, h⟩
  | error raised =>
    refine ensures_done (stable_none _) ⟨_, rfl, fun hbody => absurd hbody Bool.false_ne_true,
      fun cause hcause => ⟨rfl, fun _ => ?_, fun _ => rfl⟩⟩
    rcases h with h | h
    · simp [h] at hcause
    · simpa [h] using hcause.symm

end Guard

/-! ## The crawl -/

section Crawl

variable {L : SiteLib} {baseUrl : String}

/-- How a crawl ends when the base page could not be reached. -/
def CrawlEnd (res : Except Exc (List Page)) (log : Log) : Prop :=
  ∀ cause, BaseUnreachable log cause →
    cause = .transport ∧ (∃ exc, res = .error exc) ∨ cause ≠ .transport ∧ res = .ok []

/-- A log that ends well, or in which a page was read, is not that of an
unreachable base page. -/
theorem crawlEnd_of_calm {res : Except Exc (List Page)} {log : Log}
    (h : lastFailure log = none) : CrawlEnd res log := by
  intro cause hbase
  have hlast := hbase.last
  simp [h] at hlast

theorem crawlEnd_of_read {res : Except Exc (List Page)} {log : Log}
    (h : ∃ e ∈ log, isRead e = true) : CrawlEnd res log := by
  intro cause hbase
  obtain ⟨e, he, hread⟩ := h
  have hunread := hbase.unread e he
  simp [hread] at hunread

/-- Once a page was read the base page was reached, whatever follows. -/
theorem ensures_of_read {p : Fetch (Except Exc (List Page))} {log : Log}
    (h : ∃ e ∈ log, isRead e = true) :
    p.Ensures recording .none anything CrawlEnd log := by
  refine (ensures_grows p log).mono fun res log' hprefix => crawlEnd_of_read ?_
  obtain ⟨e, he, hread⟩ := h
  exact ⟨e, hprefix.subset he, hread⟩

theorem crawlQueue_end {next : List String → CrawlState → Fetch (Except Exc (List Page))}
    {start : String} {log : Log} (hlog : lastFailure log = none) :
    (crawlQueue L baseUrl next [start] {}).Ensures recording .none anything CrawlEnd log := by
  unfold crawlQueue
  split
  · exact ensures_done (stable_none _) (crawlEnd_of_calm hlog)
  · exact ensures_done (stable_none _) (crawlEnd_of_calm hlog)
  · refine (guardedFetch_end hlog).bind ?_
    rintro _ log' ⟨r, rfl, hpage⟩
    dsimp only
    split
    · split
      · rename_i hfirst
        rw [Bool.and_eq_true] at hfirst
        refine ensures_done (stable_none _) fun cause hbase => Or.inl ⟨?_, _, rfl⟩
        exact (hpage.failed cause hbase.last).2.mp hfirst.2
      · rename_i hfirst
        refine ensures_done (stable_none _) fun cause hbase => Or.inr ⟨fun heq => hfirst ?_, rfl⟩
        exact (hpage.failed cause hbase.last).2.mpr heq
    · rename_i body hbody
      have hread : ∃ e ∈ log', isRead e = true := hpage.read (by rw [hbody]; rfl)
      split <;> exact ensures_of_read hread

theorem crawl_end {pageLimit : Nat} {parsed : ParseResult}
    (hparsed : L.urlparse baseUrl = .ok parsed) :
    (crawl L baseUrl pageLimit).Ensures recording .none anything CrawlEnd [] := by
  have hstart : lastFailure [] = none := rfl
  unfold crawl
  refine (checkDestination_end hstart).bind fun decision log hdecision => ?_
  split
  · rename_i hallowed
    have hcalm : lastFailure log = none :=
      hdecision.resolve_right fun h => by simp [hallowed] at h
    split
    · exact ensures_done (stable_none _) (crawlEnd_of_calm hcalm)
    · cases pageLimit with
      | zero => exact ensures_done (stable_none _) (crawlEnd_of_calm hcalm)
      | succ left => exact crawlQueue_end hcalm
  · rw [hparsed]
    refine ensures_done (stable_none _) fun cause hbase => Or.inr ⟨?_, rfl⟩
    rcases hdecision with hcalm | ⟨_, _, hresolution⟩
    · exact absurd (hcalm.symm.trans hbase.last) (by simp)
    · rintro rfl
      exact absurd (hresolution.symm.trans hbase.last) (by simp)

end Crawl

/-! ## The plugin -/

section Plugin

variable {L : SiteLib} {host : Host} {plugin : IngestWebsitePlugin} {ports : Ports}
  {timestamp : Int} {event : IngestWebsite} {s s' : Collection}
  {t : List (Event siteSignature)} {result : IngestWebsiteResult} {cause : Cause}

/-- A crawl leaves the collection as it is. -/
theorem crawl_unchanged {pageLimit : Nat} {baseUrl : String} {log : Log}
    {res : Except Exc (List Page)}
    (h : Runs (World.onLeft (siteWorld ports)) (crawl L baseUrl pageLimit) s log res s') :
    s' = s := by
  generalize crawl L baseUrl pageLimit = p at h
  induction h with
  | done a s => rfl
  | call hw _ ih => exact ih.trans hw

/-- The cleanup run starts with a read of the store. -/
theorem cleanup_starts {t : List (Event ingestSignature)} {result : IngestResult}
    (h : Runs (World.onRight (siteWorld ports)) IngestPipeline.cleanup s t result s') :
    ∃ e, e ∈ t := by
  rw [IngestPipeline.cleanup_eq] at h
  obtain ⟨_, _, _, _, rfl, _⟩ := runs_call_iff.mp h
  exact ⟨_, List.mem_cons_self ..⟩

/-- When the base page cannot be reached, the knowledge is kept exactly for a
transport error. -/
theorem failedCrawl_iff
    (hrun : Runs (siteWorld ports) (plugin.handle L host timestamp event) s t result s')
    (hbase : BaseUnreachable (leftEvents t) cause) :
    KeepsKnowledge s s' t result ↔ cause = .transport := by
  unfold IngestWebsitePlugin.handle at hrun
  cases hparsed : L.urlparse event.baseUrl with
  | error text =>
    rw [hparsed] at hrun
    obtain ⟨rfl, -, -⟩ := runs_done_iff.mp hrun
    exact absurd hbase.last (by simp [lastFailure, leftEvents])
  | ok parsed =>
    rw [hparsed] at hrun
    obtain ⟨res, s₁, t₁, t₂, rfl, hcrawl, hrest⟩ := runs_bind_iff.mp hrun
    obtain ⟨log, rfl, hlog⟩ := runs_of_inLeft hcrawl
    obtain rfl := crawl_unchanged hlog
    have hend : CrawlEnd res log := ((crawl_end hparsed).trace hlog).1
    cases res with
    | error exc =>
      obtain ⟨rfl, rfl, rfl⟩ := runs_done_iff.mp hrest
      rw [List.append_nil, leftEvents_map_inLeft] at hbase
      have hcause : cause = .transport := by
        rcases hend cause hbase with ⟨hcause, _⟩ | ⟨_, hok⟩
        · exact hcause
        · simp at hok
      refine ⟨fun _ => hcause, fun _ => ⟨rfl, rfl, fun e he c => ?_⟩⟩
      rw [List.append_nil, List.mem_map] at he
      obtain ⟨e', _, rfl⟩ := he
      exact Sum.inl_ne_inr
    | ok pages =>
      obtain ⟨ingested, s₂, t₃, t₄, rfl, hingest, hdone⟩ := runs_bind_iff.mp hrest
      obtain ⟨events, rfl, hevents⟩ := runs_of_inRight hingest
      obtain ⟨rfl, rfl, rfl⟩ := runs_done_iff.mp hdone
      rw [List.append_nil, leftEvents_append_inRight, leftEvents_map_inLeft] at hbase
      obtain ⟨hcause, hpages⟩ : cause ≠ .transport ∧ Except.ok pages = .ok [] := by
        rcases hend cause hbase with ⟨_, exc, herror⟩ | h
        · simp at herror
        · exact h
      obtain rfl := Except.ok.inj hpages
      refine ⟨fun hkeeps => ?_, fun h => absurd h hcause⟩
      obtain ⟨e, he⟩ := cleanup_starts hevents
      refine absurd rfl (hkeeps.noStoreCall e.inRight ?_ e.call)
      exact List.mem_append_right _ (List.mem_append_left _ (List.mem_map_of_mem he))

end Plugin

/-! ## A site that cannot be reached -/

/-- The standard library on the URL of one site without an address
literal. -/
def siteLib : SiteLib where
  urlsplit := fun url =>
    if url = "http://a.example/" then
      .ok ⟨"http", "a.example", "/", "", "", .ok (some "a.example"), .ok none⟩
    else .error "no such URL"
  urlunsplit := fun scheme netloc path _ _ => scheme ++ "://" ++ netloc ++ path
  urljoin := fun _ location => .ok location
  lower := asciiLower
  casefold := asciiLower
  casefold_ascii := asciiLower_ascii
  Address := Unit
  ipAddress := fun value => if value = "93.184.216.34" then some () else none
  inetAton := fun _ => none
  ipv4Mapped := fun _ => none
  addressText := fun _ => "93.184.216.34"
  addressText_ne := siteAddress_ne
  isPrivate := fun _ => false
  isLoopback := fun _ => false
  isLinkLocal := fun _ => false
  isReserved := fun _ => false
  isUnspecified := fun _ => false
  isMulticast := fun _ => false
  isGlobal := fun _ => true
  extractText := id
  extractTitle := fun _ => ""
  hrefs := fun _ => []
  decode := fun _ => ""
  urlparse := fun url =>
    if url = "http://a.example/" then .ok ⟨"http", "a.example", "/", "", "", ""⟩
    else .error "no such URL"
  geturl := fun parsed => parsed.scheme ++ "://" ++ parsed.netloc ++ parsed.path

def siteHost : Host := .ofTable [] isHexDigest_of_mem_nil

def siteEvent : IngestWebsite where
  baseUrl := "http://a.example/"
  type := "website"
  purpose := "knowledge"
  personaId := "p"

/-- A collection with one passage of the site. -/
def siteCollection : Collection where
  entries := [
    { id := "0"
      document := "text"
      metadata :=
        { documentId := some "http://a.example/", source := "s", type := "knowledge", title := ""
          embeddingType := some "chunk", chunkIndex := 0, uri := none, hierarchy := {} }
      embedding := [] }]
  nodup := by decide

/-- Ports that answer everything, and a network that answers as `net` does. -/
def siteScript (net : (c : FetchCall) → c.Answer) : Script siteSignature Collection
  | s, .inl c => (net c, s)
  | s, .inr c => steadyPorts (fun _ _ => "ok") (fun _ => [1]) s c

/-- A network in which no name is resolved. -/
def noResolution : (c : FetchCall) → c.Answer
  | .resolve _ => .error { typeName := "gaierror" }
  | .headersForRequest _ _ => .ok []
  | .credentialToken => .ok none
  | .send _ => .error { typeName := "ConnectError" }
  | .readBody _ _ => .ok (none, none)

/-- A network in which names are resolved and no connection is made. -/
def noConnection : (c : FetchCall) → c.Answer
  | .resolve _ => .ok ["93.184.216.34"]
  | .headersForRequest _ _ => .ok []
  | .credentialToken => .ok none
  | .send _ => .error { typeName := "ConnectError" }
  | .readBody _ _ => .ok (none, none)

theorem siteScript_runs (net : (c : FetchCall) → c.Answer)
    (p : Program siteSignature IngestWebsiteResult) (s : Collection) :
    Runs (siteWorld .any) p s (p.eval (siteScript net) s).2.1 (p.eval (siteScript net) s).1
      (p.eval (siteScript net) s).2.2 := by
  refine eval_runs (fun s c => ?_) p s
  cases c with
  | inl c => exact rfl
  | inr c => exact steadyPorts_portWorld (fun _ _ => trivial) (fun _ => trivial) s c

/-- The run of the plugin in a network. -/
def siteRun (net : (c : FetchCall) → c.Answer) :
    IngestWebsiteResult × List (Event siteSignature) × Collection :=
  ((IngestWebsitePlugin.handle siteLib siteHost {} 0 siteEvent).eval (siteScript net)
    siteCollection)

/-- The knowledge is kept when no connection is made. -/
theorem failedCrawl_iff_noConnection :
    KeepsKnowledge siteCollection (siteRun noConnection).2.2 (siteRun noConnection).2.1
      (siteRun noConnection).1 ↔ Cause.transport = .transport :=
  failedCrawl_iff (siteScript_runs noConnection _ _)
    ⟨by decide +kernel, by decide +kernel⟩

/-- A failed resolution empties the collection and is reported as a
success. -/
theorem knowledge_lost_noResolution :
    ∃ s t result s',
      Runs (siteWorld .any) (IngestWebsitePlugin.handle siteLib siteHost {} 0 siteEvent) s t
        result s' ∧
      BaseUnreachable (leftEvents t) .resolution ∧
      result.result = .success ∧ s.entries ≠ [] ∧ s'.entries = [] := by
  refine ⟨siteCollection, _, _, _, siteScript_runs noResolution _ _, ⟨?_, ?_⟩, ?_⟩
  · decide +kernel
  · decide +kernel
  · decide +kernel

end VirtualContributor.Plugins
