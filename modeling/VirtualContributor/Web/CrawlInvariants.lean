import VirtualContributor.Web.SiteUrls

/-!
# What every crawl keeps

`crawl_invariants`: whatever the site answers, a crawl ends, it gives at most as
many pages as it may, with different normalized URLs on the network location of
its base, and it starts at most one fetch at a URL.

`crawlSite` is the crawl as its loop reads, one turn after the other, with a check
and a fetch as one call each.  `crawl` is that program with the guard in the place
of these calls, so a run of it is a run of `crawlSite`.
-/

namespace VirtualContributor.Web

open Lib Program

/-! ## The crawl with fetches as calls -/

inductive SiteCall where
  | check (url : String)
  | fetch (url : String)

def SiteCall.Answer : SiteCall → Type
  | check _ => FetchDecision
  | fetch _ => Except Exc GuardedFetchResult

abbrev crawlSignature : Signature where
  Call := SiteCall
  Answer := SiteCall.Answer

/-- The URLs at which a fetch started, in order. -/
def fetched (t : List (Event crawlSignature)) : List String :=
  t.filterMap fun e =>
    match e.call with
    | .check _ => none
    | .fetch url => some url

/-- What a turn of the loop comes to.  `read` gives the links of the page. -/
inductive Turn where
  | skip (st : CrawlState)
  | read (st : CrawlState) (links : List String)

section Site

variable (L : SiteLib) (baseUrl : String)

/-- The program of each call. -/
def guard : (c : crawlSignature.Call) → Fetch (crawlSignature.Answer c)
  | .check url => checkDestination L.toUrlLib {} url
  | .fetch url => guardedFetch L.toUrlLib (pageOptions L baseUrl) url

/-- What a turn does with the result of its fetch. -/
def finishTurn (st : CrawlState) (normalized : String) :
    Except Exc GuardedFetchResult → Except Exc Turn
  | .error exc => .error exc
  | .ok result =>
    match result.body with
    | none =>
      if st.isFirstRequest && unreachable result then .error (crawlError normalized result)
      else .ok (.skip { st with isFirstRequest := false })
    | some body =>
      match acceptPage L baseUrl st normalized result body with
      | .error text => .error (valueError text)
      | .ok none => .ok (.skip st)
      | .ok (some (st, links)) => .ok (.read st links)

/-- One turn, for the URL that was popped. -/
def siteTurn (url : String) (st : CrawlState) : Program crawlSignature (Except Exc Turn) :=
  match turnTarget L baseUrl st.visited url with
  | .error text => done (.error (valueError text))
  | .ok none => done (.ok (.skip st))
  | .ok (some normalized) =>
    call (S := crawlSignature) (.fetch normalized) fun answer =>
      done (finishTurn L baseUrl { st with visited := st.visited ++ [normalized] } normalized answer)

def siteQueue (next : List String → CrawlState → Program crawlSignature (Except Exc (List Page))) :
    List String → CrawlState → Program crawlSignature (Except Exc (List Page))
  | [], st => done (.ok st.results)
  | url :: rest, st => (siteTurn L baseUrl url st).bind fun
    | .error exc => done (.error exc)
    | .ok (.skip st) => siteQueue next rest st
    | .ok (.read st links) => next (rest ++ links) st

def siteFrom : Nat → List String → CrawlState → Program crawlSignature (Except Exc (List Page))
  | 0, _, st => done (.ok st.results)
  | left + 1, queue, st => siteQueue L baseUrl (siteFrom left) queue st

/-- `crawl`, with a check and a fetch as calls. -/
def crawlSite (pageLimit : Nat) : Program crawlSignature (Except Exc (List Page)) :=
  call (S := crawlSignature) (.check baseUrl) fun decision =>
    if decision.allowed then
      match normalizeUrl L baseUrl with
      | .error text => done (.error (valueError text))
      | .ok start => siteFrom L baseUrl pageLimit [start] {}
    else
      match L.urlparse baseUrl with
      | .error text => done (.error (valueError text))
      | .ok _ => done (.ok [])

end Site

section Refinement

variable {L : SiteLib} {baseUrl : String}

theorem crawlQueue_eq_expand
    {next : List String → CrawlState → Fetch (Except Exc (List Page))}
    {next' : List String → CrawlState → Program crawlSignature (Except Exc (List Page))}
    (hnext : ∀ queue st, next queue st = (next' queue st).expand (guard L baseUrl))
    (queue : List String) (st : CrawlState) :
    crawlQueue L baseUrl next queue st =
      (siteQueue L baseUrl next' queue st).expand (guard L baseUrl) := by
  induction queue generalizing st with
  | nil => rfl
  | cons url rest ih =>
    unfold crawlQueue siteQueue siteTurn
    cases turnTarget L baseUrl st.visited url with
    | error text => rfl
    | ok target =>
      cases target with
      | none => exact ih st
      | some normalized =>
        refine congrArg (Program.bind _) (funext fun answer => ?_)
        cases answer with
        | error exc => rfl
        | ok result =>
          simp only [done_bind, finishTurn]
          cases result.body with
          | none =>
            dsimp only
            split
            · rfl
            · exact ih _
          | some body =>
            dsimp only
            cases acceptPage L baseUrl { st with visited := st.visited ++ [normalized] } normalized
              result body with
            | error text => rfl
            | ok accepted =>
              cases accepted with
              | none => exact ih _
              | some page => exact hnext _ _

theorem crawlFrom_eq_expand (left : Nat) (queue : List String) (st : CrawlState) :
    crawlFrom L baseUrl left queue st =
      (siteFrom L baseUrl left queue st).expand (guard L baseUrl) := by
  induction left generalizing queue st with
  | zero => rfl
  | succ left ih => exact crawlQueue_eq_expand ih queue st

/-- The crawl is the crawl of its calls. -/
theorem crawl_eq_expand (pageLimit : Nat) :
    crawl L baseUrl pageLimit = (crawlSite L baseUrl pageLimit).expand (guard L baseUrl) := by
  unfold crawl crawlSite
  refine congrArg (Program.bind _) (funext fun decision => ?_)
  dsimp only
  split
  · cases normalizeUrl L baseUrl with
    | error text => rfl
    | ok start => exact crawlFrom_eq_expand pageLimit [start] {}
  · cases L.urlparse baseUrl with
    | error text => rfl
    | ok parsed => rfl

end Refinement

/-! ## Where a fetch lands -/

/-- A hop gives a body at its own target, and redirects where the policy allows. -/
def HopLands (policy : String → Except Exc Bool) (target : String) :
    Except Exc HopOutcome → Prop
  | .error _ => True
  | .ok (.result r) => r.body.isSome = true → r.url = target
  | .ok (.redirect next _ _) => policy next = .ok true

/-- A page is read at the URL of the fetch or at one that the policy allows. -/
def Lands (policy : String → Except Exc Bool) (url : String) (r : GuardedFetchResult) : Prop :=
  r.body.isSome = true → r.url = url ∨ policy r.url = .ok true

section Landing

variable {L : UrlLib} {opts : FetchOptions} {policy : String → Except Exc Bool}

/-- No call is excluded. -/
abbrev anyCall : FetchCall → Prop := fun _ => True

theorem yields_any {α β : Type} {p : Fetch α} {f : α → Fetch β} {Q : β → Prop}
    (h : ∀ a, (f a).Yields anyCall Q) : (p.bind f).Yields anyCall Q :=
  (yields_true p).bind fun a _ => h a

theorem followRedirect_lands (hpolicy : opts.redirectPolicy = some policy) {target host : String}
    {hops : Nat} {response : Response} :
    HopLands policy target (followRedirect L opts target host hops response) := by
  have refused {status : Option Nat} {reason : RefusalCategory} :
      HopLands policy target (.ok (.result (withoutBody target status reason host hops))) :=
    fun _ => rfl
  unfold followRedirect
  dsimp only
  split
  · trivial
  · exact refused
  · rw [hpolicy]
    dsimp only
    split
    · trivial
    · assumption
    · exact refused

theorem receive_lands (hpolicy : opts.redirectPolicy = some policy) {target host : String}
    {hops : Nat} {response : Response} :
    (receive L opts target host hops response).Yields anyCall (HopLands policy target) := by
  unfold receive
  split
  · exact followRedirect_lands hpolicy
  · split
    · exact fun _ => rfl
    · dsimp only
      split
      · exact fun _ => rfl
      · refine yields_any fun answer => ?_
        cases answer with
        | error exc => trivial
        | ok read => exact fun _ => rfl

theorem fetchHop_lands (hpolicy : opts.redirectPolicy = some policy) {target : String}
    {hops : Nat} : (fetchHop L opts target hops).Yields anyCall (HopLands policy target) := by
  unfold fetchHop
  refine yields_any fun decision => ?_
  split
  · refine yields_any fun headers => ?_
    cases headers with
    | error exc => trivial
    | ok headers =>
      refine yields_any fun token => ?_
      cases token with
      | error exc => trivial
      | ok token =>
        dsimp only
        split
        · trivial
        · refine yields_any fun answer => ?_
          cases answer with
          | error exc => trivial
          | ok response => exact receive_lands hpolicy
  · exact fun _ => rfl

theorem fetchFrom_lands (hpolicy : opts.redirectPolicy = some policy) {url target : String}
    {left : Nat} (htarget : target = url ∨ policy target = .ok true) :
    (fetchFrom L opts left target).Yields anyCall
      (fun outcome => ∀ r, outcome = .ok r → Lands policy url r) := by
  induction left generalizing target with
  | zero =>
    unfold fetchFrom
    refine (fetchHop_lands hpolicy).bind fun outcome hlands => ?_
    rcases outcome with exc | (r | ⟨next, status, host⟩)
    · exact fun r heq => absurd heq nofun
    · rintro _ ⟨⟩ hbody
      rwa [hlands hbody]
    · rintro _ ⟨⟩ hbody
      exact absurd hbody nofun
  | succ left ih =>
    unfold fetchFrom
    refine (fetchHop_lands hpolicy).bind fun outcome hlands => ?_
    rcases outcome with exc | (r | ⟨next, status, host⟩)
    · exact fun r heq => absurd heq nofun
    · rintro _ ⟨⟩ hbody
      rwa [hlands hbody]
    · exact ih (.inr hlands)

theorem guardedFetch_lands (hpolicy : opts.redirectPolicy = some policy) {url : String} :
    (guardedFetch L opts url).Yields anyCall
      (fun outcome => ∀ r, outcome = .ok r → Lands policy url r) := by
  unfold guardedFetch
  refine (fetchFrom_lands hpolicy (.inl rfl)).bind fun outcome hlands => ?_
  cases outcome with
  | ok r =>
    rintro _ ⟨⟩
    exact hlands r rfl
  | error raised =>
    rintro _ ⟨⟩ hbody
    exact absurd hbody nofun

/-- A destination that is allowed has a host. -/
theorem checkDestination_host {deployment : Deployment} {url : String} :
    (checkDestination L deployment url).Yields anyCall
      (fun decision => decision.allowed = true → ∃ host, hostOf L url = .ok host ∧ host ≠ "") := by
  have refused {reason : RefusalCategory} {host : String} {P : Prop} :
      (refusal L deployment url reason host).allowed = true → P :=
    fun h => absurd h Bool.false_ne_true
  unfold checkDestination
  split
  · rename_i parts host _ hhost
    split
    · exact refused
    · split
      · exact refused
      · rename_i hne
        split
        · exact fun _ => ⟨host, hhost, hne⟩
        · exact yields_any fun answer _ => ⟨host, hhost, hne⟩
  · exact refused

end Landing

/-! ## The invariant of the loop -/

/-- A value of `normalizeUrl` on the network location of the base. -/
structure OnSite (L : SiteLib) (baseUrl url : String) : Prop where
  normalized : ∃ raw, normalizeUrl L raw = .ok url
  sameDomain : isSameDomain L baseUrl url = .ok true

/-- The local variables, and the URLs at which a fetch started. -/
structure Sound (L : SiteLib) (baseUrl : String) (st : CrawlState) (targets : List String) :
    Prop where
  targets_nodup : targets.Nodup
  targets_visited : ∀ url ∈ targets, url ∈ st.visited
  pages_nodup : (st.results.map Page.url).Nodup
  pages_visited : ∀ page ∈ st.results, page.url ∈ st.visited
  pages_onSite : ∀ page ∈ st.results, OnSite L baseUrl page.url

/-- What a turn leaves, and how many pages it adds. -/
def TurnSound (L : SiteLib) (baseUrl : String) (pages : Nat) (targets : List String) :
    Except Exc Turn → Prop
  | .error _ => targets.Nodup
  | .ok (.skip st) => Sound L baseUrl st targets ∧ st.results.length = pages
  | .ok (.read st _) => Sound L baseUrl st targets ∧ st.results.length = pages + 1

/-- How a crawl ends. -/
structure CrawlSound (L : SiteLib) (baseUrl : String) (limit : Nat) (targets : List String)
    (res : Except Exc (List Page)) : Prop where
  targets_nodup : targets.Nodup
  length_le : ∀ pages, res = .ok pages → pages.length ≤ limit
  pages_nodup : ∀ pages, res = .ok pages → (pages.map Page.url).Nodup
  pages_onSite : ∀ pages, res = .ok pages → ∀ page ∈ pages, OnSite L baseUrl page.url

/-- What a check and a fetch of the guard promise. -/
def Guarded (L : SiteLib) (baseUrl : String) : (c : SiteCall) → c.Answer → Prop
  | .check url, decision => decision.allowed = true →
      ∃ host, hostOf L.toUrlLib url = .ok host ∧ host ≠ ""
  | .fetch url, outcome => ∀ r : GuardedFetchResult, outcome = .ok r → r.body.isSome = true →
      r.url = url ∨ isSameDomain L baseUrl r.url = .ok true

section Invariant

variable {L : SiteLib} {baseUrl : String} {st : CrawlState} {targets : List String}

theorem turnTarget_eq_some {visited : List String} {url normalized : String}
    (h : turnTarget L baseUrl visited url = .ok (some normalized)) :
    normalizeUrl L url = .ok normalized ∧ normalized ∉ visited ∧
      isSameDomain L baseUrl normalized = .ok true := by
  unfold turnTarget at h
  obtain ⟨n, hnormal, h⟩ := bind_eq_ok.mp h
  split at h
  · exact absurd h nofun
  · rename_i hfresh
    obtain ⟨skipped, _, h⟩ := bind_eq_ok.mp h
    split at h
    · exact absurd h nofun
    · obtain ⟨same, hsame, h⟩ := bind_eq_ok.mp h
      split at h
      · rename_i hsame'
        cases h
        exact ⟨hnormal, hfresh, by rw [hsame, hsame']⟩
      · exact absurd h nofun

theorem acceptPage_eq_some {normalized : String} {result : GuardedFetchResult} {body : Body}
    {st' : CrawlState} {links : List String}
    (h : acceptPage L baseUrl st normalized result body = .ok (some (st', links))) :
    ∃ finalUrl, normalizeUrl L result.url = .ok finalUrl ∧
      (finalUrl = normalized ∨ finalUrl ∉ st.visited) ∧
      st'.visited = (if finalUrl = normalized then st.visited else st.visited ++ [finalUrl]) ∧
      st'.results = st.results ++ [⟨finalUrl, L.decode body⟩] := by
  unfold acceptPage at h
  obtain ⟨finalUrl, hfinal, h⟩ := bind_eq_ok.mp h
  split at h
  · exact absurd h nofun
  · rename_i hfresh
    obtain ⟨pageLinks, _, h⟩ := bind_eq_ok.mp h
    cases h
    refine ⟨finalUrl, hfinal, ?_, rfl, rfl⟩
    simpa [Decidable.imp_iff_not_or] using hfresh

theorem Sound.start : Sound L baseUrl {} [] :=
  ⟨List.nodup_nil, nofun, List.nodup_nil, nofun, nofun⟩

theorem CrawlSound.of_error {limit : Nat} (h : targets.Nodup) (exc : Exc) :
    CrawlSound L baseUrl limit targets (.error exc) := ⟨h, nofun, nofun, nofun⟩

/-- A loop that ends has only added sound pages. -/
theorem Sound.crawlSound {limit : Nat} (h : Sound L baseUrl st targets)
    (hlimit : st.results.length ≤ limit) :
    CrawlSound L baseUrl limit targets (.ok st.results) := by
  constructor
  · exact h.targets_nodup
  · rintro _ ⟨⟩
    exact hlimit
  · rintro _ ⟨⟩
    exact h.pages_nodup
  · rintro _ ⟨⟩
    exact h.pages_onSite

/-- A skipped turn changes no page. -/
theorem Sound.skip {st' : CrawlState} (h : Sound L baseUrl st targets)
    (hvisited : st'.visited = st.visited) (hresults : st'.results = st.results) :
    Sound L baseUrl st' targets := by
  constructor
  · exact h.targets_nodup
  · rw [hvisited]
    exact h.targets_visited
  · rw [hresults]
    exact h.pages_nodup
  · rw [hvisited, hresults]
    exact h.pages_visited
  · rw [hresults]
    exact h.pages_onSite

/-- A fetch starts at a URL that was not visited. -/
theorem Sound.fetch {normalized : String} (h : Sound L baseUrl st targets)
    (hfresh : normalized ∉ st.visited) :
    Sound L baseUrl { st with visited := st.visited ++ [normalized] }
      (targets ++ [normalized]) := by
  constructor
  · refine h.targets_nodup.append (List.nodup_singleton _) fun url hurl hnew => hfresh ?_
    rw [← List.mem_singleton.mp hnew]
    exact h.targets_visited url hurl
  · intro url hurl
    obtain hurl | hurl := List.mem_append.mp hurl
    · exact List.mem_append_left _ (h.targets_visited url hurl)
    · exact List.mem_append_right _ hurl
  · exact h.pages_nodup
  · exact fun page hpage => List.mem_append_left _ (h.pages_visited page hpage)
  · exact h.pages_onSite

/-- A page with a new URL on the site is added. -/
theorem Sound.read {st' : CrawlState} {page : Page} (h : Sound L baseUrl st targets)
    (hfresh : ∀ other ∈ st.results, other.url ≠ page.url) (honSite : OnSite L baseUrl page.url)
    (hvisited : ∀ url, url ∈ st'.visited ↔ url ∈ st.visited ∨ url = page.url)
    (hresults : st'.results = st.results ++ [page]) : Sound L baseUrl st' targets := by
  constructor
  · exact h.targets_nodup
  · exact fun url hurl => (hvisited url).mpr (.inl (h.targets_visited url hurl))
  · rw [hresults, List.map_append]
    refine h.pages_nodup.append (List.nodup_singleton _) fun url hurl hnew => ?_
    obtain ⟨other, hother, rfl⟩ := List.mem_map.mp hurl
    exact hfresh other hother (List.mem_singleton.mp hnew)
  · intro other hother
    rw [hresults] at hother
    obtain hother | hother := List.mem_append.mp hother
    · exact (hvisited _).mpr (.inl (h.pages_visited other hother))
    · rw [List.mem_singleton.mp hother]
      exact (hvisited _).mpr (.inr rfl)
  · intro other hother
    rw [hresults] at hother
    obtain hother | hother := List.mem_append.mp hother
    · exact h.pages_onSite other hother
    · rw [List.mem_singleton.mp hother]
      exact honSite

section Turns

variable {checkNetloc : List Char → Except String Unit} (hL : L.Urllib checkNetloc)
  (hbase : ∀ parsed, L.urlparse baseUrl = .ok parsed → parsed.netloc ≠ "")

include hL hbase

/-- The result of a fetch that started at a fresh URL of the site. -/
theorem finishTurn_sound {normalized : String} {outcome : Except Exc GuardedFetchResult}
    (h : Sound L baseUrl st targets) (hfresh : normalized ∉ st.visited)
    (hsame : isSameDomain L baseUrl normalized = .ok true)
    (hguard : Guarded L baseUrl (.fetch normalized) outcome) :
    TurnSound L baseUrl st.results.length (targets ++ [normalized])
      (finishTurn L baseUrl { st with visited := st.visited ++ [normalized] } normalized
        outcome) := by
  have hfetch := h.fetch hfresh
  cases outcome with
  | error exc => exact hfetch.targets_nodup
  | ok result =>
    unfold finishTurn
    dsimp only
    split
    · split
      · exact hfetch.targets_nodup
      · exact ⟨hfetch.skip rfl rfl, rfl⟩
    · rename_i body hbody
      split
      · exact hfetch.targets_nodup
      · exact ⟨hfetch, rfl⟩
      · rename_i st' links haccept
        obtain ⟨finalUrl, hfinal, hnew, hvisited, hresults⟩ := acceptPage_eq_some haccept
        have hlands : isSameDomain L baseUrl result.url = .ok true := by
          obtain heq | hsame' := hguard result rfl (by rw [hbody]; rfl)
          · rw [heq, hsame]
          · exact hsame'
        have hother : ∀ other ∈ st.results, other.url ≠ finalUrl := by
          rintro other hother rfl
          have hvis := h.pages_visited other hother
          obtain heq | hnot := hnew
          · exact hfresh (heq ▸ hvis)
          · exact hnot (List.mem_append_left _ hvis)
        refine ⟨hfetch.read hother
          ⟨⟨_, hfinal⟩, hL.isSameDomain_normalizeUrl hbase hlands hfinal⟩ (fun url => ?_)
          hresults, ?_⟩
        · rw [hvisited]
          split
          · rename_i heq
            subst heq
            simp
          · simp [or_assoc]
        · rw [hresults, List.length_append]
          rfl

variable {σ : Type} {W : World crawlSignature σ}
  (hW : ∀ s c r s', W s c r s' → Guarded L baseUrl c r)

include hW

/-- One turn of the loop. -/
theorem siteTurn_sound {url : String} {s s' : σ} {t : List (Event crawlSignature)}
    {outcome : Except Exc Turn} (h : Sound L baseUrl st targets)
    (hrun : Runs W (siteTurn L baseUrl url st) s t outcome s') :
    TurnSound L baseUrl st.results.length (targets ++ fetched t) outcome := by
  unfold siteTurn at hrun
  split at hrun
  · obtain ⟨rfl, rfl, _⟩ := runs_done_iff.mp hrun
    show (targets ++ []).Nodup
    rw [List.append_nil]
    exact h.targets_nodup
  · obtain ⟨rfl, rfl, _⟩ := runs_done_iff.mp hrun
    refine ⟨?_, rfl⟩
    show Sound L baseUrl st (targets ++ [])
    rw [List.append_nil]
    exact h
  · rename_i normalized htarget
    obtain ⟨_, hfresh, hsame⟩ := turnTarget_eq_some htarget
    obtain ⟨answer, s₁, t', hw, rfl, hrest⟩ := runs_call_iff.mp hrun
    obtain ⟨rfl, rfl, _⟩ := runs_done_iff.mp hrest
    exact finishTurn_sound hL hbase h hfresh hsame (hW _ _ _ _ hw)

omit hbase hL hW in
@[simp] theorem fetched_nil : fetched [] = [] := rfl

omit hbase hL hW in
@[simp] theorem fetched_append (t u : List (Event crawlSignature)) :
    fetched (t ++ u) = fetched t ++ fetched u := List.filterMap_append

/-- The turns over a queue, when what follows a page is sound. -/
theorem siteQueue_sound {limit : Nat}
    {next : List String → CrawlState → Program crawlSignature (Except Exc (List Page))}
    (hnext : ∀ {queue st targets s t res s'}, Sound L baseUrl st targets →
      Runs W (next queue st) s t res s' → CrawlSound L baseUrl (st.results.length + limit)
        (targets ++ fetched t) res)
    {queue : List String} {s s' : σ} {t : List (Event crawlSignature)}
    {res : Except Exc (List Page)} (h : Sound L baseUrl st targets)
    (hrun : Runs W (siteQueue L baseUrl next queue st) s t res s') :
    CrawlSound L baseUrl (st.results.length + (limit + 1)) (targets ++ fetched t) res := by
  induction queue generalizing st targets s t with
  | nil =>
    obtain ⟨rfl, rfl, _⟩ := runs_done_iff.mp hrun
    rw [fetched_nil, List.append_nil]
    exact h.crawlSound (Nat.le_add_right _ _)
  | cons url rest ih =>
    obtain ⟨outcome, s₁, t₁, t₂, rfl, hturn, hrest⟩ := runs_bind_iff.mp hrun
    have hsound := siteTurn_sound hL hbase hW h hturn
    rw [fetched_append, ← List.append_assoc]
    rcases outcome with exc | (st' | ⟨st', links⟩)
    · obtain ⟨rfl, rfl, _⟩ := runs_done_iff.mp hrest
      rw [fetched_nil, List.append_nil]
      exact .of_error hsound exc
    · obtain ⟨hst, hlength⟩ := hsound
      rw [← hlength]
      exact ih hst hrest
    · obtain ⟨hst, hlength⟩ := hsound
      have hlimit : st.results.length + (limit + 1) = st'.results.length + limit := by omega
      rw [hlimit]
      exact hnext hst hrest

theorem siteFrom_sound {left : Nat} {queue : List String} {s s' : σ}
    {t : List (Event crawlSignature)} {res : Except Exc (List Page)}
    (h : Sound L baseUrl st targets) (hrun : Runs W (siteFrom L baseUrl left queue st) s t res s') :
    CrawlSound L baseUrl (st.results.length + left) (targets ++ fetched t) res := by
  induction left generalizing queue st targets s t res s' with
  | zero =>
    obtain ⟨rfl, rfl, _⟩ := runs_done_iff.mp hrun
    rw [fetched_nil, List.append_nil]
    exact h.crawlSound (Nat.le_add_right _ _)
  | succ left ih => exact siteQueue_sound hL hbase hW ih h hrun

end Turns

/-- A run of the whole crawl. -/
theorem crawlSite_sound {checkNetloc : List Char → Except String Unit} (hL : L.Urllib checkNetloc)
    {σ : Type} {W : World crawlSignature σ} (hW : ∀ s c r s', W s c r s' → Guarded L baseUrl c r)
    {pageLimit : Nat} {s s' : σ} {t : List (Event crawlSignature)} {res : Except Exc (List Page)}
    (hrun : Runs W (crawlSite L baseUrl pageLimit) s t res s') :
    CrawlSound L baseUrl pageLimit (fetched t) res := by
  obtain ⟨decision, s₁, t', hw, rfl, hrest⟩ := runs_call_iff.mp hrun
  have hfetched : fetched (⟨.check baseUrl, decision⟩ :: t') = fetched t' := rfl
  rw [hfetched]
  split at hrest
  · rename_i hallowed
    split at hrest
    · obtain ⟨rfl, rfl, _⟩ := runs_done_iff.mp hrest
      exact .of_error List.nodup_nil _
    · obtain ⟨host, hhost, hne⟩ := hW _ _ _ _ hw hallowed
      have hcrawl := siteFrom_sound hL (fun parsed => hL.netloc_ne_of_hostOf hhost hne) hW .start
        hrest
      rwa [List.nil_append, List.length_nil, Nat.zero_add] at hcrawl
  · split at hrest
    · obtain ⟨rfl, rfl, _⟩ := runs_done_iff.mp hrest
      exact .of_error List.nodup_nil _
    · obtain ⟨rfl, rfl, _⟩ := runs_done_iff.mp hrest
      exact Sound.start.crawlSound (Nat.zero_le _)

/-- The guard keeps its promises in every world. -/
theorem guarded_of_through {σ : Type} {W : World fetchSignature σ} {s s' : σ}
    {c : crawlSignature.Call} {r : crawlSignature.Answer c}
    (h : W.through (guard L baseUrl) s c r s') : Guarded L baseUrl c r := by
  obtain ⟨t, hrun⟩ := h
  cases c with
  | check url => exact (checkDestination_host.calls hrun).1
  | fetch url =>
    intro result heq hbody
    obtain hsame | hpolicy := ((guardedFetch_lands rfl).calls hrun).1 result heq hbody
    · exact .inl hsame
    · refine .inr ?_
      split at hpolicy
      · rename_i same hsame
        rw [hsame, Except.ok.inj hpolicy]
      · exact absurd hpolicy nofun

end Invariant

/-! ## A site with a cycle -/

/-- The functions of a crawl, for absolute links and network locations that are
host names. -/
def cycleLib : SiteLib where
  urlsplit := fun url =>
    (Url.urlsplit (fun _ => .ok ()) url.toList).map fun parts =>
      let netloc := String.ofList parts.netloc
      { scheme := String.ofList parts.scheme, netloc := netloc, path := String.ofList parts.path
        query := String.ofList parts.query, fragment := String.ofList parts.fragment
        hostname := .ok (if netloc = "" then none else some netloc), port := .ok none }
  urlunsplit := fun scheme netloc path query fragment => String.ofList
    (Url.urlunsplit scheme.toList netloc.toList path.toList query.toList fragment.toList)
  urljoin := fun _ location => .ok location
  lower := asciiLower
  casefold := asciiLower
  casefold_ascii := asciiLower_ascii
  Address := Unit
  ipAddress := fun value => if value = "93.184.216.34" then some () else none
  inetAton := fun _ => none
  ipv4Mapped := fun _ => none
  addressText := fun _ => "93.184.216.34"
  addressText_ne := siteAddress_ne
  isPrivate := fun _ => false
  isLoopback := fun _ => false
  isLinkLocal := fun _ => false
  isReserved := fun _ => false
  isUnspecified := fun _ => false
  isMulticast := fun _ => false
  isGlobal := fun _ => true
  extractText := id
  extractTitle := fun _ => ""
  hrefs := fun _ => ["http://a.example/b/", "http://a.example/#top"]
  decode := fun _ => "page"
  urlparse := fun url => (Url.urlparse (fun _ => .ok ()) url.toList).map ParseResult.ofComponents
  geturl := fun parsed => String.ofList (Url.urlunparse parsed.components)

theorem cycleLib_urllib : cycleLib.Urllib fun _ => .ok () where
  urlparse := fun _ => rfl
  geturl := fun _ => rfl
  urlsplit := by
    rintro url parts ⟨⟩
    exact ⟨_, rfl, rfl⟩
  hostname := by
    rintro url parts ⟨⟩ hnetloc
    exact congrArg Except.ok (if_pos hnetloc)
  lower := rfl

/-- Every page of the site is read. -/
def cycleSite : Script fetchSignature Unit
  | s, .resolve _ => (.ok ["93.184.216.34"], s)
  | s, .headersForRequest _ _ => (.ok [], s)
  | s, .credentialToken => (.ok none, s)
  | s, .send _ => (.ok ⟨200, fun _ => none⟩, s)
  | s, .readBody _ _ => (.ok (some [], none), s)

/-- The run of the crawl. -/
def cycleRun : Except Exc (List Page) × Log × Unit :=
  (crawl cycleLib "http://a.example").eval cycleSite ()

example : cycleRun.1.toOption.map (List.map Page.url) =
    some ["http://a.example/", "http://a.example/b"] := by decide +kernel

end VirtualContributor.Web
