import VirtualContributor.Lib.Checks
import VirtualContributor.Web.UrlGuard

/-!
# What a guarded fetch sends

`guardedFetch_safe`: every request of `guarded_fetch` is safe, whatever the
resolver, the server and the callbacks answer.

The safety of a request is stated against the log of the calls made before it.
`hopAfter` reads the hop that a run is at off the redirects in the log, and
`answerAfter` the resolver's answer since the last request.
-/

namespace VirtualContributor.Web

open Lib Program

section Safety

variable (L : UrlLib) (opts : FetchOptions) (url : String)

/-! ## Reading the log -/

/-- The hop after one more event: an answered redirect leads to its target. -/
def nextHop (hop : String) : Event fetchSignature → String
  | ⟨.send _, .ok response⟩ =>
    if response.statusCode ∈ REDIRECT_STATUSES then
      ((redirectTarget L response hop).toOption.join).getD hop
    else hop
  | _ => hop

/-- The URL of the hop that a fetch of `url` is at. -/
def hopAfter (log : Log) : String := log.foldl (nextHop L) url

/-- The resolver's answer after one more event. -/
def nextAnswer (known : Option (String × List String)) :
    Event fetchSignature → Option (String × List String)
  | ⟨.resolve host, .ok answer⟩ => some (host, answer)
  | ⟨.send _, _⟩ => none
  | _ => known

/-- The last answer of the resolver since the last request, with its host. -/
def answerAfter (log : Log) : Option (String × List String) := log.foldl nextAnswer none

/-- The number of requests sent. -/
def requestsIn (log : Log) : Nat :=
  log.countP fun e => match e.call with | .send _ => true | _ => false

theorem hopAfter_append (log : Log) (e : Event fetchSignature) :
    hopAfter L url (log ++ [e]) = nextHop L (hopAfter L url log) e := by
  rw [hopAfter, List.foldl_append]
  rfl

theorem answerAfter_append (log : Log) (e : Event fetchSignature) :
    answerAfter (log ++ [e]) = nextAnswer (answerAfter log) e := by
  rw [answerAfter, List.foldl_append]
  rfl

theorem requestsIn_append (log log' : Log) :
    requestsIn (log ++ log') = requestsIn log + requestsIn log' :=
  List.countP_append ..

/-! ## Safe requests -/

/-- The same scheme, host and effective port. -/
def SameOrigin (target : String) (deploymentUrl : Option String) : Prop :=
  ∃ origin, normaliseOrigin L (some target) = some origin ∧
    normaliseOrigin L deploymentUrl = some origin

/-- `answer` lists the addresses that the check of `target` judged: the host
itself when it is a literal address, else the resolver's answer for it. -/
def Checked (target : String) (log : Log) (answer : List String) : Prop :=
  ∃ host, hostOf L target = .ok host ∧
    ((literalAddress L host).isSome ∧ answer = [host] ∨
      literalAddress L host = none ∧ answerAfter log = some (host, answer))

/-- The target with the address in the place of its host. -/
def PinnedTo (target requested : String) (address : L.Address) : Prop :=
  ∃ parts port, L.urlsplit target = .ok parts ∧ parts.port = .ok port ∧
    requested = L.urlunsplit parts.scheme (authority (L.addressText address) port) parts.path
      parts.query parts.fragment

/-- The token that the caller gave or that its provider returned. -/
def TokenGiven (log : Log) (token : String) : Prop :=
  opts.credentialToken = some token ∨ ⟨.credentialToken, .ok (some token)⟩ ∈ log

/-- A request that may be sent after the calls of the log. -/
structure SafeRequest (log : Log) (request : Request) : Prop where
  pinned : ∃ answer, Checked L (hopAfter L url log) log answer ∧
    (∃ value ∈ answer, ∃ address, literalAddress L value = some address ∧
      PinnedTo L (hopAfter L url log) request.url address) ∧
    ∀ value ∈ answer, ∃ address, literalAddress L value = some address ∧
      (isDeniedAddress L address = true →
        SameOrigin L (hopAfter L url log) opts.deploymentUrl)
  authorization : ∀ name value, request.headers.get? name = some value →
    asciiLower name = "authorization" →
      SameOrigin L (hopAfter L url log) opts.deploymentUrl ∧
        ∃ token, value = "Bearer " ++ token ∧ TokenGiven opts log token
  host : ∀ name value, request.headers.get? name = some value →
    asciiLower name = "host" → hostHeader L (hopAfter L url log) = .ok value
  acceptEncoding : ∀ name value, request.headers.get? name = some value →
    asciiLower name = "accept-encoding" → value = SUPPORTED_ACCEPT_ENCODINGS

/-- The guarantee of the guard: it sends safe requests only. -/
def sendsSafely : World fetchSignature Log := fun log c _ _ =>
  ∀ request, c = .send request → SafeRequest L opts url log request

/-! ## Header names -/

theorem isAscii_of_toLower {c : Char} (h : c.toLower.toNat < 128) : c.toNat < 128 := by
  unfold Char.toLower at h
  split at h
  · rename_i hupper
    have : c.toNat ≤ 'Z'.toNat := hupper.2
    exact Nat.lt_of_le_of_lt this (by decide)
  · exact h

variable {L opts url}

/-- A name that reads like a guarded one does not come from the caller. -/
theorem casefold_owned {name : String} (h : asciiLower name ∈ GUARD_OWNED_HEADERS) :
    L.casefold name ∈ GUARD_OWNED_HEADERS := by
  have hascii : ∀ text ∈ GUARD_OWNED_HEADERS, ∀ c ∈ text.toList, c.toNat < 128 := by
    have hall : ∀ text ∈ GUARD_OWNED_HEADERS, text.toList.all (·.toNat < 128) = true := by decide
    exact fun text htext c hc => of_decide_eq_true (List.all_eq_true.mp (hall text htext) c hc)
  rw [L.casefold_ascii name]
  · exact h
  · intro c hc
    refine isAscii_of_toLower (hascii _ h _ ?_)
    rw [asciiLower, String.toList_ofList]
    exact List.mem_map_of_mem hc

/-- Headers without a name that the guard owns. -/
def FromCaller (L : UrlLib) (headers : OrderedDict String String) : Prop :=
  ∀ name value, headers.get? name = some value → L.casefold name ∉ GUARD_OWNED_HEADERS

theorem fromCaller_empty : FromCaller L .empty := by
  intro name value h
  simp at h

theorem FromCaller.setAll {headers : OrderedDict String String} (h : FromCaller L headers)
    (more : List (String × String)) : FromCaller L (headers.setAll (callerHeaders L more)) := by
  intro name value hget
  rcases OrderedDict.mem_of_get?_setAll hget with hmem | hget
  · rw [callerHeaders, List.mem_filter] at hmem
    simpa using hmem.2
  · exact h name value hget

/-! ## The request of a hop -/

theorem sameOrigin_of_isDeploymentUrl {target : String} {deploymentUrl : Option String}
    (h : isDeploymentUrl L (some target) deploymentUrl = true) :
    SameOrigin L target deploymentUrl := by
  rw [isDeploymentUrl, Bool.and_eq_true, decide_eq_true_iff, Option.isSome_iff_exists] at h
  obtain ⟨⟨origin, horigin⟩, heq⟩ := h
  exact ⟨origin, horigin, heq ▸ horigin⟩

/-- With a deployment URL or none, the deployment is told by its origin. -/
theorem sameOrigin_of_isDeploymentTarget {deploymentUrl : Option String} {host target : String}
    (h : isDeploymentTarget L { url := deploymentUrl } host target = true) :
    SameOrigin L target deploymentUrl := by
  unfold isDeploymentTarget at h
  split at h
  · exact sameOrigin_of_isDeploymentUrl h
  · simp [isDeploymentHost, normaliseHost] at h

/-- An accepted answer: every address in it was read and, outside the
deployment, is not denied. -/
theorem checkAnswer_ok {deploymentTarget : Bool} {answer : List String}
    {addresses : List L.Address} (h : checkAnswer L deploymentTarget answer = .ok addresses) :
    addresses.length = answer.length ∧
      (∀ value ∈ answer, ∃ address, literalAddress L value = some address ∧
        (isDeniedAddress L address = true → deploymentTarget = true)) ∧
      ∀ address ∈ addresses, ∃ value ∈ answer, literalAddress L value = some address := by
  induction answer generalizing addresses with
  | nil =>
    obtain rfl : [] = addresses := by simpa [checkAnswer] using h
    simp
  | cons value rest ih =>
    rw [checkAnswer] at h
    split at h
    · simp at h
    · rename_i address haddress
      split at h
      · simp at h
      · rename_i hdenied
        cases hrest : checkAnswer L deploymentTarget rest with
        | error reason => simp [hrest, Except.map] at h
        | ok others =>
          obtain rfl : address :: others = addresses := by simpa [hrest, Except.map] using h
          obtain ⟨hlength, hall, hsource⟩ := ih hrest
          refine ⟨by simp [hlength], List.forall_mem_cons.mpr ⟨⟨address, haddress, ?_⟩, hall⟩,
            List.forall_mem_cons.mpr ⟨⟨value, List.mem_cons_self .., haddress⟩, ?_⟩⟩
          · intro hdeny
            by_contra hne
            simp [hne, hdeny] at hdenied
          · intro a ha
            obtain ⟨v, hv, hva⟩ := hsource a ha
            exact ⟨v, List.mem_cons_of_mem _ hv, hva⟩

/-- What a positive decision on a hop rests on. -/
structure Approved (L : UrlLib) (opts : FetchOptions) (target : String) (log : Log)
    (decision : FetchDecision) : Prop where
  judged : ∃ answer, Checked L target log answer ∧
    (∃ value ∈ answer, ∃ address, literalAddress L value = some address ∧
      decision.address = some (L.addressText address)) ∧
    ∀ value ∈ answer, ∃ address, literalAddress L value = some address ∧
      (isDeniedAddress L address = true → SameOrigin L target opts.deploymentUrl)

/-- Events that answer no resolution and send nothing keep a decision. -/
theorem Approved.of_answer_eq {target : String} {log log' : Log} {decision : FetchDecision}
    (h : Approved L opts target log decision) (heq : answerAfter log' = answerAfter log) :
    Approved L opts target log' decision := by
  obtain ⟨answer, ⟨host, hhost, hchecked⟩, hrest⟩ := h.judged
  exact ⟨answer, ⟨host, hhost, heq ▸ hchecked⟩, hrest⟩

theorem approved_of_decideLiteral {target host : String} {log : Log} {literal : L.Address}
    (hhost : hostOf L target = .ok host) (hliteral : literalAddress L host = some literal)
    (h : (decideLiteral L { url := opts.deploymentUrl } target host literal).allowed = true) :
    Approved L opts target log
      (decideLiteral L { url := opts.deploymentUrl } target host literal) := by
  dsimp only [decideLiteral] at h ⊢
  split at h
  · exact absurd h Bool.false_ne_true
  · rename_i hdenied
    rw [if_neg hdenied]
    refine ⟨[host], ⟨host, hhost, Or.inl ⟨by simp [hliteral], rfl⟩⟩,
      ⟨host, List.mem_singleton_self _, literal, hliteral, rfl⟩, ?_⟩
    intro value hvalue
    obtain rfl := List.mem_singleton.mp hvalue
    refine ⟨literal, hliteral, fun hdeny => ?_⟩
    have htarget : isDeploymentTarget L { url := opts.deploymentUrl } value target = true := by
      by_contra hne
      simp [hne, hdeny] at hdenied
    exact sameOrigin_of_isDeploymentTarget htarget

theorem approved_of_decideAnswer {target host : String} {log : Log}
    {answer : Except Exc (List String)} (hhost : hostOf L target = .ok host)
    (hliteral : literalAddress L host = none)
    (h : (decideAnswer L { url := opts.deploymentUrl } target host answer).allowed = true) :
    Approved L opts target (log ++ [⟨.resolve host, answer⟩])
      (decideAnswer L { url := opts.deploymentUrl } target host answer) := by
  cases answer with
  | error exc => exact absurd h Bool.false_ne_true
  | ok resolved =>
    dsimp only [decideAnswer] at h ⊢
    cases hcheck : checkAnswer L
        (isDeploymentTarget L { url := opts.deploymentUrl } host target) resolved with
    | error reason => simp [hcheck, refusal] at h
    | ok addresses =>
      cases addresses with
      | nil => simp [hcheck, refusal] at h
      | cons address others =>
        obtain ⟨_, hall, hsource⟩ := checkAnswer_ok hcheck
        obtain ⟨value, hvalue, haddress⟩ := hsource address (List.mem_cons_self ..)
        refine ⟨resolved, ⟨host, hhost, Or.inr ⟨hliteral, answerAfter_append ..⟩⟩,
          ⟨value, hvalue, address, haddress, rfl⟩, fun v hv => ?_⟩
        obtain ⟨a, ha, hdeny⟩ := hall v hv
        exact ⟨a, ha, fun hd => sameOrigin_of_isDeploymentTarget (hdeny hd)⟩

/-- The request built on a positive decision is safe. -/
theorem buildRequest_safe {target : String} {log : Log} {decision : FetchDecision}
    {headers : OrderedDict String String} {token : Option String} {request : Request}
    (hhop : hopAfter L url log = target) (happroved : Approved L opts target log decision)
    (hheaders : FromCaller L headers) (htoken : ∀ t, token = some t → TokenGiven opts log t)
    (h : buildRequest L opts target decision headers token = .ok request) :
    SafeRequest L opts url log request := by
  obtain ⟨host, hhost, hrest⟩ := bind_eq_ok.mp h
  obtain ⟨requested, hrequested, hbuilt⟩ := bind_eq_ok.mp hrest
  obtain rfl := Except.ok.inj hbuilt
  subst hhop
  -- a guarded name is read as the guard set it
  have howned {name value : String} (hname : asciiLower name ∈ GUARD_OWNED_HEADERS)
      (hget : (if truthy token && shouldAttachCredentials L (hopAfter L url log)
          opts.deploymentUrl then
        ((headers.set "Accept-Encoding" SUPPORTED_ACCEPT_ENCODINGS).set "Host" host).set
          "Authorization" ("Bearer " ++ token.getD "")
        else (headers.set "Accept-Encoding" SUPPORTED_ACCEPT_ENCODINGS).set "Host" host).get?
          name = some value) :
      (name = "Authorization" ∧ value = "Bearer " ++ token.getD "" ∧ truthy token = true ∧
        shouldAttachCredentials L (hopAfter L url log) opts.deploymentUrl = true) ∨
      (name = "Host" ∧ value = host) ∨
      (name = "Accept-Encoding" ∧ value = SUPPORTED_ACCEPT_ENCODINGS) := by
    have hcaller : headers.get? name ≠ some value := fun hget =>
      hheaders name value hget (casefold_owned hname)
    by_cases hattach : (truthy token && shouldAttachCredentials L (hopAfter L url log)
        opts.deploymentUrl) = true
    · rw [if_pos hattach] at hget
      rw [Bool.and_eq_true] at hattach
      simp only [OrderedDict.get?_set] at hget
      split_ifs at hget with h₁ h₂ h₃
      · exact Or.inl ⟨h₁, (Option.some.inj hget).symm, hattach⟩
      · exact Or.inr (Or.inl ⟨h₂, (Option.some.inj hget).symm⟩)
      · exact Or.inr (Or.inr ⟨h₃, (Option.some.inj hget).symm⟩)
      · exact absurd hget hcaller
    · rw [if_neg hattach] at hget
      simp only [OrderedDict.get?_set] at hget
      split_ifs at hget with h₂ h₃
      · exact Or.inr (Or.inl ⟨h₂, (Option.some.inj hget).symm⟩)
      · exact Or.inr (Or.inr ⟨h₃, (Option.some.inj hget).symm⟩)
      · exact absurd hget hcaller
  refine ⟨?_, fun name value hget hname => ?_, fun name value hget hname => ?_,
    fun name value hget hname => ?_⟩
  · obtain ⟨answer, hchecked, ⟨value, hvalue, address, haddress, hpinned⟩, hall⟩ :=
      happroved.judged
    refine ⟨answer, hchecked, ⟨value, hvalue, address, haddress, ?_⟩, hall⟩
    have hsome : (some (L.addressText address)).filter (fun a => decide (a ≠ ""))
        = some (L.addressText address) := by
      simp [L.addressText_ne]
    rw [hpinned, pinnedTarget, hsome] at hrequested
    obtain ⟨parts, hparts, hrequested⟩ := bind_eq_ok.mp hrequested
    obtain ⟨port, hport, hrequested⟩ := bind_eq_ok.mp hrequested
    exact ⟨parts, port, hparts, hport, (Except.ok.inj hrequested).symm⟩
  · rcases howned (by rw [hname]; decide) hget with ⟨_, rfl, htruthy, hattach⟩ | h | h
    · refine ⟨sameOrigin_of_isDeploymentUrl hattach, token.getD "", rfl, ?_⟩
      cases token with
      | none => exact absurd htruthy Bool.false_ne_true
      | some t => exact htoken t rfl
    · rw [h.1] at hname
      exact absurd hname (by decide)
    · rw [h.1] at hname
      exact absurd hname (by decide)
  · rcases howned (by rw [hname]; decide) hget with h | h | h
    · rw [h.1] at hname
      exact absurd hname (by decide)
    · rw [h.2]
      exact hhost
    · rw [h.1] at hname
      exact absurd hname (by decide)
  · rcases howned (by rw [hname]; decide) hget with h | h | h
    · rw [h.1] at hname
      exact absurd hname (by decide)
    · rw [h.1] at hname
      exact absurd hname (by decide)
    · exact h.2

/-! ## The guard against the log -/

/-- The state of a fetch within one hop. -/
structure AtHop (L : UrlLib) (url target : String) (n : Nat) (log : Log) : Prop where
  hop : hopAfter L url log = target
  sent : requestsIn log = n

/-- Events that send nothing stay at the hop. -/
theorem AtHop.append {target : String} {n : Nat} {log : Log} {c : FetchCall} {r : c.Answer}
    (h : AtHop L url target n log) (hc : ∀ request, c ≠ .send request) :
    AtHop L url target n (log ++ [⟨c, r⟩]) := by
  constructor
  · rw [hopAfter_append, h.hop]
    cases c with
    | send request => exact absurd rfl (hc request)
    | _ => rfl
  · rw [requestsIn_append, h.sent]
    cases c with
    | send request => exact absurd rfl (hc request)
    | _ => rfl

/-- Calls other than a request owe nothing. -/
theorem sendsSafely_of_not_send {log log' : Log} {c : FetchCall} {r : c.Answer}
    (h : ∀ request, c ≠ .send request) : sendsSafely L opts url log c r log' :=
  fun request hc => absurd hc (h request)

theorem checkDestination_ensures {target : String} {n : Nat} {log : Log}
    (h : AtHop L url target n log) :
    (checkDestination L { url := opts.deploymentUrl } target).Ensures recording .none
      (sendsSafely L opts url) (fun decision log' => AtHop L url target n log' ∧
        (decision.allowed = true → Approved L opts target log' decision)) log := by
  have refused (reason : RefusalCategory) (host : String) :
      (Program.done (refusal L { url := opts.deploymentUrl } target reason host)).Ensures
        recording .none (sendsSafely L opts url) (fun decision log' => AtHop L url target n log' ∧
          (decision.allowed = true → Approved L opts target log' decision)) log :=
    ensures_done (stable_none _) ⟨h, fun hallowed => absurd hallowed Bool.false_ne_true⟩
  unfold checkDestination
  split
  · rename_i parts host _ hhost
    split
    · exact refused _ _
    · split
      · exact refused _ _
      · split
        · rename_i literal hliteral
          exact ensures_done (stable_none _)
            ⟨h, fun hallowed => approved_of_decideLiteral hhost hliteral hallowed⟩
        · rename_i hliteral
          refine ensures_record (fun _ => sendsSafely_of_not_send fun _ => FetchCall.noConfusion)
            fun answer => ensures_done (stable_none _) ⟨h.append fun _ => FetchCall.noConfusion,
              fun hallowed => approved_of_decideAnswer hhost hliteral hallowed⟩
  · exact refused _ _

theorem collectHeaders_ensures {target : String} {n : Nat} {log : Log} {decision : FetchDecision}
    (h : AtHop L url target n log) (happroved : Approved L opts target log decision) :
    (collectHeaders L opts target decision).Ensures recording .none (sendsSafely L opts url)
      (fun headers log' => AtHop L url target n log' ∧ Approved L opts target log' decision ∧
        ∀ hs, headers = .ok hs → FromCaller L hs) log := by
  have hbase : FromCaller L (OrderedDict.empty.setAll (callerHeaders L opts.requestHeaders)) :=
    fromCaller_empty.setAll _
  unfold collectHeaders
  dsimp only
  split
  · refine ensures_record (fun _ => sendsSafely_of_not_send fun _ => FetchCall.noConfusion)
      fun answer => ?_
    have hat : AtHop L url target n (log ++ [⟨.headersForRequest target decision, answer⟩]) :=
      h.append fun _ => FetchCall.noConfusion
    have happroved' : Approved L opts target
        (log ++ [⟨.headersForRequest target decision, answer⟩]) decision :=
      happroved.of_answer_eq (answerAfter_append ..)
    cases answer with
    | error exc =>
      exact ensures_done (stable_none _) ⟨hat, happroved', fun hs heq => by simp at heq⟩
    | ok more =>
      refine ensures_done (stable_none _) ⟨hat, happroved', fun hs heq => ?_⟩
      obtain rfl := Except.ok.inj heq
      exact hbase.setAll more
  · refine ensures_done (stable_none _) ⟨h, happroved, fun hs heq => ?_⟩
    obtain rfl := Except.ok.inj heq
    exact hbase

theorem currentToken_ensures {target : String} {n : Nat} {log : Log} {decision : FetchDecision}
    (h : AtHop L url target n log) (happroved : Approved L opts target log decision) :
    (currentToken opts).Ensures recording .none (sendsSafely L opts url)
      (fun token log' => AtHop L url target n log' ∧ Approved L opts target log' decision ∧
        ∀ t, token = .ok (some t) → TokenGiven opts log' t) log := by
  unfold currentToken
  split
  · refine ensures_record (fun _ => sendsSafely_of_not_send fun _ => FetchCall.noConfusion)
      fun answer => ensures_done (stable_none _) ⟨h.append fun _ => FetchCall.noConfusion,
        happroved.of_answer_eq (answerAfter_append ..), fun t heq => ?_⟩
    subst heq
    exact Or.inr (List.mem_append_right _ (List.mem_singleton_self _))
  · exact ensures_done (stable_none _)
      ⟨h, happroved, fun t heq => Or.inl (Except.ok.inj heq)⟩

/-- A redirect leads to the hop that the log tells. -/
theorem redirect_of_followRedirect {target host next nextHost : String} {hops status : Nat}
    {response : Response}
    (h : followRedirect L opts target host hops response = .ok (.redirect next status nextHost)) :
    redirectTarget L response target = .ok (some next) := by
  unfold followRedirect at h
  dsimp only at h
  split at h
  · simp at h
  · simp at h
  · rename_i next' hnext
    split at h
    · simp at h
      rw [hnext, h.1]
    · split at h
      · simp at h
      · simp at h
        rw [hnext, h.1]
      · simp at h

/-- What a hop leaves: at most one request more, and the next hop of a
redirect. -/
structure HopDone (L : UrlLib) (url : String) (n : Nat) (outcome : Except Exc HopOutcome)
    (log : Log) : Prop where
  sent : requestsIn log ≤ n + 1
  next : ∀ next status host, outcome = .ok (.redirect next status host) →
    hopAfter L url log = next

theorem receive_ensures {target host : String} {hops n : Nat} {log : Log} {request : Request}
    {response : Response} (h : AtHop L url target n log) :
    (receive L opts target host hops response).Ensures recording .none (sendsSafely L opts url)
      (fun outcome log' => HopDone L url n outcome log')
      (log ++ [⟨.send request, .ok response⟩]) := by
  have hsent : requestsIn (log ++ [⟨.send request, .ok response⟩]) ≤ n + 1 := by
    rw [requestsIn_append, h.sent]
    exact Nat.le_refl _
  have plain {r : GuardedFetchResult} {log' : Log} (hlog : requestsIn log' ≤ n + 1) :
      HopDone L url n (.ok (.result r)) log' := ⟨hlog, fun _ _ _ heq => by simp at heq⟩
  unfold receive
  split
  · rename_i hstatus
    refine ensures_done (stable_none _) ⟨hsent, fun next status host' heq => ?_⟩
    rw [hopAfter_append, h.hop]
    simp only [nextHop, if_pos hstatus, redirect_of_followRedirect heq]
    rfl
  · split
    · exact ensures_done (stable_none _) (plain hsent)
    · dsimp only
      split
      · exact ensures_done (stable_none _) (plain hsent)
      · refine ensures_record (fun _ => sendsSafely_of_not_send fun _ => FetchCall.noConfusion)
          fun answer => ?_
        have hread : requestsIn (log ++ [⟨.send request, .ok response⟩] ++
            [⟨.readBody response (contentTypeOf L response), answer⟩]) ≤ n + 1 := by
          rw [requestsIn_append]
          exact hsent
        cases answer with
        | error exc =>
          exact ensures_done (stable_none _) ⟨hread, fun _ _ _ heq => by simp at heq⟩
        | ok body => exact ensures_done (stable_none _) (plain hread)

theorem fetchHop_ensures {target : String} {n hops : Nat} {log : Log}
    (h : AtHop L url target n log) :
    (fetchHop L opts target hops).Ensures recording .none (sendsSafely L opts url)
      (fun outcome log' => HopDone L url n outcome log') log := by
  have stopped {outcome : Except Exc HopOutcome} {log' : Log} (hat : AtHop L url target n log')
      (hout : ∀ next status host, outcome ≠ .ok (.redirect next status host)) :
      (Program.done outcome).Ensures recording .none (sendsSafely L opts url)
        (fun outcome log' => HopDone L url n outcome log') log' :=
    ensures_done (stable_none _)
      ⟨hat.sent ▸ Nat.le_succ _, fun next status host heq => absurd heq (hout next status host)⟩
  unfold fetchHop
  refine (checkDestination_ensures h).bind fun decision log₁ ⟨h₁, happroved⟩ => ?_
  dsimp only
  split
  · rename_i hallowed
    refine (collectHeaders_ensures h₁ (happroved hallowed)).bind
      fun headers log₂ ⟨h₂, happroved₂, hheaders⟩ => ?_
    cases headers with
    | error exc => exact stopped h₂ (by simp)
    | ok headers =>
      refine (currentToken_ensures h₂ happroved₂).bind fun token log₃ ⟨h₃, happroved₃, htoken⟩ => ?_
      cases token with
      | error exc => exact stopped h₃ (by simp)
      | ok token =>
        dsimp only
        split
        · exact stopped h₃ (by simp)
        · rename_i prepared hprepared
          have hsafe : SafeRequest L opts url log₃ prepared :=
            buildRequest_safe h₃.hop happroved₃ (hheaders headers rfl)
              (fun t ht => htoken t (ht ▸ rfl)) hprepared
          refine ensures_record (fun _ request hc => ?_) fun answer => ?_
          · obtain rfl := FetchCall.send.inj hc
            exact hsafe
          · cases answer with
            | error exc =>
              refine ensures_done (stable_none _) ⟨?_, fun _ _ _ heq => by simp at heq⟩
              rw [requestsIn_append, h₃.sent]
              exact Nat.le_refl _
            | ok response => exact receive_ensures h₃
  · exact stopped h₁ (by simp)

theorem fetchFrom_ensures {left n : Nat} {target : String} {log : Log}
    (h : AtHop L url target n log) :
    (fetchFrom L opts left target).Ensures recording .none (sendsSafely L opts url)
      (fun _ log' => requestsIn log' ≤ n + left + 1) log := by
  induction left generalizing target n log with
  | zero =>
    unfold fetchFrom
    refine (fetchHop_ensures h).bind fun outcome log' hdone => ?_
    rcases outcome with exc | (r | ⟨next, status, host⟩) <;>
      exact ensures_done (stable_none _) hdone.sent
  | succ left ih =>
    unfold fetchFrom
    refine (fetchHop_ensures h).bind fun outcome log' hdone => ?_
    have hsent := hdone.sent
    rcases outcome with exc | (r | ⟨next, status, host⟩)
    · exact ensures_done (stable_none _) (by omega)
    · exact ensures_done (stable_none _) (by omega)
    · refine (ih ⟨hdone.next next status host rfl, rfl⟩).mono fun _ log'' hlog => ?_
      omega

theorem guardedFetch_ensures :
    (guardedFetch L opts url).Ensures recording .none (sendsSafely L opts url)
      (fun result log' => (∃ r, result = .ok r) ∧ requestsIn log' ≤ MAX_REDIRECT_HOPS + 1) [] := by
  have hstart : AtHop L url url 0 [] := ⟨rfl, rfl⟩
  unfold guardedFetch
  refine (fetchFrom_ensures hstart).bind fun outcome log' hsent => ?_
  rw [Nat.zero_add] at hsent
  cases outcome with
  | ok r => exact ensures_done (stable_none _) ⟨⟨r, rfl⟩, hsent⟩
  | error raised => exact ensures_done (stable_none _) ⟨⟨_, rfl⟩, hsent⟩

/-- Every request of a guarded fetch is safe, there are at most
`MAX_REDIRECT_HOPS + 1` of them, and the call returns a result. -/
theorem guardedFetch_safe {σ : Type} {W : World fetchSignature σ} {s s' : σ} {t : Log}
    {result : Except Exc GuardedFetchResult}
    (hrun : Runs W (guardedFetch L opts url) s t result s') :
    (∀ pre e post request, t = pre ++ e :: post → e.call = .send request →
      SafeRequest L opts url pre request) ∧
    requestsIn t ≤ MAX_REDIRECT_HOPS + 1 ∧ ∃ r, result = .ok r := by
  obtain ⟨⟨hok, hsent⟩, hsafe⟩ := guardedFetch_ensures.trace hrun
  refine ⟨fun pre e post request ht hcall => ?_, hsent, hok⟩
  exact hsafe pre e post ht request hcall

end Safety

/-! ## A redirect to the deployment -/

/-- The split of `scheme://host/path`, for plain texts. -/
def plainSplit (scheme host path : String) : SplitResult :=
  ⟨scheme, host, path, "", "", .ok (some host), .ok none⟩

/-- The standard library on two URLs and two addresses, one public and one
private. -/
def hubLib : UrlLib where
  urlsplit := fun url =>
    if url = "http://a.example/x" then .ok (plainSplit "http" "a.example" "/x")
    else if url = "https://hub.example/y" then .ok (plainSplit "https" "hub.example" "/y")
    else .error "no such URL"
  urlunsplit := fun scheme netloc path _ _ => scheme ++ "://" ++ netloc ++ path
  urljoin := fun _ location => .ok location
  lower := asciiLower
  casefold := asciiLower
  casefold_ascii := asciiLower_ascii
  Address := Bool
  ipAddress := fun value =>
    if value = "93.184.216.34" then some true
    else if value = "10.0.0.5" then some false
    else none
  inetAton := fun _ => none
  ipv4Mapped := fun _ => none
  addressText := fun address => if address then "93.184.216.34" else "10.0.0.5"
  addressText_ne := by decide
  isPrivate := fun address => !address
  isLoopback := fun _ => false
  isLinkLocal := fun _ => false
  isReserved := fun _ => false
  isUnspecified := fun _ => false
  isMulticast := fun _ => false
  isGlobal := fun address => address

/-- A fetch with a token for the deployment. -/
def hubOptions : FetchOptions where
  maxBytes := 100
  deploymentUrl := some "https://hub.example/y"
  credentialToken := some "t"
  requestHeaders := [("authorization", "Bearer x"), ("User-Agent", "u")]

/-- A public page that redirects to the deployment, which has a private
address.  The state counts the requests. -/
def hubServer : Script fetchSignature Nat
  | n, .resolve host => (.ok [if host = "a.example" then "93.184.216.34" else "10.0.0.5"], n)
  | n, .headersForRequest _ _ => (.ok [], n)
  | n, .credentialToken => (.ok none, n)
  | 0, .send _ => (.ok ⟨302, fun name =>
      if name = "location" then some "https://hub.example/y" else none⟩, 1)
  | n + 1, .send _ => (.ok ⟨200, fun _ => none⟩, n + 2)
  | n, .readBody _ _ => (.ok (some [], none), n)

/-- The calls of the fetch. -/
def hubLog : Log := ((guardedFetch hubLib hubOptions "http://a.example/x").eval hubServer 0).2.1

/-- The token goes to the second hop only. -/
example : (hubLog.filterMap fun e => match e.call with
      | .send request => some (request.url, request.headers.get? "Authorization")
      | _ => none)
    = [("http://93.184.216.34/x", none), ("https://10.0.0.5/y", some "Bearer t")] := by
  decide +kernel

theorem guardedFetch_safe_hub :
    (∀ pre e post request, hubLog = pre ++ e :: post → e.call = .send request →
      SafeRequest hubLib hubOptions "http://a.example/x" pre request) ∧
    requestsIn hubLog ≤ MAX_REDIRECT_HOPS + 1 ∧
    ∃ r, ((guardedFetch hubLib hubOptions "http://a.example/x").eval hubServer 0).1 = .ok r :=
  guardedFetch_safe (eval_runs (W := hubServer.world) (fun _ _ => rfl) _ _)

end VirtualContributor.Web
