import VirtualContributor.Messaging.Handler

/-!
# The deliveries of a query

A query is delivered, and perhaps republished and delivered again.
`Deliveries` is the chain of deliveries of one message under the assumptions
that the broker does not redeliver by itself and that the retry header is
written by the handler only.

* `delivery_spec`: what one delivery does.
* `Chain`: the invariant of the chain, and `Deliveries.chain`.
* `delivery_chain`: what the sender of the query can rely on.
-/

namespace VirtualContributor.Messaging

open Lib Program

variable {Input : Type}

/-! ## Reading a trace -/

/-- The calls of one or more deliveries, in order. -/
abbrev Trace (Input : Type) := List (Event (handlerSignature Input))

/-- The envelope that an event published. -/
def published : Event (handlerSignature Input) → Option (Envelope Input)
  | ⟨.publish envelope, .ok _⟩ => some envelope
  | _ => none

/-- Whether an event is a failed publication of a result. -/
def publishFailed : Event (handlerSignature Input) → Bool
  | ⟨.publish _, .error _⟩ => true
  | _ => false

/-- The headers with which an event republished the message. -/
def republished : Event (handlerSignature Input) → Option Headers
  | ⟨.republish _ headers, .ok _⟩ => some headers
  | _ => none

/-- Whether an event ran the plugin. -/
def ranPlugin : Event (handlerSignature Input) → Bool
  | ⟨.handle _, _⟩ => true
  | _ => false

/-- Whether an event tried to settle the message. -/
def settles : Event (handlerSignature Input) → Bool
  | ⟨.ack, _⟩ => true
  | ⟨.reject, _⟩ => true
  | _ => false

/-! ## One delivery -/

section Delivery

variable {σ : Type} {W : World (handlerSignature Input) σ} {s s' : σ} {t : Trace Input}
  {router : Router Input} {config : HandlerConfig} {body : Json} {headers : Headers}

/-- Publishing an error makes one attempt, or none without an event and a
text. -/
theorem publishError_spec {event : Option (InboundEvent Input)} {errorText : Option String}
    {b : Bool} (h : Runs W (publishError event errorText) s t b s') :
    (t = [] ∧ b = false ∧ ¬ (event.isSome = true ∧ truthy errorText = true)) ∨
      ∃ envelope r, t = [⟨.publish envelope, r⟩] ∧ (b = true ↔ ∃ u, r = .ok u) := by
  unfold publishError at h
  cases event with
  | none =>
    obtain ⟨rfl, rfl, -⟩ := runs_done_iff.mp h
    exact Or.inl ⟨rfl, rfl, by simp⟩
  | some event =>
    dsimp only at h
    split at h
    · obtain ⟨r, s₁, t', _, rfl, hrest⟩ := runs_call_iff.mp h
      cases r with
      | ok u =>
        obtain ⟨rfl, rfl, -⟩ := runs_done_iff.mp hrest
        exact Or.inr ⟨_, _, rfl, fun _ => ⟨u, rfl⟩, fun _ => rfl⟩
      | error exc =>
        obtain ⟨rfl, rfl, -⟩ := runs_done_iff.mp hrest
        exact Or.inr ⟨_, _, rfl, by simp⟩
    · rename_i htext
      obtain ⟨rfl, rfl, -⟩ := runs_done_iff.mp h
      exact Or.inl ⟨rfl, rfl, fun hboth => htext hboth.2⟩

/-- What a part of a delivery does: it publishes or republishes, and settles. -/
structure Disposes (config : HandlerConfig) (headers : Headers) (answers : Prop)
    (t : Trace Input) : Prop where
  settled : t.countP settles ≤ 1
  outcome : (t.filterMap published).length + (t.filterMap republished).length ≤ 1
  retried : ∀ h ∈ t.filterMap republished,
    h.retryCount = some (headers.retryCount.getD 0 + 1) ∧
      headers.retryCount.getD 0 < config.rabbitmqMaxRetries - 1
  answered : answers → (∀ e ∈ t, publishFailed e = false) →
    (t.filterMap published).length + (t.filterMap republished).length = 1

theorem reject_spec {u : Unit} (h : Runs W (messageReject.bind fun _ => done ()) s t u s') :
    ∃ r, t = [⟨.reject, r⟩] := by
  obtain ⟨r, s₁, t', _, rfl, hrest⟩ := runs_call_iff.mp h
  obtain ⟨rfl, -, -⟩ := runs_done_iff.mp hrest
  exact ⟨r, rfl⟩

/-- A terminal message is acknowledged or rejected. -/
theorem settlement_spec {acknowledge : Bool} {u : Unit}
    (h : Runs W (if acknowledge then messageAck.bind fun _ => done ()
      else messageReject.bind fun _ => done ()) s t u s') :
    (∃ r, t = [⟨.ack, r⟩]) ∨ ∃ r, t = [⟨.reject, r⟩] := by
  cases acknowledge with
  | true =>
    obtain ⟨r, s₁, t', _, rfl, hrest⟩ := runs_call_iff.mp h
    obtain ⟨rfl, -, -⟩ := runs_done_iff.mp hrest
    exact Or.inl ⟨r, rfl⟩
  | false => exact Or.inr (reject_spec h)

theorem retryOrReject_spec {event : Option (InboundEvent Input)} {errorText : Option String}
    {forceTerminal acknowledgeTerminal : Bool} {u : Unit}
    (h : Runs W (retryOrReject config headers body event errorText forceTerminal
      acknowledgeTerminal) s t u s') :
    t.countP ranPlugin = 0 ∧
      Disposes config headers (event.isSome = true ∧ truthy errorText = true) t := by
  unfold retryOrReject at h
  dsimp only at h
  split at h
  · rename_i hretry
    rw [Bool.and_eq_true, decide_eq_true_iff] at hretry
    obtain ⟨r, s₁, t', _, rfl, hrest⟩ := runs_call_iff.mp h
    cases r with
    | ok _ =>
      obtain ⟨r, rfl⟩ := reject_spec hrest
      refine ⟨rfl, le_rfl, le_rfl, fun h hmem => ?_, fun _ _ => rfl⟩
      obtain rfl := List.mem_singleton.mp hmem
      exact ⟨rfl, hretry.2⟩
    | error exc =>
      have hrest : Runs W ((publishError event errorText).bind fun _ =>
        messageReject.bind fun _ => done ()) s₁ t' u s' := hrest
      obtain ⟨b, s₂, t₁, t₂, rfl, hpublish, hreject⟩ := runs_bind_iff.mp hrest
      obtain ⟨r, rfl⟩ := reject_spec hreject
      rcases publishError_spec hpublish with ⟨rfl, -, hnone⟩ | ⟨envelope, r', rfl, -⟩
      · exact ⟨rfl, le_rfl, Nat.zero_le 1, by simp [republished],
          fun hboth => absurd hboth hnone⟩
      · cases r' with
        | ok u => exact ⟨rfl, le_rfl, le_rfl, by simp [republished], fun _ _ => rfl⟩
        | error exc => exact ⟨rfl, le_rfl, Nat.zero_le 1, by simp [republished],
            fun _ hok => by simp [publishFailed] at hok⟩
  · obtain ⟨b, s₂, t₁, t₂, rfl, hpublish, hsettle⟩ := runs_bind_iff.mp h
    have hsettle := settlement_spec hsettle
    rcases publishError_spec hpublish with ⟨rfl, -, hnone⟩ | ⟨envelope, r', rfl, -⟩
    · rcases hsettle with ⟨r, rfl⟩ | ⟨r, rfl⟩ <;>
        exact ⟨rfl, le_rfl, Nat.zero_le 1, by simp [republished],
          fun hboth => absurd hboth hnone⟩
    · rcases hsettle with ⟨r, rfl⟩ | ⟨r, rfl⟩ <;> cases r' with
      | ok u => exact ⟨rfl, le_rfl, le_rfl, by simp [republished], fun _ _ => rfl⟩
      | error exc => exact ⟨rfl, le_rfl, Nat.zero_le 1, by simp [republished],
          fun _ hok => by simp [publishFailed] at hok⟩

/-- Answering an event runs the plugin and makes at most one attempt to
publish. -/
theorem answerEvent_spec {event : InboundEvent Input} {res : Except Exc Unit}
    (h : Runs W (answerEvent event) s t res s') :
    t.countP ranPlugin = 1 ∧ t.countP settles = 0 ∧ t.filterMap republished = [] ∧
      ((∃ u, res = .ok u) → (t.filterMap published).length = 1) ∧
      ((∃ exc, res = .error exc) → t.filterMap published = []) := by
  obtain ⟨r, s₁, t', _, rfl, hrest⟩ := runs_call_iff.mp h
  cases r with
  | error exc =>
    obtain ⟨rfl, rfl, -⟩ := runs_done_iff.mp hrest
    exact ⟨rfl, rfl, rfl, by simp, fun _ => rfl⟩
  | ok response =>
    dsimp only [Program.bind] at hrest
    cases henvelope : Router.buildResponseEnvelope response event with
    | error exc =>
      rw [henvelope] at hrest
      obtain ⟨rfl, rfl, -⟩ := runs_done_iff.mp hrest
      exact ⟨rfl, rfl, rfl, by simp, fun _ => rfl⟩
    | ok envelope =>
      rw [henvelope] at hrest
      obtain ⟨r, s₂, t'', _, rfl, hdone⟩ := runs_call_iff.mp hrest
      obtain ⟨rfl, rfl, -⟩ := runs_done_iff.mp hdone
      cases res with
      | ok u => exact ⟨rfl, rfl, rfl, fun _ => rfl, by simp⟩
      | error exc => exact ⟨rfl, rfl, rfl, by simp, fun _ => rfl⟩

/-- Every error text of a failed query is one. -/
theorem truthy_timeout_text (n : Int) :
    truthy (some s!"Error: handler timed out after {n}s") = true := by
  rw [truthy, decide_eq_true_iff]
  intro h
  have hlist := congrArg String.toList h
  simp at hlist
  exact absurd hlist.1 (by decide)

theorem failQuery_spec {event : InboundEvent Input} {exc : Exc} {u : Unit}
    (h : Runs W (failQuery config headers body event exc) s t u s') :
    t.countP ranPlugin = 0 ∧ Disposes config headers True t := by
  have answered {text : String} (htext : truthy (some text) = true)
      (h : t.countP ranPlugin = 0 ∧ Disposes config headers
        ((some event).isSome = true ∧ truthy (some text) = true) t) :
      t.countP ranPlugin = 0 ∧ Disposes config headers True t :=
    ⟨h.1, h.2.settled, h.2.outcome, h.2.retried, fun _ => h.2.answered ⟨rfl, htext⟩⟩
  unfold failQuery at h
  split at h
  · exact answered (by decide) (retryOrReject_spec h)
  · split at h
    · exact answered (truthy_timeout_text _) (retryOrReject_spec h)
    · exact answered (by decide) (retryOrReject_spec h)

/-- One delivery of a query, or of a message that does not parse. -/
theorem delivery_spec (hquery : ∀ event, router.parseEvent body = some event →
      event.isIngest = false) {u : Unit}
    (h : Runs W (deliver router config body headers) s t u s') :
    t.countP ranPlugin ≤ 1 ∧
      Disposes config headers ((router.parseEvent body).isSome = true) t := by
  obtain ⟨res, s₁, t₁, t₂, rfl, hmessage, hcontain⟩ := runs_bind_iff.mp h
  unfold onMessage at hmessage
  -- no exception leaves the handler of a query, so the boundary does nothing
  have contained (hok : res = .ok ()) : t₂ = [] := by
    subst hok
    exact (runs_done_iff.mp hcontain).1
  cases hevent : router.parseEvent body with
  | none =>
    simp only [hevent] at hmessage
    obtain ⟨v, s₂, t₃, t₄, rfl, hretry, hdone⟩ := runs_bind_iff.mp hmessage
    obtain ⟨rfl, rfl, -⟩ := runs_done_iff.mp hdone
    rw [contained rfl, List.append_nil, List.append_nil]
    obtain ⟨hran, hspec⟩ := retryOrReject_spec hretry
    exact ⟨hran ▸ Nat.zero_le 1, hspec.settled, hspec.outcome, hspec.retried, by simp⟩
  | some event =>
    simp only [hevent, hquery event hevent, Bool.false_eq_true, if_false] at hmessage
    obtain ⟨answer, s₂, t₃, t₄, rfl, hanswer, hrest⟩ := runs_bind_iff.mp hmessage
    obtain ⟨hran, hsettles, hrepublished, hok, herror⟩ := answerEvent_spec hanswer
    cases answer with
    | error exc =>
      obtain ⟨v, s₃, t₅, t₆, rfl, hfail, hdone⟩ := runs_bind_iff.mp hrest
      obtain ⟨rfl, rfl, -⟩ := runs_done_iff.mp hdone
      obtain ⟨hfailRan, hspec⟩ := failQuery_spec hfail
      have hpublished := herror ⟨exc, rfl⟩
      rw [contained rfl, List.append_nil, List.append_nil]
      refine ⟨by simp [hran, hfailRan], ?_, ?_, ?_, fun _ hok => ?_⟩
      · simpa [hsettles] using hspec.settled
      · simpa [hpublished, hrepublished] using hspec.outcome
      · simpa [hrepublished] using hspec.retried
      · simpa [hpublished, hrepublished] using
          hspec.answered trivial fun e he => hok e (List.mem_append_right _ he)
    | ok u =>
      obtain ⟨r, s₃, t₅, _, rfl, hdone⟩ := runs_call_iff.mp hrest
      obtain ⟨rfl, rfl, -⟩ := runs_done_iff.mp hdone
      rw [contained rfl, List.append_nil]
      let acked : Trace Input := [⟨.ack, r⟩]
      have hnone : (t₃ ++ acked).filterMap republished = [] := by
        rw [List.filterMap_append, hrepublished]
        rfl
      have hone : ((t₃ ++ acked).filterMap published).length = 1 := by
        rw [List.filterMap_append, List.length_append, hok ⟨u, rfl⟩]
        rfl
      refine ⟨?_, ?_, ?_, ?_, fun _ _ => ?_⟩
      · rw [List.countP_append, hran]
        exact le_rfl
      · rw [List.countP_append, hsettles]
        exact le_rfl
      · exact hone ▸ hnone ▸ le_rfl
      · exact fun h hmem => absurd (hnone ▸ hmem) List.not_mem_nil
      · exact hone ▸ hnone ▸ rfl

/-- A delivery that ends the query: the plugin fails, one attempt is made to
publish a generic error, and the message is settled. -/
def EndsQuery (input : Input) (exc : Exc) (t : Trace Input) : Prop :=
  ∃ published settled,
    t = [⟨.handle (.query input), .error exc⟩,
      ⟨.publish { response := .response { result := some GENERIC_PIPELINE_ERROR }
                  original := some input }, published⟩, settled] ∧
      settles settled = true

/-- An embedding error of the plugin ends the query, at any retry count. -/
theorem delivery_of_embeddingError {input : Input} {exc : Exc}
    (hevent : router.parseEvent body = some (.query input))
    (hraises : ∀ s r s', W s (.handle (.query input)) r s' → r = .error exc)
    (hembedding : exc.isInstance .embeddingError = true)
    (htimeout : exc.isInstance .timeoutError = false ∧
      exc.isInstance .llmInvocationTimeoutError = false) {u : Unit}
    (h : Runs W (deliver router config body headers) s t u s') : EndsQuery input exc t := by
  obtain ⟨res, s₁, t₁, t₂, rfl, hmessage, hcontain⟩ := runs_bind_iff.mp h
  unfold onMessage at hmessage
  simp only [hevent, InboundEvent.isIngest, Bool.false_eq_true, if_false] at hmessage
  obtain ⟨answer, s₂, t₃, t₄, rfl, hanswer, hrest⟩ := runs_bind_iff.mp hmessage
  obtain ⟨r, s₃, t₅, hw, rfl, hraised⟩ := runs_call_iff.mp hanswer
  obtain rfl := hraises _ _ _ hw
  obtain ⟨rfl, rfl, rfl⟩ := runs_done_iff.mp hraised
  obtain ⟨v, s₄, t₆, t₇, rfl, hfail, hdone⟩ := runs_bind_iff.mp hrest
  obtain ⟨rfl, rfl, rfl⟩ := runs_done_iff.mp hdone
  obtain ⟨rfl, -, -⟩ := runs_done_iff.mp hcontain
  simp only [failQuery, htimeout.1, htimeout.2, isEmbeddingError, hembedding, Bool.false_eq_true,
    if_false] at hfail
  obtain ⟨b, s₅, t₈, t₉, rfl, hpublish, hsettle⟩ := runs_bind_iff.mp hfail
  obtain ⟨published, s₆, t₁₀, -, rfl, hpublished⟩ := runs_call_iff.mp hpublish
  have hnil : t₁₀ = [] := by
    cases published <;> exact (runs_done_iff.mp hpublished).1
  subst hnil
  rcases settlement_spec hsettle with ⟨r, rfl⟩ | ⟨r, rfl⟩
  · exact ⟨published, _, rfl, rfl⟩
  · exact ⟨published, _, rfl, rfl⟩

end Delivery

/-! ## The chain of deliveries -/

section Chain

variable {router : Router Input} {config : HandlerConfig} {body : Json}
  {pending : List Headers} {ts : List (Trace Input)}

/-- `Deliveries router config body pending ts`: a message with the given body
was posted, the deliveries `ts` were made in order, and copies of it with the
headers `pending` are in the queue. -/
inductive Deliveries (router : Router Input) (config : HandlerConfig) (body : Json) :
    List Headers → List (Trace Input) → Prop
  | posted (headers : Headers) : headers.retryCount = none →
      Deliveries router config body [headers] []
  | delivered {before after : List Headers} {headers : Headers} {ts : List (Trace Input)}
      {t : Trace Input} :
      Deliveries router config body (before ++ headers :: after) ts →
      Runs (fun _ _ _ _ => True) (deliver router config body headers) () t () () →
      Deliveries router config body (before ++ after ++ t.filterMap republished) (ts ++ [t])

/-- The invariant of the deliveries of a query. -/
structure Chain (config : HandlerConfig) (parses : Prop) (pending : List Headers)
    (ts : List (Trace Input)) : Prop where
  single : pending.length ≤ 1
  length : (ts.length : Int) ≤ max 1 config.rabbitmqMaxRetries
  waiting : ∀ headers ∈ pending, headers.retryCount.getD 0 = ts.length ∧
    (ts.length : Int) < max 1 config.rabbitmqMaxRetries ∧ ts.flatten.filterMap published = []
  ran : ts.flatten.countP ranPlugin ≤ ts.length
  once : (ts.flatten.filterMap published).length ≤ 1
  order : ts.flatten.Pairwise fun e e' => (published e).isSome → republished e' = none
  each : ∀ t ∈ ts, t.countP settles ≤ 1 ∧
    (t.filterMap published).length + (t.filterMap republished).length ≤ 1
  answered : pending = [] → parses → (∀ e ∈ ts.flatten, publishFailed e = false) →
    (ts.flatten.filterMap published).length = 1

/-- What publishes at most once or republishes at most once does not republish
after a publication. -/
theorem pairwise_of_outcome {t : Trace Input}
    (h : (t.filterMap published).length + (t.filterMap republished).length ≤ 1) :
    t.Pairwise fun e e' => (published e).isSome → republished e' = none := by
  induction t with
  | nil => exact List.Pairwise.nil
  | cons e t ih =>
    have hsplit (f : Event (handlerSignature Input) → Option Headers) :
        (t.filterMap f).length ≤ ((e :: t).filterMap f).length := by
      rw [List.filterMap_cons]
      cases f e <;> simp
    have htail := hsplit republished
    rw [List.pairwise_cons]
    refine ⟨fun e' he' hsome => ?_, ih ?_⟩
    · obtain ⟨envelope, henvelope⟩ := Option.isSome_iff_exists.mp hsome
      rw [List.filterMap_cons, henvelope, List.length_cons] at h
      have hnil : t.filterMap republished = [] := List.length_eq_zero_iff.mp (by omega)
      exact List.filterMap_eq_nil_iff.mp hnil e' he'
    · rw [List.filterMap_cons] at h
      cases henvelope : published e with
      | none => simp only [henvelope] at h; omega
      | some envelope => simp only [henvelope, List.length_cons] at h; omega

theorem Deliveries.chain
    (hquery : ∀ event, router.parseEvent body = some event → event.isIngest = false)
    (h : Deliveries router config body pending ts) :
    Chain config ((router.parseEvent body).isSome = true) pending ts := by
  induction h with
  | posted headers hnone =>
    refine ⟨le_rfl, ?_, fun h hmem => ?_, le_rfl, Nat.zero_le 1, List.Pairwise.nil, by simp,
      by simp⟩
    · show (0 : Int) ≤ _
      omega
    · obtain rfl := List.mem_singleton.mp hmem
      refine ⟨by simp [hnone], ?_, rfl⟩
      show (0 : Int) < _
      omega
  | @delivered before after headers ts t _ hrun ih =>
    obtain ⟨hran, hspec⟩ := delivery_spec hquery hrun
    have hsingle := ih.single
    obtain ⟨rfl, rfl⟩ : before = [] ∧ after = [] := by
      simp only [List.length_append, List.length_cons] at hsingle
      exact ⟨List.length_eq_zero_iff.mp (by omega), List.length_eq_zero_iff.mp (by omega)⟩
    obtain ⟨hcount, hlength, hunpublished⟩ := ih.waiting headers (by simp)
    have houtcome := hspec.outcome
    rw [List.nil_append, List.nil_append]
    refine ⟨by omega, ?_, fun h hmem => ?_, ?_, ?_, ?_, ?_, fun hpending hparses hok => ?_⟩
    · rw [List.length_append, List.length_singleton]
      push_cast
      omega
    · obtain ⟨hretry, hless⟩ := hspec.retried h hmem
      have hpublished : t.filterMap published = [] := by
        have := List.length_pos_of_mem hmem
        exact List.length_eq_zero_iff.mp (by omega)
      rw [List.length_append, List.length_singleton, List.flatten_append, List.filterMap_append,
        hunpublished, hretry, Option.getD_some, hcount]
      refine ⟨by push_cast; rfl, ?_, by simpa using hpublished⟩
      push_cast
      omega
    · have hold := ih.ran
      simp only [List.flatten_append, List.flatten_singleton, List.countP_append,
        List.length_append, List.length_singleton]
      omega
    · simp only [List.flatten_append, List.flatten_singleton, List.filterMap_append, hunpublished,
        List.nil_append]
      omega
    · rw [List.flatten_append, List.flatten_singleton, List.pairwise_append]
      refine ⟨ih.order, pairwise_of_outcome houtcome, fun e he e' _ hsome => ?_⟩
      rw [List.filterMap_eq_nil_iff] at hunpublished
      rw [hunpublished e he] at hsome
      exact absurd hsome Bool.false_ne_true
    · intro t' ht'
      rcases List.mem_append.mp ht' with ht' | ht'
      · exact ih.each t' ht'
      · obtain rfl := List.mem_singleton.mp ht'
        exact ⟨hspec.settled, houtcome⟩
    · simp only [List.flatten_append, List.flatten_singleton] at hok ⊢
      rw [List.filterMap_append, hunpublished, List.nil_append]
      have hone := hspec.answered hparses fun e he => hok e (List.mem_append_right _ he)
      rw [hpending] at hone
      simpa using hone

/-- What holds of the deliveries of a query, at any point: in each at most one
of a published result and a republished message, and at most one settlement;
no republication after a published result; at most `max(1, max_retries)` runs
of the plugin and at most one result; and, when the chain is complete, exactly
one result unless an attempt to publish failed. -/
theorem delivery_chain
    (hquery : ∀ event, router.parseEvent body = some event → event.isIngest = false)
    (h : Deliveries router config body pending ts) :
    (∀ t ∈ ts, (t.filterMap published).length + (t.filterMap republished).length ≤ 1 ∧
      t.countP settles ≤ 1) ∧
    (ts.flatten.Pairwise fun e e' => (published e).isSome → republished e' = none) ∧
    (ts.length : Int) ≤ max 1 config.rabbitmqMaxRetries ∧
    (ts.flatten.countP ranPlugin : Int) ≤ max 1 config.rabbitmqMaxRetries ∧
    (ts.flatten.filterMap published).length ≤ 1 ∧
    (pending = [] → (router.parseEvent body).isSome = true →
      (∀ e ∈ ts.flatten, publishFailed e = false) →
      (ts.flatten.filterMap published).length = 1) := by
  have hchain := h.chain hquery
  refine ⟨fun t ht => (hchain.each t ht).symm, hchain.order, hchain.length, ?_, hchain.once,
    hchain.answered⟩
  have hran := hchain.ran
  have hlength := hchain.length
  omega

end Chain

/-! ## A retried query -/

/-- A router of queries whose payload is a text. -/
def chatRouter : Router String where
  pluginType := "expert"
  inputValidate := fun body => match body with
    | .str text => some text
    | _ => none

def chatBody : Json := .obj [("input", .str "hello")]

/-- A broker that takes everything, and a plugin with the given answer. -/
def chatScript (answer : Except Exc PluginResult) : Script (handlerSignature String) Unit
  | _, .handle _ => (answer, ())
  | _, .publish _ => (.ok (), ())
  | _, .republish _ _ => (.ok (), ())
  | _, .ack => (.ok (), ())
  | _, .reject => (.ok (), ())
  | _, .schedule _ => ((), ())

/-- One delivery of the text. -/
def chatDelivery (answer : Except Exc PluginResult) (headers : Headers) : Trace String :=
  ((deliver chatRouter {} chatBody headers).eval (chatScript answer) ()).2.1

theorem chatDelivery_runs (answer : Except Exc PluginResult) (headers : Headers) :
    Runs (fun _ _ _ _ => True) (deliver chatRouter {} chatBody headers) ()
      (chatDelivery answer headers) () () :=
  eval_runs (fun _ _ => trivial) _ ()

/-- The plugin fails once and then answers. -/
def chatTraces : List (Trace String) :=
  [chatDelivery (.error { typeName := "ConnectionError" }) {},
    chatDelivery (.ok (.response { result := some "hi" })) { retryCount := some 1 }]

theorem chatTraces_deliveries : Deliveries chatRouter {} chatBody [] chatTraces := by
  have hposted : Deliveries chatRouter {} chatBody ([] ++ ({} : Headers) :: []) [] :=
    .posted {} rfl
  have hretried : Deliveries chatRouter {} chatBody ([] ++ { retryCount := some 1 } :: [])
      [chatDelivery (.error { typeName := "ConnectionError" }) {}] :=
    .delivered hposted (chatDelivery_runs (.error { typeName := "ConnectionError" }) {})
  exact .delivered hretried
    (chatDelivery_runs (.ok (.response { result := some "hi" })) { retryCount := some 1 })

theorem delivery_chain_chat :
    (∀ t ∈ chatTraces, (t.filterMap published).length + (t.filterMap republished).length ≤ 1 ∧
      t.countP settles ≤ 1) ∧
    (chatTraces.flatten.Pairwise fun e e' => (published e).isSome → republished e' = none) ∧
    (chatTraces.length : Int) ≤ max 1 3 ∧
    (chatTraces.flatten.countP ranPlugin : Int) ≤ max 1 3 ∧
    (chatTraces.flatten.filterMap published).length ≤ 1 ∧
    (([] : List Headers) = [] → (chatRouter.parseEvent chatBody).isSome = true →
      (∀ e ∈ chatTraces.flatten, publishFailed e = false) →
      (chatTraces.flatten.filterMap published).length = 1) :=
  delivery_chain
    (by
      have hparsed : chatRouter.parseEvent chatBody = some (.query "hello") := rfl
      rintro event hevent
      obtain rfl := Option.some.inj (hparsed.symm.trans hevent)
      rfl)
    chatTraces_deliveries

end VirtualContributor.Messaging
