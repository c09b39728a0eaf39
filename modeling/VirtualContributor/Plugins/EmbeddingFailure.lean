import VirtualContributor.Messaging.Delivery
import VirtualContributor.Plugins.Expert

/-!
# Query embedding failures

An embedding failure of a store call is to end an expert query: no further
call, an embedding error from the plugin, and one generic result.

* `failStop_retrieveContext`: retrieval stops at an embedding failure, unless
  the failure is masked.
* `embeddingFailure_terminal_iff`: a query ends as it should if and only if no
  embedding failure is masked.

A failure is masked when both arms of a hybrid query fail, the dense one with
another exception: `retrieve` raises that one and loses the embedding error.
-/

namespace VirtualContributor.Plugins

open Lib Program Retrieval Messaging

/-! ## Failures of store calls -/

/-- The failure of an outcome. -/
def failureOf : QueryOutcome → List StoreFailure
  | .ok _ => []
  | .error failure => [failure]

/-- The failures of an event, of both arms of a `gather`. -/
def failures : Event storeSignature → List StoreFailure
  | ⟨.query _, outcome⟩ => failureOf outcome
  | ⟨.queryLexical _, outcome⟩ => failureOf outcome
  | ⟨.gather _ _, outcomes⟩ => failureOf outcomes.1 ++ failureOf outcomes.2

/-- The dense arm fails with another exception than an embedding error, and
the lexical arm with an embedding error. -/
def masksEmbeddingError : QueryOutcome × QueryOutcome → Bool
  | (.error dense, .error lexical) => !dense.isEmbedding && lexical.isEmbedding
  | _ => false

/-- A `gather` with a masked failure. -/
def masked : Event storeSignature → Bool
  | ⟨.gather _ _, outcomes⟩ => masksEmbeddingError outcomes
  | _ => false

/-- Embedding failures are fatal and embedding errors are critical. -/
def embeddingFaults : Faults storeSignature Exc where
  fatal e := ∃ failure ∈ failures e, failure.isEmbedding = true
  masked e := masked e = true
  critical exc := ∃ error : EmbeddingError, exc = error.toExc

section

variable {T : UnicodeText} {providesLexical : Bool} {collection query : String} {σ : Type}
  {host : ExpertHost σ} {plugin : ExpertPlugin} {profile : RetrievalProfile}

theorem not_critical {exc : Exc} (h : exc.isInstance .embeddingError = false) :
    ¬embeddingFaults.critical exc := by
  rintro ⟨error, rfl⟩
  rw [error.isInstance_embeddingError] at h
  cases h

/-- An event without an embedding failure. -/
theorem stops_clean {α : Type} {e : Event storeSignature} {r : Except Exc α}
    (h : ∀ failure ∈ failures e, failure.isEmbedding = false) :
    Stops embeddingFaults [e] r := by
  refine .clean fun e' he' => ?_
  obtain rfl := List.mem_singleton.mp he'
  rintro ⟨failure, hmem, hembedding⟩
  rw [h failure hmem] at hembedding
  cases hembedding

/-- An embedding failure whose error is raised. -/
theorem stops_raised {α : Type} {e : Event storeSignature} {error : EmbeddingError}
    (hfailure : .embedding error ∈ failures e) (hmasked : masked e = false) :
    Stops embeddingFaults [e] (.error error.toExc : Except Exc α) :=
  .stopped (t := []) (by simp) ⟨_, hfailure, rfl⟩ (ne_of_eq_of_ne hmasked Bool.false_ne_true)
    ⟨error, rfl⟩

theorem failStop_storeQuery (dense : DenseQuery) :
    FailStop embeddingFaults (storeQuery dense) := by
  refine failStop_call fun outcome => ?_
  cases outcome with
  | ok result => exact stops_clean (by simp [failures, failureOf])
  | error failure =>
    cases failure with
    | embedding error => exact stops_raised (List.mem_singleton_self _) rfl
    | ordinary exc other =>
      exact stops_clean (by simp [failures, failureOf, StoreFailure.isEmbedding])

/-- The lexical arm by itself. -/
theorem stops_keepLexical (lexical : LexicalQuery) (outcome : QueryOutcome) :
    Stops embeddingFaults [⟨.queryLexical lexical, outcome⟩] (keepLexical outcome) := by
  cases outcome with
  | ok result => exact stops_clean (by simp [failures, failureOf])
  | error failure =>
    cases failure with
    | embedding error => exact stops_raised (List.mem_singleton_self _) rfl
    | ordinary exc other =>
      exact stops_clean (by simp [failures, failureOf, StoreFailure.isEmbedding])

/-- Both arms: only an embedding failure behind another failure of the dense
arm is lost. -/
theorem stops_fuseOutcomes (config : HybridSettings) (limit : Nat) (dense : DenseQuery)
    (lexical : LexicalQuery) (outcomes : QueryOutcome × QueryOutcome) :
    Stops embeddingFaults [⟨.gather dense lexical, outcomes⟩]
      (fuseOutcomes config limit outcomes) := by
  obtain ⟨denseOutcome, lexicalOutcome⟩ := outcomes
  match denseOutcome, lexicalOutcome with
  | .error (.embedding error), lexicalOutcome =>
    refine stops_raised (List.mem_append_left _ (List.mem_singleton_self _)) ?_
    cases lexicalOutcome <;> rfl
  | .error (.ordinary exc other), .error (.embedding error) =>
    exact .masked (t := []) rfl (.inr ⟨exc, rfl, not_critical other⟩)
  | .error (.ordinary exc other), .error (.ordinary exc' other') =>
    exact stops_clean (by simp [failures, failureOf, StoreFailure.isEmbedding])
  | .error (.ordinary exc other), .ok result =>
    exact stops_clean (by simp [failures, failureOf, StoreFailure.isEmbedding])
  | .ok denseResult, .error (.embedding error) =>
    exact stops_raised (List.mem_append_right _ (List.mem_singleton_self _)) rfl
  | .ok denseResult, .error (.ordinary exc other) =>
    exact stops_clean (by simp [failures, failureOf, StoreFailure.isEmbedding])
  | .ok denseResult, .ok result => exact stops_clean (by simp [failures, failureOf])

/-! ## Retrieval -/

theorem failStop_retrieve {config : Option HybridSettings} {nResults : Nat}
    {filter : Option Where} :
    FailStop embeddingFaults
      (retrieve T providesLexical collection query config nResults filter) := by
  unfold retrieve
  cases config with
  | none => exact failStop_storeQuery _
  | some config =>
    dsimp only
    split_ifs
    · exact failStop_storeQuery _
    · exact failStop_storeQuery _
    · exact failStop_storeQuery _
    · exact failStop_storeQuery _
    · exact failStop_call (stops_keepLexical _)
    · exact failStop_call (stops_fuseOutcomes config nResults _ _)

/-- Every retrieval makes a call. -/
theorem acts_retrieve {config : Option HybridSettings} {nResults : Nat} {filter : Option Where} :
    Acts (retrieve T providesLexical collection query config nResults filter).run := by
  unfold retrieve
  cases config with
  | none => exact acts_call _ _
  | some config =>
    dsimp only
    split_ifs <;> exact acts_call _ _

theorem failStop_retrievePipeline {filter : Option Where} {hierarchy : Bool} :
    FailStop embeddingFaults
      (plugin.retrievePipeline host collection query profile filter hierarchy) :=
  FailStop.exceptBind failStop_retrieve fun _ => failStop_done _

theorem failStop_flat : FailStop embeddingFaults (plugin.flat host collection query profile) :=
  failStop_retrievePipeline

theorem acts_flat : Acts (plugin.flat host collection query profile).run :=
  Acts.exceptBind acts_retrieve

/-- An embedding error passes the handlers of the hierarchy stages. -/
theorem critical_passes {exc : Exc} (h : embeddingFaults.critical exc) :
    exc.isInstance .embeddingError = true := by
  obtain ⟨error, rfl⟩ := h
  exact error.isInstance_embeddingError

theorem failStop_retrieveScoped {predicate : Where} :
    FailStop embeddingFaults
      (plugin.retrieveScoped host collection query profile predicate) := by
  refine FailStop.attempt (fun _ => critical_passes) failStop_retrievePipeline (fun outcome => ?_)
    acts_flat
  cases outcome with
  | none => exact failStop_flat
  | some outcome =>
    dsimp only
    split_ifs
    · exact failStop_flat
    · exact failStop_done _

/-- Retrieval stops at an embedding failure, unless the failure is masked. -/
theorem failStop_retrieveContext :
    FailStop embeddingFaults (plugin.retrieveContext host collection query profile) := by
  unfold ExpertPlugin.retrieveContext
  split_ifs
  · exact failStop_flat
  · refine FailStop.attempt (fun _ => critical_passes)
      (FailStop.exceptBind (failStop_storeQuery _) fun _ => failStop_done _) (fun routed => ?_)
      acts_flat
    cases routed.join with
    | none => exact failStop_flat
    | some predicate => exact failStop_retrieveScoped

/-! ## Queries -/

/-- The failures of an expert query are those of its store calls. -/
def expertFaults : Faults expertSignature Exc := onLeft embeddingFaults

instance (e : Event expertSignature) : Decidable (expertFaults.fatal e) :=
  match e with
  | ⟨.inl c, r⟩ =>
    inferInstanceAs (Decidable (∃ failure ∈ failures ⟨c, r⟩, failure.isEmbedding = true))
  | ⟨.inr _, _⟩ => isFalse id

instance (e : Event expertSignature) : Decidable (expertFaults.masked e) :=
  match e with
  | ⟨.inl c, r⟩ => inferInstanceAs (Decidable (masked ⟨c, r⟩ = true))
  | ⟨.inr _, _⟩ => isFalse id

/-- A call that asks the model for the answer. -/
def isAnswering : expertSignature.Call → Bool
  | .inr (.answer _ _) => true
  | _ => false

/-- A call to rewrite the question. -/
def IsCondense (c : expertSignature.Call) : Prop :=
  ∃ chatHistory question, c = .inr (.condense chatHistory question)

theorem resolveQuestion_condenses {event : Input} :
    (plugin.resolveQuestion event).Yields IsCondense fun _ => True := by
  unfold ExpertPlugin.resolveQuestion
  split_ifs
  · trivial
  · trivial
  · trivial
  · refine Yields.bind (Q := fun _ => True) ?_ fun candidate _ => trivial
    refine ⟨⟨_, _, rfl⟩, fun answer => ?_⟩
    cases answer <;> trivial

/-- The question is resolved before any store call. -/
theorem liftQuestion_condenses {event : Input} :
    (ExceptT.lift (plugin.resolveQuestion event) :
      Answering String).run.Yields IsCondense fun _ => True :=
  resolveQuestion_condenses.bind fun _ _ => trivial

theorem failStop_resolveQuestion {event : Input} :
    FailStop expertFaults (ExceptT.lift (plugin.resolveQuestion event) : Answering String) := by
  refine Yields.failStop (fun c hc r => ?_) liftQuestion_condenses
  obtain ⟨chatHistory, question, rfl⟩ := hc
  exact id

theorem failStop_llmInvoke (call : LlmCall) : FailStop expertFaults (llmInvoke call) :=
  failStop_call fun _ => .clean fun _ he => List.mem_singleton.mp he ▸ id

theorem failStop_outcomeFor {question : String} :
    FailStop expertFaults (plugin.outcomeFor host collection question) := by
  unfold ExpertPlugin.outcomeFor
  dsimp only
  split_ifs
  · exact FailStop.inLeft failStop_retrieveContext
  · exact failStop_done _

theorem failStop_handleSimple {event : Input} :
    FailStop expertFaults (plugin.handleSimple host event collection) := by
  refine FailStop.exceptBind failStop_resolveQuestion fun question => ?_
  refine FailStop.exceptBind failStop_outcomeFor fun outcome => ?_
  refine FailStop.exceptBind (failStop_llmInvoke _) fun answer => ?_
  exact FailStop.exceptBind (failStop_done _) fun sources => failStop_done _

theorem failStop_retrieveNode {event : Input} {resolved : String}
    {rephrased current : Option String} :
    FailStop expertFaults
      (plugin.retrieveNode host event collection resolved rephrased current) := by
  unfold ExpertPlugin.retrieveNode
  dsimp only
  split_ifs
  · exact failStop_done _
  · exact FailStop.exceptBind (FailStop.inLeft failStop_retrieveContext) fun _ => failStop_done _

/-- The run of a graph, by induction over its nodes. -/
theorem failStop_runNodes {event : Input} {resolved : String} {run : GraphRun}
    {retrieved : Option RetrievalOutcome} :
    FailStop expertFaults
      (plugin.runNodes host event collection resolved retrieved run) := by
  induction run generalizing retrieved with
  | final state => exact failStop_done _
  | raised exc => exact failStop_done _
  | llm prompt next ih => exact failStop_call_bind (fun _ => id) fun answer => ih answer
  | retrieve rephrased current next ih =>
    exact FailStop.exceptBind failStop_retrieveNode fun written => ih written.1

theorem failStop_handleWithGraph {event : Input} {definition : Fields} :
    FailStop expertFaults (plugin.handleWithGraph host event definition collection) := by
  refine FailStop.exceptBind (failStop_done _) fun graph => ?_
  refine FailStop.exceptBind failStop_resolveQuestion fun resolved => ?_
  refine FailStop.exceptBind (failStop_done _) fun wiring => ?_
  refine FailStop.exceptBind failStop_runNodes fun final => ?_
  exact FailStop.exceptBind (failStop_done _) fun sources => failStop_done _

/-- A query stops at an embedding failure, unless the failure is masked. -/
theorem failStop_handle {event : Input} : FailStop expertFaults (plugin.handle host event) := by
  unfold ExpertPlugin.handle
  dsimp only
  split_ifs
  · exact failStop_handleSimple
  · exact failStop_handleWithGraph

/-! ## The answering call -/

/-- Whether an event is an answering call. -/
def Answers (e : Event expertSignature) : Prop := isAnswering e.call = true

instance (e : Event expertSignature) : Decidable (Answers e) :=
  inferInstanceAs (Decidable (isAnswering e.call = true))

/-- A call that is not the answering one. -/
def Prepares (c : expertSignature.Call) : Prop := isAnswering c = false

theorem not_answers {c : expertSignature.Call} (h : Prepares c) (r : expertSignature.Answer c) :
    ¬Answers ⟨c, r⟩ := ne_of_eq_of_ne h Bool.false_ne_true

theorem liftQuestion_prepares {event : Input} :
    (ExceptT.lift (plugin.resolveQuestion event) :
      Answering String).run.Yields Prepares fun _ => True :=
  liftQuestion_condenses.mono (by rintro _ ⟨chatHistory, question, rfl⟩; rfl) fun _ => id

/-- No store call is the answering one. -/
theorem inLeft_prepares {α : Type} {p : Retrieving α} :
    (exceptInLeft p : Answering α).run.Yields Prepares fun _ => True :=
  yields_inLeft.mono (by rintro _ ⟨c, rfl⟩; rfl) fun _ => id

theorem outcomeFor_prepares {question : String} :
    (plugin.outcomeFor host collection question).run.Yields Prepares fun _ => True := by
  unfold ExpertPlugin.outcomeFor
  dsimp only
  split_ifs
  · exact inLeft_prepares
  · trivial

/-- The answering call is the last call of a query. -/
theorem handleSimple_answersLast {event : Input} :
    CallsLast Answers (plugin.handleSimple host event collection).run := by
  refine CallsLast.exceptBind (fun _ => not_answers) liftQuestion_prepares fun question => ?_
  refine CallsLast.exceptBind (fun _ => not_answers) outcomeFor_prepares fun outcome => ?_
  refine callsLast_call (Q := fun _ => True) fun answer => ?_
  cases answer with
  | error exc => trivial
  | ok text =>
    refine Yields.exceptBind ?_ fun sources => trivial
    trivial

theorem retrieveNode_prepares {event : Input} {resolved : String}
    {rephrased current : Option String} :
    (plugin.retrieveNode host event collection resolved rephrased
      current).run.Yields Prepares fun _ => True := by
  unfold ExpertPlugin.retrieveNode
  dsimp only
  split_ifs
  · trivial
  · exact Yields.exceptBind inLeft_prepares fun _ => trivial

theorem runNodes_prepares {event : Input} {resolved : String} {run : GraphRun}
    {retrieved : Option RetrievalOutcome} :
    (plugin.runNodes host event collection resolved retrieved
      run).run.Yields Prepares fun _ => True := by
  induction run generalizing retrieved with
  | final state => trivial
  | raised exc => trivial
  | llm prompt next ih => exact ⟨rfl, fun answer => ih answer⟩
  | retrieve rephrased current next ih =>
    exact Yields.exceptBind retrieveNode_prepares fun written => ih written.1

theorem handleWithGraph_prepares {event : Input} {definition : Fields} :
    (plugin.handleWithGraph host event definition
      collection).run.Yields Prepares fun _ => True := by
  refine Yields.exceptBind trivial fun graph => ?_
  refine Yields.exceptBind liftQuestion_prepares fun resolved => ?_
  refine Yields.exceptBind trivial fun wiring => ?_
  refine Yields.exceptBind runNodes_prepares fun final => ?_
  exact Yields.exceptBind trivial fun sources => trivial

theorem handle_answersLast {event : Input} : CallsLast Answers (plugin.handle host event).run := by
  unfold ExpertPlugin.handle
  dsimp only
  split_ifs
  · exact handleSimple_answersLast
  · exact handleWithGraph_prepares.callsLast fun _ => not_answers

/-! ## The end of a query -/

/-- How a query is to end at an embedding failure: it is in the last event, the
answering call was not made, the plugin raises an embedding error, and the
delivery that gets it publishes one generic error and does not republish. -/
structure TerminalFailure (event : Input) (t : List (Event expertSignature))
    (r : Except Exc Response) : Prop where
  last : OnlyLast expertFaults.fatal t
  unanswered : ∀ e ∈ t, ¬Answers e
  raises : ∃ error : EmbeddingError, r = .error error.toExc
  delivered : ∀ {exc : Exc}, r = .error exc →
    ∀ {τ : Type} {W : World (handlerSignature Input) τ} {router : Router Input}
      {config : HandlerConfig} {body : Json} {headers : Headers} {s s' : τ} {d : Trace Input},
      router.parseEvent body = some (.query event) →
      (∀ s res s', W s (.handle (.query event)) res s' → res = .error exc) →
      Runs W (deliver router config body headers) s d () s' → EndsQuery event exc d

theorem fatal_of_masked {e : Event expertSignature} (h : expertFaults.masked e) :
    expertFaults.fatal e := by
  obtain ⟨c | c, r⟩ := e
  · cases c with
    | query dense => cases h
    | queryLexical lexical => cases h
    | gather dense lexical =>
      obtain ⟨denseOutcome, lexicalOutcome⟩ := r
      cases denseOutcome with
      | ok result => cases h
      | error denseFailure =>
        cases lexicalOutcome with
        | ok result => cases h
        | error failure =>
          have hembedding : (!denseFailure.isEmbedding && failure.isEmbedding) = true := h
          rw [Bool.and_eq_true] at hembedding
          exact ⟨failure, List.mem_append_right _ (List.mem_singleton_self _), hembedding.2⟩
  · cases h

/-- The answering call is no store call. -/
theorem not_fatal_of_answers {e : Event expertSignature} (h : Answers e) :
    ¬expertFaults.fatal e := by
  obtain ⟨c | c, r⟩ := e
  · cases h
  · exact id

/-- What follows when a query halts at an embedding failure. -/
theorem terminalFailure_of_halts {event : Input} {t : List (Event expertSignature)}
    {r : Except Exc Response} (hanswers : OnlyLast Answers t)
    (hfatal : ∃ e ∈ t, expertFaults.fatal e) (h : Halts expertFaults t r) :
    TerminalFailure event t r := by
  obtain ⟨e, he, hfatal⟩ := hfatal
  obtain ⟨exc, hraised, error, rfl⟩ := h.raised
  refine ⟨h.last, fun e' he' hanswer => ?_, ⟨error, hraised⟩, ?_⟩
  · obtain rfl := h.last.unique hanswers he hfatal he' hanswer
    exact not_fatal_of_answers hanswer hfatal
  · intro exc hexc τ W router config body headers s s' d hevent hhandle hrun
    cases hraised.symm.trans hexc
    exact delivery_of_embeddingError hevent hhandle error.isInstance_embeddingError
      error.not_timeout hrun

end

/-- A query that gets an embedding failure ends as it should if and only if it
gets no masked one. -/
theorem embeddingFailure_terminal_iff {σ τ : Type} (host : ExpertHost σ) (plugin : ExpertPlugin)
    (event : Input) {W : World expertSignature τ} {s s' : τ} {t : List (Event expertSignature)}
    {r : Except Exc Response} (h : Runs W (plugin.handle host event).run s t r s') :
    ((∃ e ∈ t, expertFaults.fatal e) → TerminalFailure event t r) ↔
      ∀ e ∈ t, ¬expertFaults.masked e := by
  have hanswers := handle_answersLast h
  rw [← (failStop_handle h).halts_iff fun _ => fatal_of_masked]
  constructor
  · intro hterminal hfatal
    have hfailure := hterminal hfatal
    obtain ⟨error, hraised⟩ := hfailure.raises
    exact ⟨hfailure.last, _, hraised, error, rfl⟩
  · intro hhalts hfatal
    exact terminalFailure_of_halts hanswers hfatal (hhalts hfatal)

/-! ## A query with two failures -/

/-- Hierarchical retrieval with both arms. -/
def hierarchicalPlugin : ExpertPlugin where
  hierarchicalRetrievalEnabled := true
  hybridConfig := some
    { hybridRetrievalEnabled := true
      hybridDenseWeight := 1
      hybridLexicalWeight := 1
      hybridRrfK := 60
      hybridMaxTerms := 8
      hybridMinTermLen := 3 }

def traefikQuestion : Input := { message := "Who runs Traefik?" }

/-- An orienting passage of one subspace. -/
def orientingResult : QueryResult where
  documents := [["The hosting subspace"]]
  metadatas := [[[("subspaceId", .str "hosting")]]]
  distances := [[some (1 / 5)]]
  ids := [["overview-0"]]

/-- The store and the model: the first `gather` comes to `outcomes`, the later
ones find nothing, and the model answers.  The state counts the gathers. -/
def gatherScript (outcomes : QueryOutcome × QueryOutcome) : Script expertSignature Nat
  | n, .inl (.query _) => (.ok orientingResult, n)
  | n, .inl (.queryLexical _) => (.ok .empty, n)
  | n, .inl (.gather _ _) => (if n = 0 then outcomes else (.ok .empty, .ok .empty), n + 1)
  | n, .inr _ => (.ok "I do not know.", n)

/-- The run of the query over this store. -/
def gatherRun (outcomes : QueryOutcome × QueryOutcome) :
    Except Exc Response × List (Event expertSignature) × Nat :=
  (hierarchicalPlugin.handle plainHost traefikQuestion).run.eval (gatherScript outcomes) 0

theorem gatherRun_runs (outcomes : QueryOutcome × QueryOutcome) :
    Runs (gatherScript outcomes).world (hierarchicalPlugin.handle plainHost traefikQuestion).run 0
      (gatherRun outcomes).2.1 (gatherRun outcomes).1 (gatherRun outcomes).2.2 :=
  eval_runs (fun _ _ => rfl) _ 0

def connectionError : StoreFailure := .ordinary { typeName := "ConnectionError" } rfl

def transientError : StoreFailure := .embedding ⟨.EmbeddingTransientError, "unavailable"⟩

/-- Both arms fail, the dense one with the embedding error: the query ends. -/
theorem embeddingFailure_terminal_transient :
    TerminalFailure traefikQuestion (gatherRun (.error transientError, .error connectionError)).2.1
      (gatherRun (.error transientError, .error connectionError)).1 :=
  (embeddingFailure_terminal_iff plainHost hierarchicalPlugin traefikQuestion
    (gatherRun_runs (.error transientError, .error connectionError))).mpr
    (by decide +kernel) (by decide +kernel)

/-- Both arms fail, the lexical one with the embedding error: the query falls
back to flat retrieval and is answered. -/
theorem maskedFailure_answered :
    Runs (gatherScript (.error connectionError, .error transientError)).world
        (hierarchicalPlugin.handle plainHost traefikQuestion).run 0
        (gatherRun (.error connectionError, .error transientError)).2.1
        (gatherRun (.error connectionError, .error transientError)).1
        (gatherRun (.error connectionError, .error transientError)).2.2 ∧
      (∃ e ∈ (gatherRun (.error connectionError, .error transientError)).2.1,
        expertFaults.fatal e) ∧
      (∃ e ∈ (gatherRun (.error connectionError, .error transientError)).2.1, Answers e) ∧
      ¬TerminalFailure traefikQuestion
        (gatherRun (.error connectionError, .error transientError)).2.1
        (gatherRun (.error connectionError, .error transientError)).1 := by
  have hanswer : ∃ e ∈ (gatherRun (.error connectionError, .error transientError)).2.1,
      Answers e := by decide +kernel
  refine ⟨gatherRun_runs _, by decide +kernel, hanswer, fun hterminal => ?_⟩
  obtain ⟨e, he, hanswer⟩ := hanswer
  exact hterminal.unanswered e he hanswer

end VirtualContributor.Plugins
