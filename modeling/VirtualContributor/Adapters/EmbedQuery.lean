import VirtualContributor.Adapters.RetryPolicies

/-!
# The query side of the embeddings adapters

`embed_query` of `OpenAIEmbeddingsAdapter` and of
`OpenAICompatibleEmbeddingsAdapter`.  The two share a loop, `_call`, which has a
budget of attempts and a deadline for all of them.  They differ in the prefix
of the texts, in the exceptions that they take for transient, and in what they
raise when the budget is zero.

`embedQuery_outcome` says what a run has done and why it ended as it did.
-/

namespace VirtualContributor.Adapters

open Lib Program
open Pipeline (Embedding)

/-! ## Exceptions of the providers -/

/-- The classes that the two tests for transient exceptions name. -/
inductive ProviderClass
  | timeoutError
  | connectionError
  | apiConnectionError
  | apiTimeoutError
  | httpxTimeoutException
  | httpxConnectError
  | httpxNetworkError
  | httpxRemoteProtocolError
  | httpxProxyError
  | httpxHTTPStatusError
  | jsonDecodeError
deriving DecidableEq

/-- An exception of one attempt: the named classes it is an instance of, its
`status_code`, and the status of its response. -/
structure ProviderException where
  classes : List ProviderClass := []
  statusCode : Option Nat := none
  responseStatus : Nat := 0
deriving DecidableEq

/-- `isinstance(exc, classes)`. -/
def ProviderException.isinstance (exc : ProviderException) (classes : List ProviderClass) : Bool :=
  classes.any (· ∈ exc.classes)

/-- The exceptions that `embed_query` raises. -/
inductive EmbeddingError
  | input (text : String)
  | permanent (text : String)
  | transient (text : String)
deriving DecidableEq

/-! ## Calls -/

/-- How one attempt ends: with vectors, with an exception, or because the
deadline of all attempts passed. -/
inductive PostAnswer
  | vectors (vectors : List Embedding)
  | raised (exc : ProviderException)
  | deadline
deriving DecidableEq

inductive ProviderCall
  | post (texts : List String)
  | sleep (seconds : Nat)
deriving DecidableEq

/-- A pause tells whether it came to its end before the deadline. -/
abbrev providerSignature : Signature where
  Call := ProviderCall
  Answer
    | .post _ => PostAnswer
    | .sleep _ => Bool

/-! ## The adapters -/

/-- What `embed_query` reads of an adapter. -/
structure QueryAdapter where
  queryInstruction : String
  queryMaxUtf8Bytes : Nat
  maxAttempts : Nat
  transient : ProviderException → Bool
  /-- What is raised when no attempt was made. -/
  unattempted : EmbeddingError

/-- The settings of the query side. -/
structure QuerySettings where
  queryMaxUtf8Bytes : Nat := 32768
  maxAttempts : Nat := 3

namespace OpenAIEmbeddingsAdapter

def _transient (exc : ProviderException) : Bool :=
  exc.isinstance [.timeoutError, .connectionError, .apiConnectionError, .apiTimeoutError] ||
    exc.statusCode.any fun status => status = 408 || status = 429 || 500 ≤ status

def queryAdapter (settings : QuerySettings) : QueryAdapter where
  queryInstruction := ""
  queryMaxUtf8Bytes := settings.queryMaxUtf8Bytes
  maxAttempts := settings.maxAttempts
  transient := _transient
  unattempted := .transient "embedding attempts exhausted"

end OpenAIEmbeddingsAdapter

namespace OpenAICompatibleEmbeddingsAdapter

def QWEN3_RETRIEVAL_INSTRUCTION : String :=
  "Instruct: Given a web search query, retrieve relevant passages that " ++
    "answer the query\nQuery: "

/-- The instruction that is configured, else the one for models of the Qwen3
family. -/
def _resolveQueryInstruction (lower : String → String) (modelName : String)
    (explicit : Option String) : String :=
  match explicit with
  | some instruction => instruction
  | none =>
    if "qwen3-embedding".toList.isPrefixOf (lower modelName).toList then
      QWEN3_RETRIEVAL_INSTRUCTION
    else ""

def _transient (exc : ProviderException) : Bool :=
  if exc.isinstance [.timeoutError, .httpxTimeoutException, .httpxConnectError, .httpxNetworkError,
      .httpxRemoteProtocolError, .httpxProxyError, .jsonDecodeError] then true
  else if exc.isinstance [.httpxHTTPStatusError] then
    exc.responseStatus = 408 || exc.responseStatus = 429 || 500 ≤ exc.responseStatus
  else false

def queryAdapter (lower : String → String) (modelName : String) (queryInstruction : Option String)
    (settings : QuerySettings) : QueryAdapter where
  queryInstruction := _resolveQueryInstruction lower modelName queryInstruction
  queryMaxUtf8Bytes := settings.queryMaxUtf8Bytes
  maxAttempts := settings.maxAttempts
  transient := _transient
  unattempted := .permanent "embedding call did not complete"

end OpenAICompatibleEmbeddingsAdapter

/-! ## `embed_query` -/

section EmbedQuery

variable (adapter : QueryAdapter) (texts : List String)

/-- Why an attempt gave no vectors: its exception, or the deadline. -/
abbrev AttemptFailure := Option ProviderException

def readPost : PostAnswer → Except AttemptFailure (List Embedding)
  | .vectors vs => .ok vs
  | .raised exc => .error (some exc)
  | .deadline => .error none

def deadlineExhausted : EmbeddingError := .transient "embedding deadline exhausted"

/-- What `_call` does with the failure of an attempt. -/
def QueryAdapter.callPolicy : RetryPolicy AttemptFailure EmbeddingError where
  fatal
    | some exc =>
      if adapter.transient exc then none
      else some (.permanent "embedding provider rejected request")
    | none => some deadlineExhausted
  exhausted
    | some _ => .transient "embedding attempts exhausted"
    | none => adapter.unattempted

def QueryAdapter._call : Program providerSignature (Except EmbeddingError (List Embedding)) :=
  retry adapter.callPolicy (single (S := providerSignature) (.post texts) readPost)
    (fun attempt => single (S := providerSignature) (.sleep (BASE_DELAY * 2 ^ attempt)) fun slept =>
      if slept then .ok () else .error deadlineExhausted)
    adapter.maxAttempts

/-- The texts that are sent. -/
def QueryAdapter.wrapped : List String :=
  if adapter.queryInstruction = "" then texts
  else texts.map fun text => adapter.queryInstruction ++ text

/-- Whether some text is over the limit. -/
def QueryAdapter.tooLong : Bool :=
  (adapter.wrapped texts).any fun text => adapter.queryMaxUtf8Bytes < text.utf8ByteSize

def QueryAdapter.embedQuery :
    Program providerSignature (Except EmbeddingError (List Embedding)) :=
  if adapter.tooLong texts then
    done (.error (.input "query exceeds configured UTF-8 input limit"))
  else adapter._call (adapter.wrapped texts)

end EmbedQuery

/-! ## Why a run ends -/

section Outcome

variable {adapter : QueryAdapter} {texts : List String}

/-- The answer that a failed attempt gets. -/
def failedPost : AttemptFailure → PostAnswer
  | some exc => .raised exc
  | none => .deadline

/-- Attempts that failed, with the pause after each. -/
def failedPosts (texts : List String) (excs : List ProviderException) :
    List (Event providerSignature) :=
  ladder (S := providerSignature) (c := .post texts) (p := fun k => .sleep (BASE_DELAY * 2 ^ k))
    failedPost (fun _ => true) 0 (excs.map some)

/-- The last calls of the loop and its result, after `k` failed attempts. -/
inductive QueryEnd (adapter : QueryAdapter) (texts : List String) (k : Nat) :
    List (Event providerSignature) → Except EmbeddingError (List Embedding) → Prop
  | answered (vs : List Embedding) :
      QueryEnd adapter texts k [⟨.post texts, .vectors vs⟩] (.ok vs)
  | rejected (exc : ProviderException) : adapter.transient exc = false →
      QueryEnd adapter texts k [⟨.post texts, .raised exc⟩]
        (.error (.permanent "embedding provider rejected request"))
  | exhausted (exc : ProviderException) : adapter.transient exc = true →
      k + 1 = adapter.maxAttempts →
      QueryEnd adapter texts k [⟨.post texts, .raised exc⟩]
        (.error (.transient "embedding attempts exhausted"))
  | attemptOverdue :
      QueryEnd adapter texts k [⟨.post texts, .deadline⟩] (.error deadlineExhausted)
  | pauseOverdue (exc : ProviderException) : adapter.transient exc = true →
      k + 1 < adapter.maxAttempts →
      QueryEnd adapter texts k
        [⟨.post texts, .raised exc⟩, ⟨.sleep (BASE_DELAY * 2 ^ k), false⟩]
        (.error deadlineExhausted)

theorem eq_failedPost {answer : PostAnswer} {failure : AttemptFailure}
    (h : readPost answer = .error failure) : answer = failedPost failure := by
  cases answer with
  | vectors vs => cases h
  | raised exc =>
    cases h
    rfl
  | deadline =>
    cases h
    rfl

theorem callPolicy_fatal_eq_none {failure : AttemptFailure}
    (h : adapter.callPolicy.fatal failure = none) :
    ∃ exc, failure = some exc ∧ adapter.transient exc = true := by
  cases failure with
  | none => cases h
  | some exc =>
    refine ⟨exc, rfl, ?_⟩
    by_contra hne
    simp [QueryAdapter.callPolicy, hne] at h

/-- Failures that are retried are transient exceptions. -/
theorem exists_transient {failures : List AttemptFailure}
    (h : ∀ e ∈ failures, adapter.callPolicy.fatal e = none) :
    ∃ excs : List ProviderException, failures = excs.map some ∧
      ∀ exc ∈ excs, adapter.transient exc = true := by
  induction failures with
  | nil => exact ⟨[], rfl, by simp⟩
  | cons failure failures ih =>
    obtain ⟨hfailure, hrest⟩ := List.forall_mem_cons.mp h
    obtain ⟨exc, rfl, htransient⟩ := callPolicy_fatal_eq_none hfailure
    obtain ⟨excs, rfl, hexcs⟩ := ih hrest
    exact ⟨exc :: excs, rfl, List.forall_mem_cons.mpr ⟨htransient, hexcs⟩⟩

variable {σ : Type} {W : World providerSignature σ} {s s' : σ}
  {t : List (Event providerSignature)} {r : Except EmbeddingError (List Embedding)}

theorem call_outcome (hn : 0 < adapter.maxAttempts) (h : Runs W (adapter._call texts) s t r s') :
    ∃ (excs : List ProviderException) (tail : List (Event providerSignature)),
      excs.length < adapter.maxAttempts ∧ (∀ exc ∈ excs, adapter.transient exc = true) ∧
      t = failedPosts texts excs ++ tail ∧ QueryEnd adapter texts excs.length tail r := by
  have hpause : ∀ (k : Nat) (slept : Bool),
      (if slept then Except.ok () else Except.error deadlineExhausted) = Except.ok () →
      slept = true := by
    intro k slept hslept
    cases slept with
    | true => rfl
    | false => cases hslept
  obtain ⟨failures, tail, hlength, hfailures, rfl, hend⟩ :=
    Runs.retry_single failedPost (fun _ => true) (fun _ _ => eq_failedPost) hpause hn h
  obtain ⟨excs, rfl, hexcs⟩ := exists_transient hfailures
  rw [List.length_map] at hlength hend
  refine ⟨excs, tail, hlength, hexcs, rfl, ?_⟩
  cases hend with
  | @success answer vs hanswer =>
    cases answer with
    | vectors vs' =>
      cases hanswer
      exact .answered vs
    | raised exc => cases hanswer
    | deadline => cases hanswer
  | @fatal failure d hfatal =>
    cases failure with
    | none =>
      cases hfatal
      exact .attemptOverdue
    | some exc =>
      cases htransient : adapter.transient exc with
      | true => simp [QueryAdapter.callPolicy, htransient] at hfatal
      | false =>
        simp only [QueryAdapter.callPolicy, htransient] at hfatal
        cases hfatal
        exact .rejected exc htransient
  | exhausted hretried hlast =>
    obtain ⟨exc, rfl, htransient⟩ := callPolicy_fatal_eq_none hretried
    exact .exhausted exc htransient hlast
  | @stopped failure slept d hretried hmore hstop =>
    obtain ⟨exc, rfl, htransient⟩ := callPolicy_fatal_eq_none hretried
    cases slept with
    | true => cases hstop
    | false =>
      cases hstop
      exact .pauseOverdue exc htransient hmore

/-- What `embed_query` did and raised.  A text over the limit is refused before
any call.  Otherwise the texts are sent with their prefix, once more after each
transient exception and a pause, up to the budget; the first vectors are
returned, the first other exception is permanent, and a deadline or a spent
budget is transient. -/
theorem embedQuery_outcome (h : Runs W (adapter.embedQuery texts) s t r s') :
    (adapter.tooLong texts = true ∧ t = [] ∧
      r = .error (.input "query exceeds configured UTF-8 input limit")) ∨
    (adapter.tooLong texts = false ∧ adapter.maxAttempts = 0 ∧ t = [] ∧
      r = .error adapter.unattempted) ∨
    (adapter.tooLong texts = false ∧
      ∃ (excs : List ProviderException) (tail : List (Event providerSignature)),
        excs.length < adapter.maxAttempts ∧ (∀ exc ∈ excs, adapter.transient exc = true) ∧
        t = failedPosts (adapter.wrapped texts) excs ++ tail ∧
        QueryEnd adapter (adapter.wrapped texts) excs.length tail r) := by
  unfold QueryAdapter.embedQuery at h
  cases hlong : adapter.tooLong texts with
  | true =>
    rw [if_pos hlong] at h
    obtain ⟨rfl, rfl, _⟩ := runs_done_iff.mp h
    exact Or.inl ⟨rfl, rfl, rfl⟩
  | false =>
    rw [hlong, if_neg Bool.false_ne_true] at h
    refine Or.inr ?_
    rcases Nat.eq_zero_or_pos adapter.maxAttempts with hzero | hpos
    · unfold QueryAdapter._call retry at h
      rw [hzero] at h
      obtain ⟨rfl, rfl, _⟩ := runs_done_iff.mp h
      exact Or.inl ⟨rfl, hzero, rfl, rfl⟩
    · exact Or.inr ⟨rfl, call_outcome hpos h⟩

/-- A provider that is unavailable once. -/
def flakyProvider : Script providerSignature Nat
  | 0, .post _ => (.raised { classes := [.httpxHTTPStatusError], responseStatus := 503 }, 1)
  | k + 1, .post texts => (.vectors (texts.map fun _ => [1]), k + 2)
  | k, .sleep _ => (true, k)

def flakyAdapter : QueryAdapter :=
  OpenAICompatibleEmbeddingsAdapter.queryAdapter asciiLower "m" none {}

/-- What the adapter makes of a question there. -/
def flakyQuery : Except EmbeddingError (List Embedding) × List (Event providerSignature) × Nat :=
  (flakyAdapter.embedQuery ["red"]).eval flakyProvider 0

theorem embedQuery_outcome_flaky :
    ∃ (excs : List ProviderException) (tail : List (Event providerSignature)),
      flakyQuery.2.1 = failedPosts ["red"] excs ++ tail ∧
        QueryEnd flakyAdapter ["red"] excs.length tail flakyQuery.1 := by
  have hrun := eval_runs (W := flakyProvider.world) (fun _ _ => rfl)
    (flakyAdapter.embedQuery ["red"]) 0
  rcases embedQuery_outcome hrun with ⟨_, ht, _⟩ | ⟨_, _, ht, _⟩ | ⟨_, excs, tail, _, _, ht, hend⟩
  · cases ht
  · cases ht
  · exact ⟨excs, tail, ht, hend⟩

end Outcome

end VirtualContributor.Adapters
