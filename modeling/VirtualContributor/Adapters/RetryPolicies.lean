import Mathlib
import VirtualContributor.Lib.Retry
import VirtualContributor.Lib.TextTables
import VirtualContributor.Pipeline.Store

/-!
# The adapters behind the ports of the pipeline

`ChromaDBAdapter`, `LangChainLLMAdapter` and the `embed` of the two embeddings
adapters, as programs over the raw calls of the client libraries.  Each of them
retries, and each decides in its own way which exceptions it retries.

A raw call answers with a value or an exception.  A call that runs in a thread
or under `wait_for` is one raw call here.  Logging is left out.
-/

namespace VirtualContributor.Adapters

open Lib Program
open Pipeline (Embedding Entry GetResult IngestCall LlmRole Messages)

def MAX_RETRIES : Nat := 3

/-- In seconds. -/
def BASE_DELAY : Nat := 1

/-! ## Exceptions -/

/-- The classes that the handlers of the adapters name. -/
inductive ExceptionClass
  | valueError
  | jsonDecodeError
  | timeoutError
  | connectionError
  | osError
  | runtimeError
  | llmInvocationError
  | llmInvocationTimeoutError
deriving DecidableEq

/-- An exception: the named classes it is an instance of, and `str(exc)`. -/
structure ClientException where
  classes : List ExceptionClass := []
  text : String := ""
deriving DecidableEq

/-- `isinstance(exc, cls)`. -/
def ClientException.isinstance (exc : ClientException) (cls : ExceptionClass) : Bool :=
  cls ∈ exc.classes

/-! ## Raw calls -/

/-- The entries that a deletion is for. -/
inductive Deletion
  | ids (ids : List String)
  | document (documentId : String)
deriving DecidableEq

def Deletion.covers : Deletion → Entry → Bool
  | .ids deleted, e => e.id ∈ deleted
  | .document documentId, e => e.docId = some documentId

/-- A message object of LangChain. -/
inductive LangchainMessage
  | system (content : String)
  | ai (content : String)
  | human (content : String)
deriving DecidableEq

inductive ServerCall
  | getOrCreateCollection
  | collectionGet (documentId : Option String) (includeEmbeddings : Bool)
  | collectionUpsert (entries : List Entry)
  | collectionDelete (deletion : Deletion)
  | chat (role : LlmRole) (messages : List LangchainMessage)
  | createEmbeddings (texts : List String)
  | sleep (seconds : Nat)
deriving DecidableEq

def ServerCall.Answer : ServerCall → Type
  | getOrCreateCollection | collectionUpsert _ | collectionDelete _ => Except ClientException Unit
  | collectionGet _ _ => Except ClientException GetResult
  | chat _ _ => Except ClientException String
  | createEmbeddings _ => Except ClientException (List Embedding)
  | sleep _ => Unit

abbrev serverSignature : Signature where
  Call := ServerCall
  Answer := ServerCall.Answer

/-- A stretch of adapter code that can raise. -/
abbrev Attempt (α : Type) := Program serverSignature (Except ClientException α)

/-- `asyncio.sleep(BASE_DELAY * (2 ** attempt))`. -/
def backoff (attempt : Nat) : Attempt Unit :=
  single (S := serverSignature) (.sleep (BASE_DELAY * 2 ^ attempt)) fun _ => .ok ()

/-! ## `ChromaDBAdapter` -/

namespace ChromaDBAdapter

/-- What `_retry` does with an exception. -/
def retryPolicy : RetryPolicy ClientException ClientException where
  fatal exc :=
    if exc.isinstance .valueError && !exc.isinstance .jsonDecodeError then some exc else none
  exhausted
    | some exc => exc
    | none => { classes := [.runtimeError], text := "Retry called with max_retries=0" }

/-- `_retry`. -/
def _retry {α : Type} (fn : Attempt α) (maxRetries : Nat := MAX_RETRIES) : Attempt α :=
  retry retryPolicy fn backoff maxRetries

/-- Open the collection and go on with it. -/
def withCollection {α : Type} (next : Attempt α) : Attempt α :=
  call (S := serverSignature) .getOrCreateCollection fun
    | .error exc => done (.error exc)
    | .ok _ => next

def _get (documentId : Option String) (includeEmbeddings : Bool) : Attempt GetResult :=
  withCollection (request (S := serverSignature) (.collectionGet documentId includeEmbeddings))

def get (documentId : Option String) (includeEmbeddings : Bool) : Attempt GetResult :=
  _retry (_get documentId includeEmbeddings)

def _ingest (entries : List Entry) : Attempt Unit :=
  withCollection (request (S := serverSignature) (.collectionUpsert entries))

/-- `ingest`, whose entries come with their embeddings. -/
def ingest (entries : List Entry) : Attempt Unit := _retry (_ingest entries)

/-- Whether an exception says that there is nothing to delete. -/
def saysMissing (lower : String → String) (exc : ClientException) : Bool :=
  contains (lower exc.text) "not found" || contains (lower exc.text) "does not exist"

/-- A deletion that finds nothing has succeeded. -/
def ignoreMissing (lower : String → String) : Except ClientException Unit →
    Except ClientException Unit
  | .ok u => .ok u
  | .error exc => if saysMissing lower exc then .ok () else .error exc

def _deleteItems (lower : String → String) (deletion : Deletion) : Attempt Unit :=
  (withCollection (request (S := serverSignature) (.collectionDelete deletion))).bind
    fun answer => done (ignoreMissing lower answer)

def delete (lower : String → String) (deletion : Deletion) : Attempt Unit :=
  _retry (_deleteItems lower deletion)

end ChromaDBAdapter

/-! ## `LangChainLLMAdapter` -/

/-- `_to_langchain_messages` of one message. -/
def toLangchainMessage (role content : String) : LangchainMessage :=
  if role = "system" then .system content
  else if role = "assistant" || role = "ai" then .ai content
  else .human content

/-- `_to_langchain_messages` of the messages of the pipeline. -/
def toLangchainMessages (messages : Messages) : List LangchainMessage :=
  [toLangchainMessage "system" messages.system, toLangchainMessage "human" messages.human]

namespace LangChainLLMAdapter

/-- What `invoke` does with an exception.  `timeout` is the printed limit of one
call. -/
def retryPolicy (timeout : String) : RetryPolicy ClientException ClientException where
  fatal exc :=
    if exc.isinstance .timeoutError then
      some { classes := [.llmInvocationTimeoutError, .llmInvocationError, .connectionError,
               .timeoutError, .osError]
             text := s!"LLM call timed out after {timeout}s" }
    else if exc.isinstance .connectionError || exc.isinstance .osError then
      some { classes := [.llmInvocationError, .connectionError, .osError]
             text := s!"Failed to connect to LLM endpoint: {exc.text}. " ++
               "If using a local model, ensure the server is running." }
    else none
  exhausted last := last.getD {}

/-- `invoke` without a temperature. -/
def invoke (timeout : String) (role : LlmRole) (messages : Messages) : Attempt String :=
  retry (retryPolicy timeout)
    (request (S := serverSignature) (.chat role (toLangchainMessages messages))) backoff
    MAX_RETRIES

end LangChainLLMAdapter

/-! ## `embed` -/

namespace EmbeddingsAdapter

/-- Every exception is retried, and the last one is raised. -/
def retryPolicy : RetryPolicy ClientException ClientException where
  fatal _ := none
  exhausted last := last.getD {}

/-- `embed` of both embeddings adapters. -/
def embed (texts : List String) : Attempt (List Embedding) :=
  retry retryPolicy (request (S := serverSignature) (.createEmbeddings texts)) backoff MAX_RETRIES

end EmbeddingsAdapter

/-! ## The ports -/

/-- The error of a port call as the pipeline prints it. -/
def asText {α : Type} : Except ClientException α → Except String α
  | .ok a => .ok a
  | .error exc => .error exc.text

/-- The adapter code behind each port call of the pipeline. -/
def adapters (lower : String → String) (timeout : String) :
    (c : IngestCall) → Program serverSignature c.Answer
  | .get d b => (ChromaDBAdapter.get d b).bind fun r => done (asText r)
  | .ingest es => (ChromaDBAdapter.ingest es).bind fun r => done (asText r)
  | .deleteIds ids => (ChromaDBAdapter.delete lower (.ids ids)).bind fun r => done (asText r)
  | .deleteWhere d => (ChromaDBAdapter.delete lower (.document d)).bind fun r => done (asText r)
  | .invoke role m => (LangChainLLMAdapter.invoke timeout role m).bind fun r => done (asText r)
  | .embed texts => (EmbeddingsAdapter.embed texts).bind fun r => done (asText r)

/-! ## The calls of a model -/

section Invoke

open LangChainLLMAdapter

variable {σ : Type} {W : World serverSignature σ} {timeout : String} {role : LlmRole}
  {messages : Messages} {s s' : σ} {t : List (Event serverSignature)}
  {r : Except ClientException String}

/-- The failed calls of a model, with the pause after each. -/
def failedChats (role : LlmRole) (messages : List LangchainMessage) (es : List ClientException) :
    List (Event serverSignature) :=
  ladder (S := serverSignature) (c := .chat role messages)
    (p := fun k => .sleep (BASE_DELAY * 2 ^ k)) Except.error (fun _ => ()) 0 es

/-- A call that timed out or did not reach the endpoint is the last one. -/
def endsRetries (exc : ClientException) : Bool :=
  exc.isinstance .timeoutError || exc.isinstance .connectionError || exc.isinstance .osError

theorem fatal_eq_none_iff {exc : ClientException} :
    (retryPolicy timeout).fatal exc = none ↔ endsRetries exc = false := by
  simp only [retryPolicy, endsRetries]
  cases exc.isinstance .timeoutError <;> cases exc.isinstance .connectionError <;>
    cases exc.isinstance .osError <;> simp

theorem isinstance_of_fatal {exc d : ClientException}
    (h : (retryPolicy timeout).fatal exc = some d) : d.isinstance .llmInvocationError = true := by
  simp only [retryPolicy] at h
  split at h
  · cases h
    rfl
  · split at h
    · cases h
      rfl
    · cases h

/-- `invoke` makes the same call up to three times, with a longer pause each
time.  It makes no call after one that timed out or did not reach the endpoint,
and gives up on another exception only after the third call. -/
theorem invoke_attempts (h : Runs W (invoke timeout role messages) s t r s') :
    ∃ (es : List ClientException) (last : Except ClientException String),
      t = failedChats role (toLangchainMessages messages) es ++
        [⟨.chat role (toLangchainMessages messages), last⟩] ∧
      es.length < MAX_RETRIES ∧ (∀ e ∈ es, endsRetries e = false) ∧
      ((∃ answer, last = .ok answer ∧ r = .ok answer) ∨
        (∃ e d, last = .error e ∧ endsRetries e = true ∧ r = .error d ∧
          d.isinstance .llmInvocationError = true) ∨
        ∃ e, last = .error e ∧ endsRetries e = false ∧ r = .error e ∧
          es.length + 1 = MAX_RETRIES) := by
  obtain ⟨es, tail, hlength, hes, rfl, hend⟩ :=
    Runs.retry_single Except.error (fun _ => ()) (fun _ _ hx => hx) (fun _ _ _ => rfl)
      (Nat.succ_pos 2) h
  have hretried : ∀ e ∈ es, endsRetries e = false := by
    intro e he
    exact fatal_eq_none_iff.mp (hes e he)
  cases hend with
  | @success x answer hx =>
    exact ⟨es, x, rfl, hlength, hretried, Or.inl ⟨answer, hx, rfl⟩⟩
  | @fatal e d hfatal =>
    refine ⟨es, .error e, rfl, hlength, hretried, Or.inr (Or.inl ⟨e, d, rfl, ?_, rfl,
      isinstance_of_fatal hfatal⟩)⟩
    by_contra hends
    rw [fatal_eq_none_iff.mpr (by simpa using hends)] at hfatal
    cases hfatal
  | @exhausted e hfatal hn =>
    exact ⟨es, .error e, rfl, hlength, hretried,
      Or.inr (Or.inr ⟨e, rfl, fatal_eq_none_iff.mp hfatal, rfl, hn⟩)⟩
  | stopped _ _ hstop => cases hstop

/-- A model that is overloaded once and then times out. -/
def slowModel : Script serverSignature Nat
  | 0, .chat _ _ => (.error { text := "overloaded" }, 1)
  | k + 1, .chat _ _ => (.error { classes := [.timeoutError] }, k + 2)
  | k, .sleep _ => ((), k)
  | k, .getOrCreateCollection => (.ok (), k)
  | k, .collectionGet _ _ => (.ok { ids := [] }, k)
  | k, .collectionUpsert _ => (.ok (), k)
  | k, .collectionDelete _ => (.ok (), k)
  | k, .createEmbeddings _ => (.ok [], k)

/-- What it makes of a call: the calls and the result. -/
def slowInvoke : Except ClientException String × List (Event serverSignature) × Nat :=
  (invoke "120.0" .summary ⟨"s", "h"⟩).eval slowModel 0

theorem invoke_attempts_slow :
    ∃ (es : List ClientException) (last : Except ClientException String),
      slowInvoke.2.1 = failedChats .summary [.system "s", .human "h"] es ++
        [⟨.chat .summary [.system "s", .human "h"], last⟩] ∧ es.length < MAX_RETRIES := by
  have hrun := eval_runs (W := slowModel.world) (fun _ _ => rfl)
    (invoke "120.0" .summary ⟨"s", "h"⟩) 0
  obtain ⟨es, last, ht, hlength, _⟩ := invoke_attempts hrun
  exact ⟨es, last, ht, hlength⟩

end Invoke

end VirtualContributor.Adapters
