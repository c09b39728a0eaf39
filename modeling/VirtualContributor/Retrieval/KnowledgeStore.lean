import VirtualContributor.Lib.Json
import VirtualContributor.Lib.Program
import VirtualContributor.Web.Exception

/-!
# The knowledge store of a query

What retrieval asks of the store: a query by meaning, a query by wording, and
the two of them in one `asyncio.gather`.  A call that fails raises an
`EmbeddingError` or another exception.

Distances, thresholds and weights are exact rationals.
-/

namespace VirtualContributor.Retrieval

open Lib Program

/-! ## Query results -/

/-- The metadata stored beside a passage. -/
abbrev Metadata := Fields

/-- `QueryResult`: each field has one row for each query text, and the rows of
one text are parallel.  A distance of `none` is the `None` of a passage that
was matched by its wording. -/
structure QueryResult where
  documents : List (List String)
  metadatas : List (List Metadata)
  distances : List (List (Option Rat))
  ids : List (List String)

/-- `rows[0] if rows else []`. -/
def firstRow {α : Type} (rows : List (List α)) : List α := rows.headD []

/-- `_empty`. -/
def QueryResult.empty : QueryResult where
  documents := [[]]
  metadatas := [[]]
  distances := [[]]
  ids := [[]]

/-! ## Metadata filters -/

/-- A `where` predicate: `$eq` and `$ne` on a field, `$and` and `$or`. -/
inductive Where where
  | eq (field value : String)
  | ne (field value : String)
  | and (clauses : List Where)
  | or (clauses : List Where)

/-- `FACTUAL_WHERE`. -/
def FACTUAL_WHERE : Where :=
  .and [.ne "embeddingType" "summary", .ne "type" "bodyOfKnowledgeSummary"]

/-! ## Failures -/

/-- The exceptions of `core/ports/embeddings.py`. -/
inductive EmbeddingErrorClass where
  | EmbeddingError
  | EmbeddingInputError
  | EmbeddingPermanentError
  | EmbeddingTransientError
deriving DecidableEq

/-- A raised `EmbeddingError`. -/
structure EmbeddingError where
  cls : EmbeddingErrorClass
  text : String

/-- The exception that leaves the call. -/
def EmbeddingError.toExc (error : EmbeddingError) : Exc :=
  match error.cls with
  | .EmbeddingError =>
    { typeName := "EmbeddingError", text := error.text, classes := [.embeddingError] }
  | .EmbeddingInputError =>
    { typeName := "EmbeddingInputError", text := error.text,
      classes := [.embeddingError, .embeddingInputError] }
  | .EmbeddingPermanentError =>
    { typeName := "EmbeddingPermanentError", text := error.text,
      classes := [.embeddingError, .embeddingPermanentError] }
  | .EmbeddingTransientError =>
    { typeName := "EmbeddingTransientError", text := error.text, classes := [.embeddingError] }

@[simp] theorem EmbeddingError.isInstance_embeddingError (error : EmbeddingError) :
    error.toExc.isInstance .embeddingError = true := by
  obtain ⟨cls, text⟩ := error
  cases cls <;> rfl

/-- An embedding error is no timeout. -/
theorem EmbeddingError.not_timeout (error : EmbeddingError) :
    error.toExc.isInstance .timeoutError = false ∧
      error.toExc.isInstance .llmInvocationTimeoutError = false := by
  obtain ⟨cls, text⟩ := error
  cases cls <;> exact ⟨rfl, rfl⟩

/-- A failed store call. -/
inductive StoreFailure where
  | embedding (error : EmbeddingError)
  | ordinary (exc : Exc) (other : exc.isInstance .embeddingError = false)

/-- The exception object. -/
def StoreFailure.toExc : StoreFailure → Exc
  | embedding error => error.toExc
  | ordinary exc _ => exc

/-- `isinstance(failure, EmbeddingError)`. -/
def StoreFailure.isEmbedding : StoreFailure → Bool
  | embedding _ => true
  | ordinary _ _ => false

/-! ## Calls -/

/-- The arguments of `query`; there is one query text. -/
structure DenseQuery where
  collection : String
  query : String
  nResults : Nat
  filter : Option Where

/-- The arguments of `query_lexical`. -/
structure LexicalQuery where
  collection : String
  terms : List String
  nResults : Nat
  filter : Option Where

inductive StoreCall where
  | query (dense : DenseQuery)
  | queryLexical (lexical : LexicalQuery)
  | gather (dense : DenseQuery) (lexical : LexicalQuery)

/-- What a query comes to. -/
abbrev QueryOutcome := Except StoreFailure QueryResult

/-- `gather` returns the outcomes of both arms, exceptions included. -/
def StoreCall.Answer : StoreCall → Type
  | query _ | queryLexical _ => QueryOutcome
  | gather _ _ => QueryOutcome × QueryOutcome

abbrev storeSignature : Signature where
  Call := StoreCall
  Answer := StoreCall.Answer

/-- Programs that query the store and can raise. -/
abbrev Retrieving := ExceptT Exc (Program storeSignature)

/-- Await a call; its failure is raised. -/
def raiseFailure {α : Type} : Except StoreFailure α → Except Exc α
  | .ok value => .ok value
  | .error failure => .error failure.toExc

/-- `store.query`. -/
def storeQuery (dense : DenseQuery) : Retrieving QueryResult :=
  Program.call (S := storeSignature) (.query dense) fun outcome => .done (raiseFailure outcome)

/-- `store.query_lexical`, with the outcome as a value. -/
def tryLexical (lexical : LexicalQuery) : Retrieving QueryOutcome :=
  Program.call (S := storeSignature) (.queryLexical lexical) fun outcome => .done (.ok outcome)

/-- `asyncio.gather(…, return_exceptions=True)` of both queries. -/
def gatherQueries (dense : DenseQuery) (lexical : LexicalQuery) :
    Retrieving (QueryOutcome × QueryOutcome) :=
  Program.call (S := storeSignature) (.gather dense lexical) fun outcomes =>
    .done (.ok outcomes)

/-! ## A store that answers -/

/-- What a store answers to the queries. -/
structure StoreAnswers where
  query : DenseQuery → QueryOutcome
  queryLexical : LexicalQuery → QueryOutcome

namespace StoreAnswers

def answer (store : StoreAnswers) : (c : StoreCall) → c.Answer
  | .query dense => store.query dense
  | .queryLexical lexical => store.queryLexical lexical
  | .gather dense lexical => (store.query dense, store.queryLexical lexical)

/-- The outcome of a program that queries the store. -/
def outcome {α : Type} (store : StoreAnswers) (program : Retrieving α) : Except Exc α :=
  (program.run.eval (fun _ c => (store.answer c, ())) ()).1

theorem outcome_bind {α β : Type} (store : StoreAnswers) (program : Retrieving α)
    (next : α → Retrieving β) :
    store.outcome (program >>= next) =
      store.outcome program >>= fun a => store.outcome (next a) := by
  have hrun : (program >>= next).run = program.run.bind fun
      | .ok a => (next a).run
      | .error exc => .done (.error exc) := by
    show program.run.bind (ExceptT.bindCont next) = _
    congr 1
    funext r
    cases r <;> rfl
  unfold outcome
  rw [hrun, eval_bind]
  dsimp only
  cases (program.run.eval (fun _ c => (store.answer c, ())) ()).1 <;> rfl

theorem outcome_storeQuery (store : StoreAnswers) (dense : DenseQuery) :
    store.outcome (storeQuery dense) = raiseFailure (store.query dense) := rfl

theorem outcome_gather (store : StoreAnswers) (dense : DenseQuery) (lexical : LexicalQuery)
    (f : QueryOutcome × QueryOutcome → Except Exc QueryResult) :
    store.outcome (do
      let outcomes ← gatherQueries dense lexical
      f outcomes) = f (store.query dense, store.queryLexical lexical) := rfl

end StoreAnswers

end VirtualContributor.Retrieval
