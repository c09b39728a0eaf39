import Mathlib.Logic.Function.Basic
import VirtualContributor.Lib.Machine
import VirtualContributor.Pipeline.Document

/-!
# The query embeddings of a scope

`ChromaDBAdapter.query` and `query_lexical` share the vectors of a query inside
a `query_embedding_scope`.  The first call with some texts starts a provider
task and puts it into the cache of the scope, later calls wait for it, and a
callback of the task puts its vectors in its place or takes it out.

The adapter is a machine.  Its events are the stretches of code between two
points at which the event loop can switch: a call up to its first wait, the
first step and the end of a provider task, the callback of a task, a waiting
call that goes on or is cancelled, and the two halves of the end of a scope.
The calls of a scope are those whose context variable holds its cache.
-/

namespace VirtualContributor.Adapters

open Lib
open Pipeline (Embedding)

/-! ## Tasks, scopes and calls -/

/-- `list[list[float]]`. -/
abbrev Vectors := List Embedding

/-- The texts of a query: the key of the cache and the argument of the
provider. -/
abbrev Texts := List String

/-- How a task ends. -/
inductive Outcome
  | success (vectors : Vectors)
  | failure (exc : String)
  | cancelled
deriving DecidableEq

inductive TaskStatus
  | scheduled
  | running
  | done (outcome : Outcome)
deriving DecidableEq

def TaskStatus.isDone : TaskStatus → Bool
  | done _ => true
  | scheduled | running => false

/-- A task that was made by `create_task(self._embeddings.embed_query(…))`, with
what its callback closes over. -/
structure ProviderTask where
  scope : Nat
  texts : Texts
  status : TaskStatus := .scheduled
  /-- `cancel()` was called before the task ended. -/
  cancelRequested : Bool := false
  /-- `_complete_provider_task` has run. -/
  completed : Bool := false
deriving DecidableEq

/-- A value of the cache. -/
inductive CacheEntry
  | task (id : Nat)
  | vectors (vectors : Vectors)
deriving DecidableEq

/-- Where the scope is: not entered, in its body, at the `gather` of its
`finally` with the tasks it collected, or over. -/
inductive ScopePhase
  | fresh
  | body
  | gathering (live : List Nat)
  | closed
deriving DecidableEq

structure EmbeddingScope where
  cache : OrderedDict Texts CacheEntry := .empty
  phase : ScopePhase := .fresh

/-- A call of `query` or of `query_lexical`. -/
inductive Query
  | dense (queryTexts : List String)
  | lexical (terms : List String)
deriving DecidableEq

/-- The argument of `_embed_query`, if the call comes to it. -/
def Query.texts : Query → Option Texts
  | .dense queryTexts => some queryTexts
  | .lexical [] => none
  | .lexical terms => some [" ".intercalate terms]

/-- What a call waits for: a task itself, or the outer future of
`asyncio.shield`. -/
inductive Awaited
  | task (id : Nat)
  | shield (id : Nat)
deriving DecidableEq

def Awaited.id : Awaited → Nat
  | task id => id
  | shield id => id

/-- What became of the embedding of a call. -/
inductive CallState
  | waiting (awaited : Awaited)
  | received (vectors : Vectors)
  | raised (exc : String)
  | cancelled
  | unneeded
deriving DecidableEq

structure QueryCall where
  scope : Nat
  query : Query
  state : CallState
deriving DecidableEq

/-- The adapter: its scopes, tasks and calls, and the calls that its tasks made
to the provider. -/
structure AdapterState where
  scopes : Nat → EmbeddingScope := fun _ => {}
  tasks : List ProviderTask := []
  calls : List QueryCall := []
  submissions : List (Nat × Texts) := []

namespace AdapterState

variable (s : AdapterState)

/-! ## Waiting -/

def statusOf (id : Nat) : Option TaskStatus := (s.tasks[id]?).map ProviderTask.status

/-- What awaiting an ended task gives. -/
def outcomeState : Outcome → CallState
  | .success vectors => .received vectors
  | .failure exc => .raised exc
  | .cancelled => .cancelled

/-- The state of a call at `await awaited`.  An ended task does not suspend
it. -/
def await (awaited : Awaited) : CallState :=
  match s.statusOf awaited.id with
  | some (.done outcome) => outcomeState outcome
  | _ => .waiting awaited

/-- `asyncio.shield(task)`, which is the task itself when it has ended. -/
def shield (id : Nat) : Awaited :=
  match s.statusOf id with
  | some (.done _) => .task id
  | _ => .shield id

/-- `task.cancel()`, for a task that has not ended. -/
def cancelTask (id : Nat) : AdapterState :=
  { s with tasks := s.tasks.modify id fun t =>
      if t.status.isDone then t else { t with cancelRequested := true } }

/-- The cancellation of a call cancels what it waits for.  The outer future of
a shield does not pass it on. -/
def cancelAwaited : Awaited → AdapterState
  | .task id => s.cancelTask id
  | .shield _ => s

/-! ## Calls -/

/-- Change the cache of a scope. -/
def updateCache (scope : Nat)
    (f : OrderedDict Texts CacheEntry → OrderedDict Texts CacheEntry) : AdapterState :=
  { s with
    scopes := Function.update s.scopes scope
      { s.scopes scope with cache := f (s.scopes scope).cache } }

/-- The branch of `_embed_query` that starts a task. -/
def createTask (scope : Nat) (texts : Texts) : AdapterState :=
  let s' : AdapterState :=
    { s with tasks := s.tasks ++ [{ scope := scope, texts := texts }] }
  s'.updateCache scope (·.set texts (.task s.tasks.length))

/-- `_embed_query` up to its first wait: the new state and that of the call. -/
def embedQuery (scope : Nat) (texts : Texts) : AdapterState × CallState :=
  match (s.scopes scope).cache.get? texts with
  | some (.vectors vectors) => (s, .received vectors)
  | some (.task id) => (s, s.await (s.shield id))
  | none =>
    let s' := s.createTask scope texts
    (s', s'.await (s'.shield s.tasks.length))

/-- A call of `query` or `query_lexical` up to its first wait. -/
def beginCall (scope : Nat) (query : Query) : AdapterState :=
  match query.texts with
  | none => { s with calls := s.calls ++ [⟨scope, query, .unneeded⟩] }
  | some texts =>
    let (s', state) := s.embedQuery scope texts
    { s' with calls := s'.calls ++ [⟨scope, query, state⟩] }

/-- Move a call on. -/
def setCall (call : Nat) (state : CallState) : AdapterState :=
  { s with calls := s.calls.modify call fun c => { c with state := state } }

/-! ## Provider tasks -/

def setStatus (id : Nat) (status : TaskStatus) : AdapterState :=
  { s with tasks := s.tasks.modify id fun t => { t with status := status } }

/-- The first step of a task, which calls the provider unless the task was
cancelled before. -/
def startTask (id : Nat) (t : ProviderTask) : AdapterState :=
  if t.cancelRequested then s.setStatus id (.done .cancelled)
  else { s.setStatus id .running with submissions := s.submissions ++ [(id, t.texts)] }

/-- `_complete_provider_task`. -/
def completeTask (id : Nat) (t : ProviderTask) : AdapterState :=
  let s := { s with tasks := s.tasks.modify id fun t => { t with completed := true } }
  if (s.scopes t.scope).cache.get? t.texts = some (.task id) then
    match t.status with
    | .done (.success vectors) => s.updateCache t.scope (·.set t.texts (.vectors vectors))
    | _ => s.updateCache t.scope (·.erase t.texts)
  else s

/-! ## The end of a scope -/

def setPhase (scope : Nat) (phase : ScopePhase) : AdapterState :=
  { s with scopes := Function.update s.scopes scope { s.scopes scope with phase := phase } }

/-- The tasks in a cache. -/
def liveTasks (cache : OrderedDict Texts CacheEntry) : List Nat :=
  cache.values.filterMap fun
    | .task id => some id
    | .vectors _ => none

/-- The `finally` of a scope up to its `gather`: cancel the tasks of the cache
that have not ended. -/
def exitScope (scope : Nat) : AdapterState :=
  let live := liveTasks (s.scopes scope).cache
  (live.foldl cancelTask s).setPhase scope (.gathering live)

/-- The rest of the `finally`. -/
def closeScope (scope : Nat) : AdapterState :=
  (s.updateCache scope fun _ => .empty).setPhase scope .closed

end AdapterState

/-! ## The machine -/

inductive AdapterEvent
  | enter (scope : Nat)
  | call (scope : Nat) (query : Query)
  | start (task : Nat)
  | finish (task : Nat) (outcome : Outcome)
  | complete (task : Nat)
  | resume (call : Nat)
  | cancel (call : Nat)
  | exit (scope : Nat)
  | close (scope : Nat)

namespace AdapterState

/-- One event.  No call begins in a scope that has begun to end. -/
def step (s : AdapterState) : AdapterEvent → Option AdapterState
  | .enter scope =>
    if (s.scopes scope).phase = .fresh then some (s.setPhase scope .body) else none
  | .call scope query =>
    if (s.scopes scope).phase = .body then some (s.beginCall scope query) else none
  | .start id =>
    match s.tasks[id]? with
    | some t => if t.status = .scheduled then some (s.startTask id t) else none
    | none => none
  | .finish id outcome =>
    if s.statusOf id = some .running then some (s.setStatus id (.done outcome)) else none
  | .complete id =>
    match s.tasks[id]? with
    | some t =>
      if t.status.isDone && !t.completed then some (s.completeTask id t) else none
    | none => none
  | .resume c =>
    match (s.calls[c]?).map QueryCall.state with
    | some (.waiting awaited) =>
      match s.statusOf awaited.id with
      | some (.done outcome) => some (s.setCall c (outcomeState outcome))
      | _ => none
    | _ => none
  | .cancel c =>
    match (s.calls[c]?).map QueryCall.state with
    | some (.waiting awaited) => some ((s.cancelAwaited awaited).setCall c .cancelled)
    | _ => none
  | .exit scope =>
    if (s.scopes scope).phase = .body then some (s.exitScope scope) else none
  | .close scope =>
    match (s.scopes scope).phase with
    | .gathering live =>
      if live.all fun id => ((s.statusOf id).map TaskStatus.isDone).getD false then
        some (s.closeScope scope)
      else none
    | _ => none

end AdapterState

/-- The adapter as a machine. -/
def queryEmbedding : Machine AdapterState AdapterEvent := ⟨{}, AdapterState.step⟩

end VirtualContributor.Adapters
