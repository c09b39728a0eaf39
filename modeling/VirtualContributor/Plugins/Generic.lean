import VirtualContributor.Graph.Execution
import VirtualContributor.Plugins.Expert

/-!
# The generic plugin

`GenericPlugin.handle` answers a message by the language model alone, or through
the prompt graph of the event.  In a graph the retrieve nodes query the
knowledge store; the collection of a query is that of the event, whatever the
node asks for.

Tracing and logging are left out.
-/

namespace VirtualContributor.Plugins

open Lib Program Retrieval Messaging VirtualContributor.Graph

/-! ## Calls -/

/-- The calls of the language model: `llm.invoke`, with the roles and contents
of the messages, and of a chain node of a prompt graph. -/
inductive GenericLlmCall where
  | invoke (messages : List (String × String))
  | chain (prompt : String)

abbrev genericLlmSignature : Signature where
  Call := GenericLlmCall
  Answer _ := Except Exc String

abbrev genericSignature : Signature := storeSignature.sum genericLlmSignature

/-- Programs of the plugin that can raise. -/
abbrev Responding := ExceptT Exc (Program genericSignature)

/-- `llm.invoke(messages)`. -/
def invokeLlm (messages : List (String × String)) : Responding String :=
  Program.call (S := genericSignature) (.inr (.invoke messages)) .done

/-! ## The plugin -/

/-- What `_store_can_embed` sees of a store: its `_embeddings`, or the store
behind its `_delegate`. -/
inductive StoreObject where
  | adapter (hasEmbeddings : Bool)
  | decorator (delegate : StoreObject)
  | other

/-- The loop of `_store_can_embed`. -/
def canEmbedWithin : Nat → StoreObject → Bool
  | 0, _ => true
  | _ + 1, .adapter hasEmbeddings => hasEmbeddings
  | n + 1, .decorator delegate => canEmbedWithin n delegate
  | _ + 1, .other => true

/-- `_store_can_embed`. -/
def storeCanEmbed (store : StoreObject) : Bool := canEmbedWithin 5 store

/-- `Input`, with the fields that the plugin reads. -/
structure GenericInput extends Input where
  prompt : Option (List String) := none

/-- The libraries: those of prompt graphs, the builder of state models, the
runner of compiled graphs and the validation of a response. -/
structure GenericHost (σ : Type) where
  libraries : Libraries
  buildStateModel : Json → Except Raised σ
  modelFields : σ → List String
  runGraph : (graph : Compiled) → Fields → Schedule graph.nodes.length
  response : ResponseFields → Except Exc Response

structure GenericPlugin where
  knowledgeStore : Option StoreObject := none
  rewritePolicy : Option (String → Bool) := none
  maxExpansionRatio : Rat := DEFAULT_MAX_EXPANSION_RATIO
  maxHistoryTurns : Int := DEFAULT_MAX_HISTORY_TURNS
  maxHistoryChars : Int := DEFAULT_MAX_HISTORY_CHARS

namespace GenericPlugin

variable {σ : Type} (host : GenericHost σ) (plugin : GenericPlugin)

/-! ## Without a graph -/

def condenserSystemPrompt : String :=
  "You are a helpful assistant that condenses conversation history into a single, " ++
  "clear, self-contained question. Given the conversation history and the latest " ++
  "question from the user, rephrase the latest question so that it can be understood " ++
  "without any prior context. Return only the rephrased question, nothing else."

/-- `_history_as_text`. -/
def historyAsText (history : List HistoryItem) : String :=
  "\n".intercalate (history.map fun item => s!"{item.role.str}: {item.content}")

def condenserMessages (event : GenericInput) : List (String × String) :=
  let history := recentHistory event.history plugin.maxHistoryTurns plugin.maxHistoryChars
  [("system", condenserSystemPrompt),
    ("human", s!"History:\n{historyAsText history}\n\nLatest question: {event.message}")]

/-- `rewrite_query`. -/
def rewriteQuery (messages : List (String × String)) (original : String) :
    Program genericSignature String := do
  match ← (invokeLlm messages).run with
  | .error _ => return original
  | .ok candidate => return validateRewrite candidate original plugin.maxExpansionRatio

/-- The question that is answered. -/
def resolveQuestion (event : GenericInput) : Program genericSignature String :=
  if shouldRewrite event.message event.history plugin.rewritePolicy then
    plugin.rewriteQuery (plugin.condenserMessages event) event.message
  else return event.message

/-- The messages of the answering call. -/
def finalMessages (event : GenericInput) (question : String) : List (String × String) :=
  (event.prompt.getD []).map (fun sysMsg => ("system", sysMsg)) ++ [("human", question)]

def handleWithoutGraph (event : GenericInput) : Responding Response := do
  let question ← (plugin.resolveQuestion event : Responding String)
  let result ← invokeLlm (finalMessages event question)
  return { result := some result }

/-! ## With a graph -/

/-- The exceptions of a run of a graph. -/
def nodeExc : NodeError → Exc
  | .raised error => ExpertPlugin.graphExc error
  | .render (.keyError text) => { typeName := "KeyError", text }
  | .render (.valueError text) => { typeName := "ValueError", text }
  | .render (.attribute text) => { typeName := "AttributeError", text }
  | .retriever exc => exc

def runExc : RunError → Exc
  | .node error => nodeExc error
  | .library exc => exc

def compileExc : CompileError → Exc
  | .raised error => ExpertPlugin.graphExc error
  | .library exc => exc

/-- `isinstance(n, dict) and n.get("type") == "retrieve"`. -/
def isRetrieveDef : Json → Bool
  | .obj fields => isText "retrieve" (dictGet fields "type" .null)
  | _ => false

/-- Whether an entry of `nodes` is a retrieve node. -/
def hasRetrieveNode (definition : Fields) : Except Exc Bool :=
  let nodes := dictGet definition "nodes" (.arr [])
  match nodes.len? with
  | some _ => .ok (nodes.elements.any isRetrieveDef)
  | none =>
    .error { typeName := "TypeError", text := s!"'{nodes.typeName}' object is not iterable" }

/-- Raise a `PromptGraphConfigError` if the condition holds. -/
def reject (condition : Bool) (text : String) : Except Exc Unit :=
  if condition then .error { typeName := "PromptGraphConfigError", text } else .ok ()

/-- The checks before the graph is built. -/
def checkRetrieval (event : GenericInput) (definition : Fields) : Except Exc Unit := do
  let retrieves ← hasRetrieveNode definition
  reject (retrieves && event.bodyOfKnowledgeId.getD "" = "") <|
    "prompt graph contains a retrieve node, but 'bodyOfKnowledgeID' is empty — retrieval has " ++
    "no tenant to scope its collection to"
  reject (retrieves && plugin.knowledgeStore.any (!storeCanEmbed ·)) <|
    "prompt graph requires a knowledge store with query embeddings, but the configured " ++
    "knowledge store has no embeddings capability available"

/-- `n_results`, which is an integer in an accepted node. -/
def resultCount : Json → Nat
  | .int n => n.toNat
  | _ => 0

/-- `_retrieve`.  The collection that the node asks for is not read. -/
def retrieve (collectionName : String) (request : Request) :
    Program genericSignature (Except Exc (List String)) :=
  let dense : DenseQuery :=
    { collection := collectionName, query := request.query
      nResults := resultCount request.nResults, filter := some FACTUAL_WHERE }
  Program.call (S := genericSignature) (.inl (.query dense)) fun outcome =>
    .done ((raiseFailure outcome).map fun result => firstRow result.documents)

/-- The calls of the nodes, as the plugin makes them. -/
def nodeCall (collectionName : String) :
    (call : NodeCall) → Program genericSignature call.Answer
  | .retriever request => retrieve collectionName request
  | .llm prompt => Program.call (S := genericSignature) (.inr (.chain prompt)) .done

/-- A program of the nodes, as a program of the plugin. -/
def perform {α : Type} (collectionName : String) (program : Acting α) : Responding α :=
  ExceptT.mk ((program.run.expand (nodeCall collectionName)).bind fun result =>
    .done (result.mapError runExc))

/-- The initial state of a graph. -/
def initialState (event : GenericInput) : Fields :=
  let history := recentHistory event.history plugin.maxHistoryTurns plugin.maxHistoryChars
  let messages :=
    (history.map fun item => (item.role.value, item.content)) ++ [("human", event.message)]
  let conversation := "\n".intercalate
    (messages.map fun message => s!"{message.1}:\n{message.2}")
  [("messages", .arr (messages.map fun message =>
      .obj [("role", .str message.1), ("content", .str message.2)])),
    ("current_question", .str event.message),
    ("conversation", .str conversation),
    ("bok_id", .str (event.bodyOfKnowledgeId.getD "")),
    ("description", .str event.description),
    ("display_name", .str event.displayName)]

/-- `PromptGraph.from_definition(…)` and `graph.compile(…)`. -/
def compiledGraph (definition : Fields) : Except Exc Compiled := do
  let graph ← ExpertPlugin.raiseGraph
    (fromDefinition host.libraries.text.toPythonText host.buildStateModel definition)
  (compileGraph host.libraries host.modelFields plugin.knowledgeStore.isSome (fun _ => none)
    graph).mapError compileExc

/-- The collection of every query of a graph. -/
def collectionName (event : GenericInput) : String :=
  event.bodyOfKnowledgeId.getD "" ++ "-knowledge"

/-- `_handle_with_graph`. -/
def handleWithGraph (event : GenericInput) (definition : Fields) : Responding Response := do
  let _ ← (plugin.checkRetrieval event definition : Except Exc Unit)
  let graph ← (plugin.compiledGraph host definition : Except Exc Compiled)
  let finalState ← perform (collectionName event) <|
    runSchedule (fun index => (graph.nodes.get index).2)
      (host.runGraph graph (plugin.initialState event))
  let answer := dictGet finalState "final_answer" .null
  host.response
    { result := if answer.truthy then answer else dictGet finalState "result" (.str "")
      sources := []
      humanLanguage := event.language
      resultLanguage := dictGet finalState "result_language" .null
      knowledgeLanguage := dictGet finalState "knowledge_language" .null
      originalResult := dictGet finalState "original_result" .null }

/-- `handle`. -/
def handle (event : GenericInput) : Responding Response :=
  let definition := event.promptGraph.getD []
  if definition.isEmpty then plugin.handleWithoutGraph event
  else plugin.handleWithGraph host event definition

end GenericPlugin

end VirtualContributor.Plugins
