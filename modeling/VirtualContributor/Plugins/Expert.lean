import VirtualContributor.Graph.Compile
import VirtualContributor.Lib.FailStop
import VirtualContributor.Messaging.Events
import VirtualContributor.Plugins.ExpertPassages
import VirtualContributor.Retrieval.HierarchyRetrieval
import VirtualContributor.Retrieval.HybridRetrieval
import VirtualContributor.Retrieval.QueryRewrite
import VirtualContributor.Retrieval.Routing

/-!
# The expert plugin

`ExpertPlugin.handle` answers a query from the knowledge store, by itself or
through the prompt graph of the event.  It calls the store and the language
model.

LangGraph runs a compiled graph.  `GraphRun` is such a run as the plugin sees
it: calls of the model and of the `retrieve` node, one after another, up to a
final state or an exception.  An exception of a node is the end of the run.
Tracing, the faithfulness validator and the context observer are left out:
they decide nothing.
-/

namespace VirtualContributor.Plugins

open Lib Program Retrieval Messaging

/-! ## Calls -/

/-- What `combined_expert_prompt` is formatted with, and whether the
instruction for complex questions follows it. -/
structure AnsweringPrompt where
  vcName : String
  knowledge : String
  question : String
  emptyContextInstruction : String
  citationScopeInstruction : String
  stepByStep : Bool

/-- The calls of the language model: to rewrite a question with
`condense_prompt`, to answer, and of a node of a prompt graph. -/
inductive LlmCall where
  | condense (chatHistory question : String)
  | answer (prompt : AnsweringPrompt) (temperature : Option Rat)
  | node (prompt : String)

abbrev llmSignature : Signature where
  Call := LlmCall
  Answer _ := Except Exc String

abbrev expertSignature : Signature := storeSignature.sum llmSignature

/-- Programs of the plugin that can raise. -/
abbrev Answering := ExceptT Exc (Program expertSignature)

/-- `llm.invoke`. -/
def llmInvoke (call : LlmCall) : Answering String :=
  Program.call (S := expertSignature) (.inr call) .done

/-! ## The event and the libraries -/

/-- `Input`, with the fields that the plugin reads. -/
structure Input where
  message : String
  bodyOfKnowledgeId : Option String := none
  history : List HistoryItem := []
  displayName : String := ""
  description : String := ""
  language : Option String := some "EN"
  promptGraph : Option Fields := none

/-- The arguments of `Source`. -/
structure SourceFields where
  chunkIndex : Json
  embeddingType : Json
  documentId : Json
  source : Json
  title : Json
  type : Json
  score : Option Rat
  uri : Json

/-- The arguments of the `Response` of a prompt graph. -/
structure ResponseFields where
  result : Json
  sources : List Source
  humanLanguage : Option String
  resultLanguage : Json
  knowledgeLanguage : Json
  originalResult : Json

/-- A run of a compiled graph. -/
inductive GraphRun where
  | final (state : Fields)
  | raised (exc : Exc)
  | llm (prompt : String) (next : Except Exc String → GraphRun)
  | retrieve (rephrasedQuestion currentQuestion : Option String) (next : String → GraphRun)

/-- The libraries and ports besides the store and the model: the text tables,
the validation of pydantic models, the builders and the runner of graphs,
whether the store has `query_lexical`, and whether a question is complex. -/
structure ExpertHost (σ : Type) where
  text : UnicodeText
  source : SourceFields → Except Exc Source
  response : ResponseFields → Except Exc Response
  buildStateModel : Json → Except Graph.Raised σ
  modelFields : σ → List String
  buildOutputModel : Json → Except Graph.Raised Unit
  runGraph : Graph.Wiring Json → Fields → GraphRun
  providesLexical : Bool
  isComplex : String → Bool

/-- Libraries that do the least. -/
def plainHost : ExpertHost Unit where
  text := asciiUnicode
  source _ := .ok {}
  response _ := .ok {}
  buildStateModel _ := .ok ()
  modelFields _ := []
  buildOutputModel _ := .ok ()
  runGraph _ _ := .final []
  providesLexical := true
  isComplex _ := false

structure ExpertPlugin where
  nResults : Nat := 5
  scoreThreshold : Rat := 3 / 10
  maxContextChars : Nat := 20000
  answeringTemperature : Option Rat := none
  chainOfThoughtEnabled : Bool := true
  hybridConfig : Option HybridSettings := none
  reranker : Option Rerank := none
  rerankCandidateN : Nat := 20
  rerankTopK : Nat := 5
  queryRouter : Option Classify := none
  routingTable : RouteClass → Option RetrievalProfile := DEFAULT_ROUTING_TABLE
  rewritePolicy : Option (String → Bool) := none
  maxExpansionRatio : Rat := DEFAULT_MAX_EXPANSION_RATIO
  maxHistoryTurns : Int := DEFAULT_MAX_HISTORY_TURNS
  maxHistoryChars : Int := DEFAULT_MAX_HISTORY_CHARS
  hierarchicalRetrievalEnabled : Bool := false
  hierarchyMaxBranches : Nat := 3
  hierarchyDisplayNamesEnabled : Bool := false
  embeddingQueryMaxUtf8Bytes : Nat := 32768
  rewriteMaxUtf8Bytes : Nat := 4096

namespace ExpertPlugin

variable {σ : Type} (host : ExpertHost σ) (plugin : ExpertPlugin)

/-! ## Retrieval -/

/-- `_resolve_profile`.  A router that fails or decides nothing leaves the
configured defaults. -/
def resolveProfile (message : String) : RetrievalProfile :=
  let unrouted : RetrievalProfile :=
    { retrieve := true
      nResults := plugin.nResults
      scoreThreshold := plugin.scoreThreshold
      maxContextChars := plugin.maxContextChars }
  match plugin.queryRouter with
  | none => unrouted
  | some classify =>
    match classify message with
    | .ok (some route) => (plugin.routingTable route).getD unrouted
    | _ => unrouted

/-- `_maybe_rerank`. -/
def maybeRerank (query : String) (result : QueryResult) : Except Exc QueryResult :=
  match plugin.reranker with
  | none => .ok result
  | some rerank => applyRerank rerank query result

/-- `_truncate_to_top_k`. -/
def truncateToTopK (blocks : List String) (result : QueryResult) : List String × QueryResult :=
  if plugin.reranker.isNone then (blocks, result)
  else (blocks.take plugin.rerankTopK, takeRows plugin.rerankTopK result)

/-- `_retrieve_pipeline` after the retriever. -/
def selectPassages (query : String) (profile : RetrievalProfile) (hierarchy : Bool)
    (result : QueryResult) : Except Exc RetrievalOutcome := do
  let ranked ← plugin.maybeRerank query result
  let formatted := filterAndFormat host.text ranked profile.scoreThreshold hierarchy
  let truncated := plugin.truncateToTopK formatted.1 formatted.2
  let kept := enforceContextBudget truncated.1 truncated.2 profile.maxContextChars
  return {
    blocks := kept.1
    result := kept.2
    initialCount := truncated.1.length
    mode := .flat }

/-- `_retrieve_pipeline`. -/
def retrievePipeline (collection query : String) (profile : RetrievalProfile)
    (filter : Option Where) (hierarchy : Bool) : Retrieving RetrievalOutcome := do
  let poolN :=
    if plugin.reranker.isSome then max profile.nResults plugin.rerankCandidateN
    else profile.nResults
  let result ← retrieve host.text host.providesLexical collection query plugin.hybridConfig poolN
    filter
  plugin.selectPassages host query profile hierarchy result

/-- `flat` of `_retrieve_context`. -/
def flat (collection query : String) (profile : RetrievalProfile) :
    Retrieving RetrievalOutcome :=
  plugin.retrievePipeline host collection query profile (some FACTUAL_WHERE) false

/-- The first stage of `_retrieve_context`: the filter of the second, if the
orienting passages name branches. -/
def routeHierarchy (collection query : String) (profile : RetrievalProfile) :
    Retrieving (Option Where) := do
  let routingResult ← storeQuery
    { collection, query, nResults := plugin.hierarchyMaxBranches * 4,
      filter := some ORIENTING_WHERE }
  let branches := selectBranches routingResult profile.scoreThreshold plugin.hierarchyMaxBranches
  return scopedDetailWhere branches

/-- `except EmbeddingError: raise`, then `except Exception`. -/
def unlessEmbeddingError {α : Type} (p : Retrieving α) : Retrieving (Option α) :=
  attempt (fun exc => exc.isInstance .embeddingError) p

/-- The second stage of `_retrieve_context`, and what follows it. -/
def retrieveScoped (collection query : String) (profile : RetrievalProfile) (predicate : Where) :
    Retrieving RetrievalOutcome := do
  let outcome ← unlessEmbeddingError <|
    plugin.retrievePipeline host collection query profile (some predicate)
      plugin.hierarchyDisplayNamesEnabled
  match outcome with
  | none => plugin.flat host collection query profile
  | some outcome =>
    if outcome.blocks.isEmpty then plugin.flat host collection query profile
    else return { outcome with mode := .scopedSuccess }

/-- `_retrieve_context`. -/
def retrieveContext (collection query : String) (profile : RetrievalProfile) :
    Retrieving RetrievalOutcome :=
  if !plugin.hierarchicalRetrievalEnabled then plugin.flat host collection query profile
  else do
    let routed ← unlessEmbeddingError (plugin.routeHierarchy collection query profile)
    match routed.join with
    | none => plugin.flat host collection query profile
    | some predicate => plugin.retrieveScoped host collection query profile predicate

/-! ## The question -/

/-- `rewrite_query`. -/
def rewriteQuery (chatHistory original : String) : Program expertSignature String := do
  match ← (llmInvoke (.condense chatHistory original)).run with
  | .error _ => return original
  | .ok candidate => return validateRewrite candidate original plugin.maxExpansionRatio

/-- `_resolve_question`. -/
def resolveQuestion (event : Input) : Program expertSignature String := do
  if plugin.embeddingQueryMaxUtf8Bytes < event.message.utf8ByteSize then return event.message
  else if plugin.rewriteMaxUtf8Bytes < event.message.utf8ByteSize then return event.message
  else if !shouldRewrite event.message event.history plugin.rewritePolicy then
    return event.message
  else
    let history := recentHistory event.history plugin.maxHistoryTurns plugin.maxHistoryChars
    let chatHistory := "\n".intercalate
      (history.map fun item => s!"{item.role.str}: {item.content}")
    let candidate ← plugin.rewriteQuery chatHistory event.message
    return if plugin.rewriteMaxUtf8Bytes < candidate.utf8ByteSize then event.message
      else candidate

/-! ## Sources -/

/-- The body of the loop of `_build_sources`. -/
def addSource (result : QueryResult) (seen : OrderedDict Hashed Source)
    (entry : Metadata × Nat) : Except Exc (OrderedDict Hashed Source) := do
  let fields := entry.1
  let distance ←
    match result.distances with
    | [] => .ok none
    | row :: _ => pythonIndex row entry.2
  let sourceKey := dictGet fields "source" (.str "")
  let key ←
    match sourceKey.hash? with
    | some key => .ok key
    | none =>
      .error { typeName := "TypeError", text := s!"unhashable type: '{sourceKey.typeName}'" }
  if (seen.get? key).isSome then return seen
  else
    let uri := dictGet fields "uri" .null
    let source ← host.source
      { chunkIndex := dictGet fields "chunkIndex" (dictGet fields "chunk_index" (.int entry.2))
        embeddingType := dictGet fields "embeddingType" (dictGet fields "embedding_type" .null)
        documentId := dictGet fields "documentId" (dictGet fields "document_id" .null)
        source := sourceKey
        title := dictGet fields "title" .null
        type := dictGet fields "type" .null
        score := distance.map fun d => 1 - d
        uri := if uri.truthy then uri else sourceKey }
    return seen.set key source

/-- `_build_sources`: one source for each URL. -/
def buildSources (result : QueryResult) : Except Exc (List Source) := do
  let seen ← (firstRow result.metadatas).zipIdx.foldlM (addSource host result) .empty
  return seen.values

/-! ## Without a graph -/

/-- The outcome without retrieval. -/
def noOutcome : RetrievalOutcome where
  blocks := []
  result := .empty
  initialCount := 0
  mode := .flat

/-- The retrieval of `_handle_simple`, if the question has one. -/
def outcomeFor (collection question : String) : Answering RetrievalOutcome :=
  let profile := plugin.resolveProfile question
  if profile.retrieve then exceptInLeft (plugin.retrieveContext host collection question profile)
  else pure noOutcome

/-- `_handle_simple`. -/
def handleSimple (event : Input) (collection : String) : Answering Response := do
  let question ← (plugin.resolveQuestion event : Answering String)
  let outcome ← plugin.outcomeFor host collection question
  let prompt : AnsweringPrompt :=
    { vcName := if event.displayName = "" then "Expert" else event.displayName
      knowledge := joinDocumentBlocks outcome.blocks
      question
      emptyContextInstruction := emptyContextInstruction (!outcome.blocks.isEmpty)
      citationScopeInstruction := citationScopeInstruction outcome.blocks.length
      stepByStep := plugin.chainOfThoughtEnabled && host.isComplex event.message }
  let answer ← llmInvoke (.answer prompt plugin.answeringTemperature)
  let sources ← (buildSources host outcome.result : Except Exc (List Source))
  return { result := some answer, sources, humanLanguage := event.language }

/-! ## With a graph -/

/-- The exception of a definition that is not accepted or does not compile. -/
def graphExc : Graph.Raised → Exc
  | .promptGraphConfigError text => { typeName := "PromptGraphConfigError", text }
  | .typeError text => { typeName := "TypeError", text }
  | .valueError text => { typeName := "ValueError", text }
  | .modelBuilder text => { typeName := "ModelBuilderError", text }

/-- Raise the exception of a step on the graph. -/
def raiseGraph {α : Type} : Except Graph.Raised α → Except Exc α
  | .ok value => .ok value
  | .error raised => .error (graphExc raised)

/-- `retrieve_node`: what it writes, and the outcome if it retrieved. -/
def retrieveNode (event : Input) (collection resolved : String)
    (rephrasedQuestion currentQuestion : Option String) :
    Answering (String × Option RetrievalOutcome) :=
  let candidates := [rephrasedQuestion.getD "", resolved, currentQuestion.getD ""]
  let query := (candidates.find? (· ≠ "")).getD event.message
  let profile := plugin.resolveProfile query
  if !profile.retrieve then pure ("", none)
  else do
    let outcome ← exceptInLeft (plugin.retrieveContext host collection query profile)
    return (joinDocumentBlocks outcome.blocks, some outcome)

/-- `graph.invoke`, with the last outcome of the `retrieve` node. -/
def runNodes (event : Input) (collection resolved : String) :
    Option RetrievalOutcome → GraphRun → Answering (Fields × Option RetrievalOutcome)
  | retrieved, .final state => pure (state, retrieved)
  | _, .raised exc => throw exc
  | retrieved, .llm prompt next =>
    ExceptT.mk <| Program.call (S := expertSignature) (.inr (.node prompt)) fun answer =>
      (runNodes event collection resolved retrieved (next answer)).run
  | retrieved, .retrieve rephrasedQuestion currentQuestion next => do
    let (knowledge, outcome) ← plugin.retrieveNode host event collection resolved
      rephrasedQuestion currentQuestion
    runNodes event collection resolved (outcome.or retrieved) (next knowledge)

/-- The messages and the conversation of the initial state. -/
def initialState (event : Input) (resolved : String) : Fields :=
  let history := recentHistory event.history plugin.maxHistoryTurns plugin.maxHistoryChars
  let messages :=
    (history.map fun item => (item.role.value, item.content)) ++ [("human", event.message)]
  let conversation := "\n".intercalate
    (messages.map fun message => s!"{message.1}:\n{message.2}")
  [("messages", .arr (messages.map fun message =>
      .obj [("role", .str message.1), ("content", .str message.2)])),
    ("current_question", .str event.message),
    ("conversation", .str conversation),
    ("bok_id", .str (event.bodyOfKnowledgeId.getD "")),
    ("description", .str event.description),
    ("display_name", .str event.displayName)] ++
  if resolved = event.message then [] else [("rephrased_question", .str resolved)]

/-- What a graph is compiled with: one special node and no retriever. -/
def compileHost : Graph.Host σ where
  isSpecial name := name = .text "retrieve"
  hasRetriever := false
  modelFields := host.modelFields
  buildOutputModel := host.buildOutputModel

/-- The sources of a graph's answer: those of a scoped retrieval. -/
def graphSources : Option RetrievalOutcome → Except Exc (List Source)
  | none => .ok []
  | some outcome =>
    if outcome.mode = .scopedSuccess then buildSources host outcome.result else .ok []

/-- `_handle_with_graph`. -/
def handleWithGraph (event : Input) (definition : Fields) (collection : String) :
    Answering Response := do
  let T := host.text.toPythonText
  let graph ← raiseGraph (Graph.fromDefinition T host.buildStateModel definition)
  let resolved ← (plugin.resolveQuestion event : Answering String)
  let wiring ← raiseGraph (Graph.compile T T.str (compileHost host) graph)
  let (finalState, outcome) ← plugin.runNodes host event collection resolved none
    (host.runGraph wiring (plugin.initialState event resolved))
  let sources ← graphSources host outcome
  host.response
    { result := dictGet finalState "final_answer" (dictGet finalState "result" (.str ""))
      sources
      humanLanguage := event.language
      resultLanguage := dictGet finalState "result_language" .null
      knowledgeLanguage := dictGet finalState "knowledge_language" .null
      originalResult := dictGet finalState "original_result" .null }

/-! ## The plugin -/

/-- The collection of the body of knowledge. -/
def collectionOf (event : Input) : String :=
  let bokId := event.bodyOfKnowledgeId.getD ""
  if bokId = "" then "default-knowledge" else s!"{bokId}-knowledge"

/-- `handle`.  The embedding scope around it only shares vectors. -/
def handle (event : Input) : Answering Response :=
  let definition := event.promptGraph.getD []
  if definition.isEmpty then plugin.handleSimple host event (collectionOf event)
  else plugin.handleWithGraph host event definition (collectionOf event)

end ExpertPlugin

end VirtualContributor.Plugins
