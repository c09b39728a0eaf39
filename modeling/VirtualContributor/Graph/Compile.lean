import VirtualContributor.Graph.Definition

/-!
# Compiled prompt graphs

`PromptGraph.compile` hands the nodes and edges of a graph to a graph builder:
each node as one of four kinds, each plain edge whose source has no
conditional edge, and each conditional edge as a router with the map of its
ends.  At run time the builder calls the router on the state and follows the
end that the map has for the answer.

A state is a dictionary or a model; its values are of any type that has a
string form.
-/

namespace VirtualContributor.Graph

open Lib

/-- Where an edge starts or ends, for the graph builder. -/
inductive Destination where
  | START
  | END
  | node (name : Json)

/-- What the node function of a node is made from. -/
inductive NodeKind where
  | special
  | retrieve
  | echo
  | llm

/-- A state; a field that is absent or `None` has no value. -/
inductive State (V : Type) where
  | dict (entries : Hashed → Option V)
  | model (attributes : String → Option V)

/-- What a graph is compiled with: the names of the special nodes, whether
there is a retriever, the fields of a state model and the builder of an
output model. -/
structure Host (σ : Type) where
  isSpecial : Hashed → Bool
  hasRetriever : Bool
  modelFields : σ → List String
  buildOutputModel : Json → Except Raised Unit

/-- A registered conditional edge. -/
structure Route (V : Type) where
  source : Destination
  router : State V → Except Raised Json
  ends : OrderedDict Hashed Destination

/-- What `compile` hands to the graph builder. -/
structure Wiring (V : Type) where
  nodes : List (Json × NodeKind)
  edges : List (Destination × Destination)
  routes : List (Route V)

section

variable (T : PythonText) {V σ : Type} (str : V → String)

/-- `_read(state, key, None)`. -/
def read (state : State V) (key : Json) : Except Raised (Option V) :=
  match state with
  | .dict entries => do
    let key ← hash key
    return entries key
  | .model attributes =>
    match key with
    | .str name => .ok (attributes name)
    | key => .error (.typeError s!"attribute name must be string, not '{key.typeName}'")

def MAX_LOGGED_VALUE_CHARS : Nat := 64

/-- `_bounded_value_repr`. -/
def boundedValueRepr (value : Option V) : String :=
  let text := (value.map str).getD "None"
  if MAX_LOGGED_VALUE_CHARS < text.toList.length then
    String.ofList (text.toList.take MAX_LOGGED_VALUE_CHARS) ++ "…"
  else text

/-- The target of the map entry whose key is the string form of the value. -/
def matchedTarget (pathMap : OrderedDict String String) (value : Option V) : Option String :=
  value.bind fun value => pathMap.get? (T.lower (str value))

/-- The default of a conditional edge, for a value without a match. -/
def defaultTarget (cond : ConditionalEdge) (value : Option V) : Except Raised Json :=
  match cond.default with
  | .null =>
    configError <| s!"conditional edge from '{T.str cond.fromNode}' on '{T.str cond.onField}': " ++
      s!"unmatched value '{boundedValueRepr str value}' and no default"
  | default => .ok default

/-- The answer of a router to the value of its field. -/
def routeValue (cond : ConditionalEdge) (value : Option V) : Except Raised Json :=
  match matchedTarget T str cond.pathMap value with
  | some target => .ok (.str target)
  | none => defaultTarget T str cond value

/-- `_make_router`. -/
def makeRouter (cond : ConditionalEdge) (state : State V) : Except Raised Json := do
  let value ← read state cond.onField
  routeValue T str cond value

/-- `START if name == "START" else name`. -/
def sourceOf (name : Json) : Destination := if isText "START" name then .START else .node name

/-- `END if name == "END" else name`. -/
def targetOf (name : Json) : Destination := if isText "END" name then .END else .node name

/-- The targets that the router of a conditional edge can answer. -/
def ConditionalEdge.targets (cond : ConditionalEdge) : List Json :=
  cond.pathMap.values.map .str ++
    match cond.default with
    | .null => []
    | default => [default]

/-- `{t: (END if t == "END" else t) for t in targets}`. -/
def endsOf (cond : ConditionalEdge) : Except Raised (OrderedDict Hashed Destination) := do
  let ends ← cond.targets.mapM fun target => do
    let key ← hash target
    return (key, targetOf target)
  return OrderedDict.empty.setAll ends

/-- The conditional edge as it is registered. -/
def compileRoute (cond : ConditionalEdge) : Except Raised (Route V) := do
  let ends ← endsOf cond
  return { source := sourceOf cond.fromNode, router := makeRouter T str cond, ends }

/-- One round of the loop over the nodes. -/
def compileNode (host : Host σ) (stateModel : σ) (entry : Hashed × Node) :
    Except Raised (Json × NodeKind) :=
  let node := entry.2
  if host.isSpecial entry.1 then .ok (node.name, .special)
  else if isText "retrieve" node.type then do
    ensure host.hasRetriever <|
      s!"retrieve node '{T.str node.name}' requires a knowledge store, but none is configured " ++
      "for this engine instance"
    let outputKey ← hash node.outputKey
    ensure (((host.modelFields stateModel).map .text).contains outputKey) <|
      s!"retrieve node '{T.str node.name}': output_key '{T.str node.outputKey}' is not declared " ++
      "in the state schema, so its result would be silently dropped on state merge"
    return (node.name, .retrieve)
  else if isText "echo" node.type then do
    ensure ((host.modelFields stateModel).contains "result") <|
      s!"echo node '{T.str node.name}': state schema does not declare a 'result' field, so its " ++
      "output would be silently dropped on state merge"
    return (node.name, .echo)
  else if isText "llm" node.type then do
    host.buildOutputModel node.outputSchema
    return (node.name, .llm)
  else configError s!"node '{T.str node.name}' declares unknown type '{T.str node.type}'"

/-- The plain edges whose source has no conditional edge. -/
def plainEdges (edges : List Edge) (conditionalSources : List Hashed) :
    Except Raised (List (Destination × Destination)) := do
  let kept ← edges.filterM fun edge => do
    let source ← hash edge.fromNode
    return !conditionalSources.contains source
  return kept.map fun edge => (sourceOf edge.fromNode, targetOf edge.toNode)

/-- `compile`, up to the builder's own `compile`. -/
def compile (host : Host σ) (graph : PromptGraph σ) : Except Raised (Wiring V) :=
  match graph.stateModel with
  | none => .error (.valueError "Cannot compile graph without a state schema")
  | some stateModel => do
    let conditionalSources ← graph.conditionalEdges.mapM fun edge => hash edge.fromNode
    let nodes ← graph.nodes.entries.mapM (compileNode T host stateModel)
    let edges ← plainEdges graph.edges conditionalSources
    let routes ← graph.conditionalEdges.mapM (compileRoute T str)
    return { nodes, edges, routes }

end

end VirtualContributor.Graph
