import Mathlib.Data.List.Dedup
import VirtualContributor.Lib.Containers
import VirtualContributor.Lib.FormatString
import VirtualContributor.Lib.TextTables

/-!
# Prompt-graph definitions

`PromptGraph.from_definition`: the JSON definition of a prompt graph is
checked node by node and edge by edge, and becomes the nodes, the plain edges
and the conditional edges of a graph.  The fields of a node or an edge that
the function does not check keep the JSON value they were given.

The model builder of a state schema is a parameter: the rest of the function
neither reads the schema nor depends on the model that is built from it.
-/

namespace VirtualContributor.Graph

open Lib

/-- The exceptions of a definition: the declared one, the two that Python's
own operations raise, and whatever the model builder raises. -/
inductive Raised where
  | promptGraphConfigError (message : String)
  | typeError (message : String)
  | valueError (message : String)
  | modelBuilder (message : String)
deriving DecidableEq

def MAX_GRAPH_NODES : Nat := 50

def MAX_GRAPH_EDGES : Nat := 100

def RETRIEVE_MAX_CONTEXT_CHARS_DEFAULT : Int := 20000

def RETRIEVE_MAX_CONTEXT_CHARS_MIN : Int := 1000

def RETRIEVE_MAX_CONTEXT_CHARS_MAX : Int := 120000

def ALLOWED_COLLECTION_TEMPLATE_VARS : List String := ["bok_id"]

/-- `Node`, without the output model that `compile` adds. -/
structure Node where
  name : Json
  inputVariables : Json
  prompt : Json
  outputSchema : Json
  type : Json
  collectionTemplate : Json
  queryTemplate : Json
  nResults : Json
  outputKey : Json
  source : Json
  maxContextChars : Json

structure Edge where
  fromNode : Json
  toNode : Json

/-- `ConditionalEdge`; a `default` of `null` is no default. -/
structure ConditionalEdge where
  fromNode : Json
  onField : Json
  pathMap : OrderedDict String String
  default : Json

section

variable (T : PythonText)

def configError {α : Type} (message : String) : Except Raised α :=
  .error (.promptGraphConfigError message)

/-- A check: a failed one raises the declared exception. -/
def ensure (condition : Bool) (message : String) : Except Raised Unit :=
  if condition then .ok () else configError message

/-- `len(value)`. -/
def len (value : Json) : Except Raised Nat :=
  match value.len? with
  | some n => .ok n
  | none => .error (.typeError s!"object of type '{value.typeName}' has no len()")

/-- `hash(value)`, as a set or dictionary lookup takes it. -/
def hash (value : Json) : Except Raised Hashed :=
  match value.hash? with
  | some key => .ok key
  | none => .error (.typeError s!"unhashable type: '{value.typeName}'")

/-! ## Nodes -/

/-- The two checks of an integer field of a retrieve node: `min ≤ value ≤ max`. -/
def checkBounded (min max : Int) (field : String) (nodeName value : Json) :
    Except Raised Unit :=
  match value with
  | .int n =>
    ensure (min ≤ n && n ≤ max) <|
      s!"retrieve node '{T.str nodeName}': {field} {T.repr value} is out of range [{min}, {max}]"
  | value =>
    configError <| s!"retrieve node '{T.str nodeName}': {field} {T.repr value} must be an " ++
      s!"integer, got {value.typeName}"

def checkNResults : Json → Json → Except Raised Unit := checkBounded T 1 50 "n_results"

def checkMaxContextChars : Json → Json → Except Raised Unit :=
  checkBounded T RETRIEVE_MAX_CONTEXT_CHARS_MIN RETRIEVE_MAX_CONTEXT_CHARS_MAX "max_context_chars"

/-- `string.Formatter().parse(template)`. -/
def formatterParse (template : Json) : Except Raised FormatString.Parsed :=
  match template with
  | .str text => .ok (FormatString.parse text)
  | value => .error (.typeError s!"expected str, got {value.typeName}")

/-- The error of a parse, raised when the pieces before it have been used. -/
def raiseParseError (parsed : FormatString.Parsed) : Except Raised Unit :=
  match parsed.error with
  | none => .ok ()
  | some message => .error (.valueError message)

/-- A replacement field names a variable. -/
def checkFieldName (nodeName : Json) (templateField : String) (piece : FormatString.Piece) :
    Except Raised Unit :=
  match piece.field with
  | none => .ok ()
  | some field =>
    ensure (T.isidentifier field.fieldName) <|
      s!"retrieve node '{T.str nodeName}': {templateField} contains a positional or " ++
      s!"non-identifier field '\x7b{field.fieldName}\x7d', which is not supported — reference a " ++
      "named variable instead"

/-- The fields of one template, checked as the parser yields them. -/
def checkTemplateFields (nodeName : Json) (templateField : String) (template : Json) :
    Except Raised Unit := do
  let parsed ← formatterParse template
  parsed.pieces.forM (checkFieldName T nodeName templateField)
  raiseParseError parsed

/-- `{name for _, name, _, _ in pieces if name}`. -/
def templateVars (pieces : List FormatString.Piece) : List String :=
  ((pieces.filterMap (·.field)).map (·.fieldName)).filter (· ≠ "")

/-- A collection template refers to no variable but `bok_id`. -/
def checkCollectionVars (nodeName : Json) (pieces : List FormatString.Piece) :
    Except Raised Unit :=
  let disallowed := (templateVars pieces).filter (· ∉ ALLOWED_COLLECTION_TEMPLATE_VARS)
  let allowed := T.repr (.arr (ALLOWED_COLLECTION_TEMPLATE_VARS.map .str))
  let found := T.repr (.arr ((disallowed.dedup.mergeSort (· ≤ ·)).map .str))
  ensure disallowed.isEmpty <|
    s!"retrieve node '{T.str nodeName}': collection_template may only reference {allowed}, " ++
    s!"found disallowed variable(s) {found}"

/-- A field of a collection template has no format spec and no conversion. -/
def checkPlainField (nodeName : Json) (piece : FormatString.Piece) : Except Raised Unit :=
  match piece.field with
  | none => .ok ()
  | some field =>
    ensure (field.formatSpec = "" && field.conversion = none) <|
      s!"retrieve node '{T.str nodeName}': collection_template field " ++
      s!"'\x7b{field.fieldName}\x7d' must not use a format spec or conversion"

/-- The two templates of a retrieve node. -/
def checkTemplates (nodeName collectionTemplate queryTemplate : Json) : Except Raised Unit := do
  ensure collectionTemplate.truthy
    s!"retrieve node '{T.str nodeName}' requires a non-empty 'collection_template'"
  ensure queryTemplate.truthy
    s!"retrieve node '{T.str nodeName}' requires a non-empty 'query_template'"
  checkTemplateFields T nodeName "collection_template" collectionTemplate
  checkTemplateFields T nodeName "query_template" queryTemplate
  let parsed ← formatterParse collectionTemplate
  raiseParseError parsed
  checkCollectionVars T nodeName parsed.pieces
  parsed.pieces.forM (checkPlainField T nodeName)

/-- The checks of a retrieve node. -/
def checkRetrieve (nodeName : Json) (fields : Fields) : Except Raised Unit := do
  checkNResults T nodeName (dictGet fields "n_results" (.int 10))
  checkMaxContextChars T nodeName
    (dictGet fields "max_context_chars" (.int RETRIEVE_MAX_CONTEXT_CHARS_DEFAULT))
  checkTemplates T nodeName (dictGet fields "collection_template" (.str ""))
    (dictGet fields "query_template" (.str ""))

/-- `node_type in ("llm", "retrieve", "echo")`. -/
def isNodeType : Json → Bool
  | .str type => type ∈ ["llm", "retrieve", "echo"]
  | _ => false

/-- `value == text`, for a JSON value. -/
def isText (text : String) : Json → Bool
  | .str value => value = text
  | _ => false

/-- The checks that depend on the type of a node. -/
def checkKind (nodeName nodeType : Json) (fields : Fields) : Except Raised Unit :=
  if isText "retrieve" nodeType then
    checkRetrieve T nodeName fields
  else if isText "echo" nodeType then
    ensure (dictGet fields "source" .null).truthy
      s!"echo node '{T.str nodeName}' requires a non-empty 'source'"
  else .ok ()

/-- The node of checked fields. -/
def Node.ofFields (fields : Fields) : Node where
  name := dictGet fields "name" .null
  inputVariables := dictGet fields "input_variables" (.arr [])
  prompt := dictGet fields "prompt" (.str "")
  outputSchema := dictGet fields "output" (.obj [])
  type := dictGet fields "type" (.str "llm")
  collectionTemplate := dictGet fields "collection_template" (.str "")
  queryTemplate := dictGet fields "query_template" (.str "")
  nResults := dictGet fields "n_results" (.int 10)
  outputKey := dictGet fields "output_key" (.str "knowledge_docs")
  source := dictGet fields "source" (.str "")
  maxContextChars := dictGet fields "max_context_chars" (.int RETRIEVE_MAX_CONTEXT_CHARS_DEFAULT)

/-- One entry of `nodes`, up to the comparison with the earlier ones. -/
def parseNode (nodeIndex : Nat) (nodeDef : Json) : Except Raised Node :=
  match nodeDef with
  | .obj fields => do
    let nodeName := dictGet fields "name" .null
    ensure nodeName.truthy
      s!"node definition is missing a required 'name' field: {T.repr nodeDef}"
    let nodeType := dictGet fields "type" (.str "llm")
    ensure (isNodeType nodeType)
      s!"node '{T.str nodeName}' declares unknown type '{T.str nodeType}'"
    checkKind T nodeName nodeType fields
    return .ofFields fields
  | nodeDef =>
    configError s!"node definition at index {nodeIndex} is not an object: {T.repr nodeDef}"

/-- The nodes so far, by name. -/
abbrev Nodes := OrderedDict Hashed Node

/-- One round of the loop over `nodes`. -/
def addNode (nodes : Nodes) (entry : Json × Nat) : Except Raised Nodes := do
  let node ← parseNode T entry.2 entry.1
  let key ← hash node.name
  ensure (nodes.get? key).isNone <|
    s!"duplicate node name '{T.str node.name}': a graph definition must declare each node name " ++
    "once — a later node with the same name would silently replace the earlier one, and any edge " ++
    "already pointing at it would resolve to the replacement instead"
  return nodes.set key node

def parseNodes (rawNodes : Json) : Except Raised Nodes :=
  rawNodes.elements.zipIdx.foldlM (addNode T) .empty

/-! ## Edges -/

/-- `_validate_endpoint`. -/
def validateEndpoint (nodes : Nodes) (name : Json) (construct : String) : Except Raised Unit := do
  let key ← hash name
  ensure ((nodes.get? key).isSome || key ∈ [.text "START", .text "END"])
    s!"{construct} names unknown node '{T.str name}'"

/-- What the loop over `edges` has built. -/
structure EdgeTables where
  edges : List Edge
  conditionalEdges : List ConditionalEdge
  conditionalSources : OrderedSet Hashed

namespace EdgeTables

def empty : EdgeTables := ⟨[], [], .empty⟩

def addEdge (tables : EdgeTables) (edge : Edge) : EdgeTables :=
  { tables with edges := tables.edges ++ [edge] }

def addConditional (tables : EdgeTables) (source : Hashed) (edge : ConditionalEdge) : EdgeTables :=
  { tables with
    conditionalEdges := tables.conditionalEdges ++ [edge]
    conditionalSources := tables.conditionalSources.insert source }

end EdgeTables

/-- The entries of a `map`, which is an object. -/
def mapFields (fromNode rawMap : Json) : Except Raised Fields :=
  match rawMap with
  | .obj fields => .ok fields
  | rawMap =>
    configError <| s!"conditional edge from '{T.str fromNode}': 'map' must be an object, got " ++
      rawMap.typeName

/-- The targets of a `map`, which are texts. -/
def mapTargets (fromNode : Json) (rawMap : Fields) : Except Raised (List (String × String)) :=
  rawMap.mapM fun entry =>
    match entry.2 with
    | .str target => .ok (entry.1, target)
    | target =>
      configError <| s!"conditional edge from '{T.str fromNode}': 'map' target " ++
        s!"{T.repr target} must be a string node name"

/-- `{str(k).lower(): v for k, v in raw_map.items()}`. -/
def pathMap (targets : List (String × String)) : OrderedDict String String :=
  OrderedDict.empty.setAll (targets.map fun entry => (T.lower entry.1, entry.2))

/-- The target that `default` names, unless it is `None`. -/
def validateDefault (nodes : Nodes) (default : Json) : Except Raised Unit :=
  match default with
  | .null => .ok ()
  | default => validateEndpoint T nodes default "conditional edge 'default'"

/-- A conditional entry of `edges`. -/
def addConditionalEdge (nodes : Nodes) (tables : EdgeTables) (fields : Fields) :
    Except Raised EdgeTables := do
  let fromNode := dictGet fields "from" (.str "START")
  let onField := dictGet fields "on" .null
  ensure onField.truthy
    s!"conditional edge from '{T.str fromNode}' is missing a required non-empty 'on' field"
  let source ← hash fromNode
  ensure (source ∉ tables.conditionalSources) <|
    s!"conditional edge from '{T.str fromNode}': a conditional edge from this node is already " ++
    "declared — only one conditional edge per source node is allowed"
  let rawMap ← mapFields T fromNode (dictGet fields "map" (.obj []))
  let targets ← mapTargets T fromNode rawMap
  let pathMap := pathMap T targets
  let default := dictGet fields "default" .null
  validateEndpoint T nodes fromNode "conditional edge 'from'"
  pathMap.values.forM fun target =>
    validateEndpoint T nodes (.str target) "conditional edge 'map' target"
  validateDefault T nodes default
  return tables.addConditional source ⟨fromNode, onField, pathMap, default⟩

/-- A plain entry of `edges`. -/
def addPlainEdge (nodes : Nodes) (tables : EdgeTables) (fields : Fields) :
    Except Raised EdgeTables := do
  let fromNode := dictGet fields "from" (.str "START")
  let toNode := dictGet fields "to" (.str "END")
  validateEndpoint T nodes fromNode "edge 'from'"
  validateEndpoint T nodes toNode "edge 'to'"
  return tables.addEdge ⟨fromNode, toNode⟩

/-- `"on" in fields or "map" in fields`. -/
def isConditional (fields : Fields) : Bool :=
  (fields.lookup "on").isSome || (fields.lookup "map").isSome

/-- One round of the loop over `edges`. -/
def addEdgeDef (nodes : Nodes) (tables : EdgeTables) (entry : Json × Nat) :
    Except Raised EdgeTables :=
  match entry.1 with
  | .obj fields =>
    if isConditional fields then addConditionalEdge T nodes tables fields
    else addPlainEdge T nodes tables fields
  | edgeDef =>
    configError s!"edge definition at index {entry.2} is not an object: {T.repr edgeDef}"

def parseEdges (nodes : Nodes) (rawEdges : Json) : Except Raised EdgeTables :=
  rawEdges.elements.zipIdx.foldlM (addEdgeDef T nodes) .empty

/-! ## The graph -/

end

/-- A parsed graph, whose state schema was made into a model of type `σ`. -/
structure PromptGraph (σ : Type) where
  nodes : Nodes
  edges : List Edge
  conditionalEdges : List ConditionalEdge
  startNode : Json
  endNode : Json
  stateModel : Option σ

section

variable (T : PythonText) {σ : Type} (buildStateModel : Json → Except Raised σ)

/-- `_build_state_model(state_schema) if state_schema else None`. -/
def stateModelOf (stateSchema : Json) : Except Raised (Option σ) :=
  if stateSchema.truthy then some <$> buildStateModel stateSchema else .ok none

def fromDefinition (definition : Fields) : Except Raised (PromptGraph σ) := do
  let rawNodes := dictGet definition "nodes" (.arr [])
  let nodeCount ← len rawNodes
  ensure (nodeCount ≤ MAX_GRAPH_NODES)
    s!"graph definition declares {nodeCount} nodes, exceeding the maximum of {MAX_GRAPH_NODES}"
  let rawEdges := dictGet definition "edges" (.arr [])
  let edgeCount ← len rawEdges
  ensure (edgeCount ≤ MAX_GRAPH_EDGES)
    s!"graph definition declares {edgeCount} edges, exceeding the maximum of {MAX_GRAPH_EDGES}"
  let nodes ← parseNodes T rawNodes
  let tables ← parseEdges T nodes rawEdges
  let stateModel ← stateModelOf buildStateModel (dictGet definition "state" .null)
  return {
    nodes
    edges := tables.edges
    conditionalEdges := tables.conditionalEdges
    startNode := dictGet definition "start" (.str "START")
    endNode := dictGet definition "end" (.str "END")
    stateModel }

end

end VirtualContributor.Graph
