import VirtualContributor.Graph.Compile
import VirtualContributor.Lib.FormatRender
import VirtualContributor.Retrieval.DocumentBlocks

/-!
# Retrieve nodes

`PromptGraph._make_retrieve_node`: the two templates of a node are rendered
with the values that the state has for their variables, and the retriever is
asked with the results.
-/

namespace VirtualContributor.Graph

open Lib Lib.FormatString

/-- What ends a node function: an exception of the graph, of rendering a
template, or of the retriever. -/
inductive NodeError where
  | raised (error : Raised)
  | render (error : RenderError)
  | retriever (error : Exc)

/-- What the retriever is asked with. -/
structure Request where
  collection : String
  query : String
  nResults : Json

section

variable (T : FormatText)

/-- The text of a variable, if the state has a value for it. -/
def stateText (state : State Json) (var : String) : Option String :=
  match read state (.str var) with
  | .ok value => value.map T.str
  | .error _ => none

/-- One round of the loop over the template variables. -/
def variableText (node : Node) (state : State Json) (var : String) :
    Except NodeError (String × String) :=
  match stateText T state var with
  | none =>
    .error <| .raised <| .promptGraphConfigError <|
      s!"retrieve node '{T.str node.name}': template variable '{var}' has no value in state"
  | some text => .ok (var, text)

/-- `formatter.parse(template)`, run to its end. -/
def parseTemplate (template : Json) : Except Raised (String × List Piece) :=
  match template with
  | .str text =>
    match (parse text).error with
    | none => .ok (text, (parse text).pieces)
    | some message => .error (.valueError message)
  | value => .error (.typeError s!"expected str, got {value.typeName}")

/-- The two templates of a node, and the variables of both.  A set has them in
some order; here it is that of the templates. -/
structure Templates where
  collection : String
  query : String
  vars : List String

def nodeTemplates (node : Node) : Except Raised Templates := do
  let (collection, collectionPieces) ← parseTemplate node.collectionTemplate
  let (query, queryPieces) ← parseTemplate node.queryTemplate
  return {
    collection
    query
    vars := (templateVars collectionPieces ++ templateVars queryPieces).dedup }

/-- `template.format_map(values)`. -/
def renderTemplate (values : List (String × String)) (text : String) : Except NodeError String :=
  match formatMap T (fun var => values.lookup var) text with
  | .ok rendered => .ok rendered
  | .error error => .error (.render error)

/-- The node function up to the call of the retriever. -/
def retrieveRequest (node : Node) (templates : Templates) (state : State Json) :
    Except NodeError Request := do
  let values ← templates.vars.mapM (variableText T node state)
  let collection ← renderTemplate T values templates.collection
  let query ← renderTemplate T values templates.query
  return { collection, query, nResults := node.nResults }

/-- The loop of `_join_docs_within_budget`.  A document that is too large gets
through alone. -/
def keepDocs (maxChars : Int) : List String → Int → List String → List String
  | kept, _, [] => kept
  | kept, accumulated, doc :: rest =>
    let addition : Int := doc.length +
      if kept.isEmpty then 0 else Retrieval.INTER_BLOCK_SEPARATOR.length
    if maxChars < accumulated + addition then (if kept.isEmpty then [doc] else kept)
    else keepDocs maxChars (kept ++ [doc]) (accumulated + addition) rest

/-- `_join_docs_within_budget`. -/
def joinDocsWithinBudget (docs : List String) (maxChars : Int) : String :=
  Retrieval.INTER_BLOCK_SEPARATOR.intercalate (keepDocs maxChars [] 0 docs)

/-- The result of the node function. -/
def retrieved (node : Node) (docs : List String) : Except NodeError (Json × String) :=
  match docs, node.maxContextChars with
  | [], _ => .ok (node.outputKey, "")
  | docs, .int maxChars => .ok (node.outputKey, joinDocsWithinBudget docs maxChars)
  | _, value => .error (.raised (.typeError s!"'>' not supported for {value.typeName}"))

/-- `_make_retrieve_node`. -/
def makeRetrieveNode (node : Node) (retriever : Request → Except Exc (List String)) :
    Except Raised (State Json → Except NodeError (Json × String)) := do
  let templates ← nodeTemplates node
  return fun state => do
    let request ← retrieveRequest T node templates state
    match retriever request with
    | .error error => .error (.retriever error)
    | .ok docs => retrieved node docs

end

end VirtualContributor.Graph
