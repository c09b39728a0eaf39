import VirtualContributor.Graph.Accepted
import VirtualContributor.Graph.Recovery
import VirtualContributor.Graph.RetrieveNode
import VirtualContributor.Lib.FailStop

/-!
# Running a prompt graph

The functions that `PromptGraph.compile` makes of the nodes, and a run of the
compiled graph.  The functions call the retriever and the language model; each
makes one call at most.

LangGraph decides which node runs when, and on which state.  `Schedule` is such
a run as the graph sees it: one node after another, up to a final state or an
exception.  The prompt templates of LangChain and the models that Pydantic
builds are parameters.
-/

namespace VirtualContributor.Graph

open Lib Lib.FormatString Program

/-! ## Calls -/

/-- The calls of the nodes: of the retriever and of the language model. -/
inductive NodeCall where
  | retriever (request : Request)
  | llm (prompt : String)

def NodeCall.Answer : NodeCall → Type
  | retriever _ => Except Exc (List String)
  | llm _ => Except Exc String

abbrev nodeSignature : Signature where
  Call := NodeCall
  Answer := NodeCall.Answer

/-- What ends a run: an exception of a node function, or one of the language
model or of a library. -/
inductive RunError where
  | node (error : NodeError)
  | library (exc : Exc)

/-- Programs of the nodes that can raise. -/
abbrev Acting := ExceptT RunError (Program nodeSignature)

/-- A computation of a node function. -/
def computed {α : Type} : Except NodeError α → Acting α
  | .ok value => pure value
  | .error error => throw (.node error)

/-- A computation of a library. -/
def fromLibrary {α : Type} : Except Exc α → Acting α
  | .ok value => pure value
  | .error exc => throw (.library exc)

/-- `await retriever(collection, query, n_results)`. -/
def askRetriever (request : Request) : Acting (List String) :=
  Program.call (S := nodeSignature) (.retriever request) fun
    | .ok docs => .done (.ok docs)
    | .error exc => .done (.error (.node (.retriever exc)))

/-- `await raw_chain.ainvoke(inputs)`, after the prompt. -/
def askLlm (prompt : String) : Acting String :=
  Program.call (S := nodeSignature) (.llm prompt) fun
    | .ok content => .done (.ok content)
    | .error exc => .done (.error (.library exc))

/-! ## Node functions -/

/-- What a node function returns. -/
abbrev Update := List (Hashed × Json)

abbrev NodeFunction := State Json → Acting Update

/-- The input variables of a prompt. -/
abbrev Inputs := OrderedDict Hashed Json

/-- The libraries: the text functions, `ChatPromptTemplate.from_template` with
the formatting of the template, and `_build_output_model`. -/
structure Libraries where
  text : FormatText
  floats : JsonFloats
  fromTemplate : Json → Except Exc (Inputs → Except Exc String)
  buildOutputModel : Json → Except Raised (Option OutputModel)

/-- The dictionary that a model dumps. -/
def updateOf (fields : Fields) : Update := fields.map fun field => (.text field.1, field.2)

section

variable (libraries : Libraries)

/-- The function of a retrieve node. -/
def retrieveFunction (node : Node) (templates : Templates) : NodeFunction := fun state => do
  let request ← computed (retrieveRequest libraries.text node templates state)
  let docs ← askRetriever request
  let (outputKey, combined) ← computed (retrieved node docs)
  let key ← computed ((hash outputKey).mapError .raised)
  return [(key, .str combined)]

/-- `_make_echo_node`. -/
def echoFunction (node : Node) : NodeFunction := fun state => do
  let value ← computed ((read state node.source).mapError .raised)
  return [(.text "result", .str ((value.map libraries.text.str).getD ""))]

/-- `for var in node.input_variables`. -/
def inputVariables (node : Node) : Except Raised (List Json) :=
  match node.inputVariables.len? with
  | some _ => .ok node.inputVariables.elements
  | none => .error (.typeError s!"'{node.inputVariables.typeName}' object is not iterable")

/-- The value of an input variable: a list is joined, `None` is empty. -/
def inputValue : Option Json → Json
  | none => .str ""
  | some (.arr items) => .str ("\n".intercalate (items.map libraries.text.str))
  | some value => value

/-- One round of the loop over the input variables. -/
def addInput (state : State Json) (inputs : Inputs) (var : Json) : Except Raised Inputs := do
  let value ← read state var
  let key ← hash var
  return inputs.set key (inputValue libraries value)

def chainInputs (node : Node) (state : State Json) : Except Raised Inputs := do
  let vars ← inputVariables node
  vars.foldlM (addInput libraries state) .empty

/-- `parser.parse(raw_text)`, and the recovery after it. -/
def structuredAnswer (model : OutputModel) (rawText : String) : Except Exc Fields :=
  match model.parse rawText with
  | .ok answer => .ok answer
  | .error exc =>
    match model.recoverFields libraries.floats rawText with
    | some answer => .ok answer
    | none => .error exc

/-- `_make_chain_node`, with a prompt template. -/
def chainFunction (node : Node) (format : Inputs → Except Exc String)
    (outputModel : Option OutputModel) : NodeFunction := fun state => do
  let inputs ← computed ((chainInputs libraries node state).mapError .raised)
  match outputModel with
  | none =>
    let prompt ← fromLibrary (format inputs)
    let content ← askLlm prompt
    return [(.text "result", .str content)]
  | some model =>
    let prompt ← fromLibrary
      (format (inputs.set (.text "format_instructions") (.str model.formatInstructions)))
    let rawText ← askLlm prompt
    let answer ← fromLibrary (structuredAnswer libraries model rawText)
    return updateOf answer

/-! ## Compiled graphs -/

/-- The exceptions of compiling a graph. -/
inductive CompileError where
  | raised (error : Raised)
  | library (exc : Exc)

/-- The host of the checks of `compile`. -/
def hostOf {σ : Type} (modelFields : σ → List String) (hasRetriever : Bool)
    (special : Hashed → Option NodeFunction) : Host σ where
  isSpecial name := (special name).isSome
  hasRetriever := hasRetriever
  modelFields := modelFields
  buildOutputModel schema := (libraries.buildOutputModel schema).map fun _ => ()

/-- The function of a node that has passed its checks. -/
def makeFunction (special : Hashed → Option NodeFunction) (entry : Hashed × Node) :
    Except CompileError NodeFunction :=
  match special entry.1 with
  | some function => .ok function
  | none =>
    let node := entry.2
    if isText "retrieve" node.type then do
      let templates ← (nodeTemplates node).mapError .raised
      return retrieveFunction libraries node templates
    else if isText "echo" node.type then return echoFunction libraries node
    else do
      let outputModel ← (libraries.buildOutputModel node.outputSchema).mapError .raised
      let format ← (libraries.fromTemplate node.prompt).mapError .library
      return chainFunction libraries node format outputModel

/-- One round of the loop over the nodes of `compile`. -/
def compileFunction {σ : Type} (host : Host σ) (stateModel : σ)
    (special : Hashed → Option NodeFunction) (entry : Hashed × Node) :
    Except CompileError (Json × NodeFunction) := do
  let compiled ← (compileNode libraries.text.toPythonText host stateModel entry).mapError .raised
  let function ← makeFunction libraries special entry
  return (compiled.1, function)

/-- A compiled graph with the functions of its nodes. -/
structure Compiled where
  nodes : List (Json × NodeFunction)
  wiring : Wiring Json

/-- `compile`. -/
def compileGraph {σ : Type} (modelFields : σ → List String) (hasRetriever : Bool)
    (special : Hashed → Option NodeFunction) (graph : PromptGraph σ) :
    Except CompileError Compiled :=
  let host := hostOf libraries modelFields hasRetriever special
  let text := libraries.text.toPythonText
  match graph.stateModel with
  | none => .error (.raised (.valueError "Cannot compile graph without a state schema"))
  | some stateModel => do
    let nodes ← graph.nodes.entries.mapM (compileFunction libraries host stateModel special)
    let wiring ← (compile text text.str host graph).mapError .raised
    return { nodes, wiring }

end

/-! ## Runs -/

/-- A run of a compiled graph with `n` nodes. -/
inductive Schedule (n : Nat) where
  | final (state : Fields)
  | raised (exc : Exc)
  | node (index : Fin n) (state : State Json) (next : Update → Schedule n)

/-- `graph.invoke`. -/
def runSchedule {n : Nat} (function : Fin n → NodeFunction) : Schedule n → Acting Fields
  | .final state => pure state
  | .raised exc => throw (.library exc)
  | .node index state next => do
    let update ← function index state
    runSchedule function (next update)

/-! ## What the nodes call -/

section

variable {α β : Type} {ok : NodeCall → Prop}

theorem yields_computed_bind {r : Except NodeError α} {f : α → Acting β}
    (h : ∀ a, r = .ok a → (f a).run.Yields ok fun _ => True) :
    (computed r >>= f).run.Yields ok fun _ => True := by
  cases r with
  | ok a => exact h a rfl
  | error error => trivial

theorem yields_fromLibrary_bind {r : Except Exc α} {f : α → Acting β}
    (h : ∀ a, r = .ok a → (f a).run.Yields ok fun _ => True) :
    (fromLibrary r >>= f).run.Yields ok fun _ => True := by
  cases r with
  | ok a => exact h a rfl
  | error exc => trivial

theorem yields_askRetriever {request : Request} (h : ok (.retriever request)) :
    (askRetriever request).run.Yields ok fun _ => True := by
  refine ⟨h, fun answer => ?_⟩
  cases answer <;> trivial

theorem yields_askLlm {prompt : String} (h : ok (.llm prompt)) :
    (askLlm prompt).run.Yields ok fun _ => True := by
  refine ⟨h, fun answer => ?_⟩
  cases answer <;> trivial

variable {libraries : Libraries}

theorem nResults_of_retrieveRequest {node : Node} {templates : Templates} {state : State Json}
    {request : Request} (h : retrieveRequest libraries.text node templates state = .ok request) :
    request.nResults = node.nResults := by
  unfold retrieveRequest at h
  obtain ⟨values, -, h⟩ := bind_eq_ok.mp h
  obtain ⟨collection, -, h⟩ := bind_eq_ok.mp h
  obtain ⟨query, -, h⟩ := bind_eq_ok.mp h
  obtain rfl := Except.ok.inj h
  rfl

/-- A retrieve node asks for as many results as its definition says. -/
theorem yields_retrieveFunction {node : Node} {templates : Templates} (state : State Json)
    (h : ∀ request, request.nResults = node.nResults → ok (.retriever request)) :
    (retrieveFunction libraries node templates state).run.Yields ok fun _ => True := by
  refine yields_computed_bind fun request hrequest => ?_
  have hcall := h request (nResults_of_retrieveRequest hrequest)
  refine Yields.exceptBind (yields_askRetriever hcall) fun docs => ?_
  refine yields_computed_bind fun result _ => ?_
  refine yields_computed_bind fun key _ => ?_
  trivial

theorem yields_echoFunction {node : Node} (state : State Json) :
    (echoFunction libraries node state).run.Yields ok fun _ => True :=
  yields_computed_bind fun _ _ => trivial

/-- A chain node asks the language model only. -/
theorem yields_chainFunction {node : Node} {format : Inputs → Except Exc String}
    {outputModel : Option OutputModel} (state : State Json) (h : ∀ prompt, ok (.llm prompt)) :
    (chainFunction libraries node format outputModel state).run.Yields ok fun _ => True := by
  refine yields_computed_bind fun inputs _ => ?_
  cases outputModel with
  | none =>
    refine yields_fromLibrary_bind fun prompt _ => ?_
    exact Yields.exceptBind (yields_askLlm (h prompt)) fun _ => trivial
  | some model =>
    refine yields_fromLibrary_bind fun prompt _ => ?_
    refine Yields.exceptBind (yields_askLlm (h prompt)) fun rawText => ?_
    exact yields_fromLibrary_bind fun _ _ => trivial

/-- What the calls of a compiled node are. -/
theorem yields_makeFunction {special : Hashed → Option NodeFunction} {entry : Hashed × Node}
    {function : NodeFunction} (hspecial : special entry.1 = none)
    (hmake : makeFunction libraries special entry = .ok function)
    (hllm : ∀ prompt, ok (.llm prompt))
    (hretriever : entry.2.type = .str "retrieve" →
      ∀ request, request.nResults = entry.2.nResults → ok (.retriever request))
    (state : State Json) : (function state).run.Yields ok fun _ => True := by
  unfold makeFunction at hmake
  rw [hspecial] at hmake
  by_cases hretrieve : isText "retrieve" entry.2.type = true
  · simp only [hretrieve, if_true] at hmake
    obtain ⟨templates, -, hmake⟩ := bind_eq_ok.mp hmake
    obtain rfl := Except.ok.inj hmake
    exact yields_retrieveFunction state (hretriever (isText_eq_true.mp hretrieve))
  by_cases hecho : isText "echo" entry.2.type = true
  · simp only [hretrieve, hecho, if_true] at hmake
    obtain rfl := Except.ok.inj hmake
    exact yields_echoFunction state
  · simp only [hretrieve, hecho] at hmake
    obtain ⟨outputModel, -, hmake⟩ := bind_eq_ok.mp hmake
    obtain ⟨format, -, hmake⟩ := bind_eq_ok.mp hmake
    obtain rfl := Except.ok.inj hmake
    exact yields_chainFunction state hllm

/-- A run makes the calls that its nodes make. -/
theorem yields_runSchedule {n : Nat} {function : Fin n → NodeFunction}
    (h : ∀ index state, (function index state).run.Yields ok fun _ => True)
    (schedule : Schedule n) : (runSchedule function schedule).run.Yields ok fun _ => True := by
  induction schedule with
  | final state => trivial
  | raised exc => trivial
  | node index state next ih => exact Yields.exceptBind (h index state) fun update => ih update

end

end VirtualContributor.Graph
