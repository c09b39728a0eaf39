import VirtualContributor.Graph.LiteralTemplates
import VirtualContributor.Lib.Implementation
import VirtualContributor.Plugins.Generic
import VirtualContributor.Plugins.JsonAnswers

/-!
# The tenant of a prompt graph

A prompt graph comes with the event, so what it asks for is not trusted.
`graph_queries_confined` says what the store is asked in any run of the generic
plugin: a declared retrieve node of the definition queries the body of
knowledge of the event, for factual passages.

`unservable_graph_refused` is about the checks before a run: a definition with a
retrieve node that cannot be served is refused without a call.
-/

namespace VirtualContributor.Plugins.GenericPlugin

open Lib Program Retrieval Messaging VirtualContributor.Graph

/-- A retrieve node of a definition. -/
structure DeclaresRetrieve (definition fields : Fields) : Prop where
  listed : .obj fields ∈ (dictGet definition "nodes" (.arr [])).elements
  type : dictGet fields "type" .null = .str "retrieve"

variable {σ : Type} {host : GenericHost σ} {plugin : GenericPlugin} {event : GenericInput}
  {definition : Fields}

/-! ## The compiled graph -/

theorem type_of_type {fields : Fields} {default : Json} {type : String}
    (h : dictGet fields "type" default = .str type) (hne : default ≠ .str type) :
    dictGet fields "type" .null = .str type := by
  unfold dictGet at h ⊢
  cases hlookup : fields.lookup "type" with
  | none =>
    rw [hlookup] at h
    exact absurd h hne
  | some value =>
    rw [hlookup] at h
    exact h

/-- A node of a compiled graph that retrieves is declared in the definition. -/
structure RetrieveEntry (definition : Fields) (entry : Hashed × Node) (n : Nat) : Prop where
  declared : ∃ fields, DeclaresRetrieve definition fields ∧
    dictGet fields "n_results" (.int 10) = .int n
  nResults : entry.2.nResults = .int n
  bounds : 1 ≤ n ∧ n ≤ 50

theorem retrieveEntry_of_accepted {graph : PromptGraph σ}
    (h : fromDefinition host.libraries.text.toPythonText host.buildStateModel definition = .ok graph)
    {entry : Hashed × Node} (hentry : entry ∈ graph.nodes.entries)
    (htype : entry.2.type = .str "retrieve") : ∃ n, RetrieveEntry definition entry n := by
  obtain ⟨entries, haccepted, -, -⟩ := acceptedAs_of_ok h
  obtain ⟨nodeDef, hlisted, fields, rfl, hsound, -, hnode⟩ :=
    exists_left_of_forall₂ haccepted.node_entries hentry
  rw [hnode] at htype
  obtain ⟨n, hn, hlow, hhigh⟩ := (hsound.retrieve htype).nResults
  have hcast : (n.toNat : Int) = n := Int.toNat_of_nonneg (by omega)
  refine ⟨n.toNat, ⟨fields, ⟨hlisted, type_of_type htype (by simp)⟩, ?_⟩, ?_, by omega⟩
  · rw [hn, hcast]
  · rw [hnode, hcast]
    exact hn

theorem entry_of_declared {graph : PromptGraph σ}
    (h : fromDefinition host.libraries.text.toPythonText host.buildStateModel definition = .ok graph)
    {fields : Fields} (hdeclared : DeclaresRetrieve definition fields) :
    ∃ entry ∈ graph.nodes.entries, entry.2.type = .str "retrieve" := by
  obtain ⟨entries, haccepted, -, -⟩ := acceptedAs_of_ok h
  obtain ⟨entry, hentry, fields', hfields, hsound, -, hnode⟩ :=
    exists_right_of_forall₂ haccepted.node_entries hdeclared.listed
  obtain rfl : fields = fields' := Json.obj.inj hfields
  refine ⟨entry, hentry, ?_⟩
  have htype := hdeclared.type
  rw [hnode]
  show dictGet fields "type" (.str "llm") = .str "retrieve"
  unfold dictGet at htype ⊢
  cases hlookup : fields.lookup "type" with
  | none => simp [hlookup] at htype
  | some value => simpa [hlookup] using htype

theorem mapError_eq_ok {ε ε' α : Type} {f : ε → ε'} {x : Except ε α} {a : α} :
    x.mapError f = .ok a ↔ x = .ok a := by
  cases x <;> simp [Except.mapError]

theorem raiseGraph_eq_ok {α : Type} {x : Except Raised α} {a : α} :
    ExpertPlugin.raiseGraph x = .ok a ↔ x = .ok a := by
  cases x <;> simp [ExpertPlugin.raiseGraph]

/-- What `compile` has checked and made of the nodes. -/
theorem compiledGraph_eq_ok {graph : Compiled}
    (h : plugin.compiledGraph host definition = .ok graph) :
    ∃ (parsed : PromptGraph σ) (stateModel : σ),
      fromDefinition host.libraries.text.toPythonText host.buildStateModel definition =
          .ok parsed ∧
        List.Forall₂
          (fun entry node => compileFunction host.libraries
            (hostOf host.libraries host.modelFields plugin.knowledgeStore.isSome fun _ => none)
            stateModel (fun _ => none) entry = .ok node)
          parsed.nodes.entries graph.nodes := by
  unfold compiledGraph at h
  obtain ⟨parsed, hparsed, h⟩ := bind_eq_ok.mp h
  rw [mapError_eq_ok] at h
  unfold compileGraph at h
  cases hmodel : parsed.stateModel with
  | none => simp [hmodel] at h
  | some stateModel =>
    simp only [hmodel] at h
    obtain ⟨nodes, hnodes, h⟩ := bind_eq_ok.mp h
    obtain ⟨wiring, -, h⟩ := bind_eq_ok.mp h
    obtain rfl := Except.ok.inj h
    exact ⟨parsed, stateModel, raiseGraph_eq_ok.mp hparsed, mapM_eq_ok.mp hnodes⟩

/-- A compiled node has passed its checks, and has its function. -/
theorem compileFunction_eq_ok {checks : Host σ} {stateModel : σ} {entry : Hashed × Node}
    {node : Json × NodeFunction}
    (h : compileFunction host.libraries checks stateModel (fun _ => none) entry = .ok node) :
    makeFunction host.libraries (fun _ => none) entry = .ok node.2 ∧
      ∃ compiled, compileNode host.libraries.text.toPythonText checks stateModel entry =
        .ok compiled := by
  unfold compileFunction at h
  obtain ⟨compiled, hcompiled, h⟩ := bind_eq_ok.mp h
  obtain ⟨function, hfunction, h⟩ := bind_eq_ok.mp h
  obtain rfl := Except.ok.inj h
  exact ⟨hfunction, compiled, mapError_eq_ok.mp hcompiled⟩

/-- A retrieve node compiles only with a retriever. -/
theorem hasRetriever_of_compileNode {T : PythonText} {checks : Host σ} {stateModel : σ}
    {entry : Hashed × Node} {compiled : Json × NodeKind}
    (h : compileNode T checks stateModel entry = .ok compiled)
    (hspecial : checks.isSpecial entry.1 = false) (htype : entry.2.type = .str "retrieve") :
    checks.hasRetriever = true := by
  unfold compileNode at h
  simp only [hspecial, isText_eq_true.mpr htype, Bool.false_eq_true, if_true, if_false] at h
  exact ensure_eq_ok.mp (check_bind_eq_ok.mp h).1

/-- A graph with a retrieve node compiles only with a store. -/
theorem store_of_compiledGraph {graph : Compiled}
    (h : plugin.compiledGraph host definition = .ok graph) {fields : Fields}
    (hdeclared : DeclaresRetrieve definition fields) : plugin.knowledgeStore.isSome = true := by
  obtain ⟨parsed, stateModel, hparsed, hnodes⟩ := compiledGraph_eq_ok h
  obtain ⟨entry, hentry, htype⟩ := entry_of_declared hparsed hdeclared
  obtain ⟨node, -, hnode⟩ := exists_right_of_forall₂ hnodes hentry
  obtain ⟨-, compiled, hcompiled⟩ := compileFunction_eq_ok hnode
  exact hasRetriever_of_compileNode hcompiled rfl htype

/-! ## The checks before the graph is built -/

theorem isRetrieveDef_eq_true {nodeDef : Json} :
    isRetrieveDef nodeDef = true ↔
      ∃ fields, nodeDef = .obj fields ∧ dictGet fields "type" .null = .str "retrieve" := by
  cases nodeDef <;> simp [isRetrieveDef]

theorem hasRetrieveNode_of_declared {fields : Fields}
    (hdeclared : DeclaresRetrieve definition fields) : hasRetrieveNode definition = .ok true := by
  have hany : (dictGet definition "nodes" (.arr [])).elements.any isRetrieveDef = true :=
    List.any_eq_true.mpr ⟨_, hdeclared.listed, isRetrieveDef_eq_true.mpr ⟨_, rfl, hdeclared.type⟩⟩
  unfold hasRetrieveNode
  dsimp only
  cases hlen : (dictGet definition "nodes" (.arr [])).len? with
  | some n => simp [hany]
  | none =>
    have hlisted := hdeclared.listed
    cases hnodes : dictGet definition "nodes" (.arr []) with
    | str value => simp [hnodes, Json.len?] at hlen
    | arr items => simp [hnodes, Json.len?] at hlen
    | obj fields => simp [hnodes, Json.len?] at hlen
    | _ => simp [hnodes, Json.elements] at hlisted

theorem reject_eq_ok {condition : Bool} {text : String} :
    reject condition text = .ok () ↔ condition = false := by
  cases condition <;> simp [reject]

/-- A definition with a retrieve node passes only with a tenant and a store that
can embed, if there is one. -/
theorem checkRetrieval_eq_ok {fields : Fields} (hdeclared : DeclaresRetrieve definition fields)
    (h : plugin.checkRetrieval event definition = .ok ()) :
    event.bodyOfKnowledgeId.getD "" ≠ "" ∧
      ∀ store, plugin.knowledgeStore = some store → storeCanEmbed store = true := by
  unfold checkRetrieval at h
  rw [bind_eq_ok] at h
  obtain ⟨retrieves, hretrieves, h⟩ := h
  obtain rfl := Except.ok.inj ((hasRetrieveNode_of_declared hdeclared).symm.trans hretrieves)
  obtain ⟨htenant, hembed⟩ := check_bind_eq_ok.mp h
  rw [reject_eq_ok, Bool.true_and] at htenant hembed
  refine ⟨of_decide_eq_false htenant, fun store hstore => ?_⟩
  rw [hstore] at hembed
  simpa using hembed

/-! ## Refusal -/

/-- A definition with a retrieve node that cannot be served: there is no tenant,
no store, or none that can embed a query. -/
def Unservable (plugin : GenericPlugin) (event : GenericInput) : Prop :=
  event.bodyOfKnowledgeId.getD "" = "" ∨ plugin.knowledgeStore = none ∨
    ∃ store, plugin.knowledgeStore = some store ∧ storeCanEmbed store = false

theorem run_liftExcept_bind {α β : Type} {x : Except Exc α} {f : α → Responding β} :
    ((liftM x : Responding α) >>= f).run =
      match x with
      | .ok a => (f a).run
      | .error exc => .done (.error exc) := by
  cases x <;> rfl

/-- A definition with a retrieve node that cannot be served is refused before the
store or the language model is called. -/
theorem unservable_graph_refused (host : GenericHost σ) (plugin : GenericPlugin)
    (event : GenericInput) (definition fields : Fields)
    (hdefinition : event.promptGraph = some definition)
    (hdeclared : DeclaresRetrieve definition fields) (hunservable : Unservable plugin event) :
    ∃ exc, (plugin.handle host event).run = .done (.error exc) := by
  have hne : definition.isEmpty = false := by
    cases definition with
    | nil => exact absurd hdeclared.listed List.not_mem_nil
    | cons field definition => rfl
  have hhandle : plugin.handle host event = plugin.handleWithGraph host event definition := by
    unfold handle
    simp [hdefinition, hne]
  rw [hhandle]
  unfold handleWithGraph
  rw [run_liftExcept_bind]
  cases hcheck : plugin.checkRetrieval event definition with
  | error exc => exact ⟨exc, rfl⟩
  | ok checked =>
    obtain ⟨htenant, hembed⟩ := checkRetrieval_eq_ok hdeclared hcheck
    dsimp only
    rw [run_liftExcept_bind]
    cases hcompiled : plugin.compiledGraph host definition with
    | error exc => exact ⟨exc, rfl⟩
    | ok graph =>
      exfalso
      obtain ⟨store, hstore⟩ := Option.isSome_iff_exists.mp (store_of_compiledGraph hcompiled hdeclared)
      rcases hunservable with hempty | hnone | ⟨store', hstore', hcannot⟩
      · exact htenant hempty
      · rw [hnone] at hstore
        cases hstore
      · rw [hembed store' hstore'] at hcannot
        cases hcannot

/-! ## Confinement -/

/-- A query for a retrieve node of the definition, within the body of knowledge
of the event. -/
structure TenantQuery (plugin : GenericPlugin) (event : GenericInput) (dense : DenseQuery) :
    Prop where
  tenant : ∃ bokId, event.bodyOfKnowledgeId = some bokId ∧ bokId ≠ "" ∧
    dense.collection = bokId ++ "-knowledge"
  factual : dense.filter = some FACTUAL_WHERE
  embeds : ∃ store, plugin.knowledgeStore = some store ∧ storeCanEmbed store = true
  declared : ∃ fields, DeclaresRetrieve (event.promptGraph.getD []) fields ∧
    dictGet fields "n_results" (.int 10) = .int dense.nResults
  bounds : 1 ≤ dense.nResults ∧ dense.nResults ≤ 50

/-- The calls of a run: any of the language model, and queries of the tenant. -/
def Confined (plugin : GenericPlugin) (event : GenericInput) : genericSignature.Call → Prop
  | .inl (.query dense) => TenantQuery plugin event dense
  | .inl _ => False
  | .inr _ => True

/-- What a node may ask: the retriever only for a declared retrieve node. -/
def NodeCallOf (definition : Fields) : NodeCall → Prop
  | .retriever request => ∃ (n : Nat) (fields : Fields), DeclaresRetrieve definition fields ∧
      dictGet fields "n_results" (.int 10) = .int n ∧ request.nResults = .int n ∧ 1 ≤ n ∧ n ≤ 50
  | .llm _ => True

theorem nodeCallOf_compiled {graph : Compiled}
    (h : plugin.compiledGraph host definition = .ok graph) (index : Fin graph.nodes.length)
    (state : State Json) :
    ((graph.nodes.get index).2 state).run.Yields (NodeCallOf definition) fun _ => True := by
  obtain ⟨parsed, stateModel, hparsed, hnodes⟩ := compiledGraph_eq_ok h
  obtain ⟨entry, hentry, hnode⟩ := exists_left_of_forall₂ hnodes (List.get_mem graph.nodes index)
  obtain ⟨hfunction, -⟩ := compileFunction_eq_ok hnode
  refine yields_makeFunction rfl hfunction (fun _ => trivial) (fun htype request hrequest => ?_) state
  obtain ⟨n, ⟨fields, hdeclared, hn⟩, hresults, hlow, hhigh⟩ :=
    retrieveEntry_of_accepted hparsed hentry htype
  exact ⟨n, fields, hdeclared, hn, hrequest.trans hresults, hlow, hhigh⟩

/-- What the retriever asks the store, for a definition that has passed the
checks. -/
theorem confined_nodeCall {graph : Compiled} (hdefinition : event.promptGraph.getD [] = definition)
    (hcheck : plugin.checkRetrieval event definition = .ok ())
    (hcompiled : plugin.compiledGraph host definition = .ok graph) (call : NodeCall)
    (hcall : NodeCallOf definition call) :
    (nodeCall (collectionName event) call).Yields (Confined plugin event) fun _ => True := by
  cases call with
  | llm prompt => exact ⟨trivial, fun _ => trivial⟩
  | retriever request =>
    obtain ⟨n, fields, hdeclared, hn, hrequest, hlow, hhigh⟩ := hcall
    obtain ⟨htenant, hembed⟩ := checkRetrieval_eq_ok hdeclared hcheck
    obtain ⟨store, hstore⟩ :=
      Option.isSome_iff_exists.mp (store_of_compiledGraph hcompiled hdeclared)
    have hcount : resultCount request.nResults = n := by
      rw [hrequest]
      exact Int.toNat_natCast n
    refine ⟨?_, fun _ => trivial⟩
    show TenantQuery plugin event _
    refine ⟨?_, rfl, ⟨store, hstore, hembed store hstore⟩, ⟨fields, ?_, ?_⟩, ?_⟩
    · cases hbok : event.bodyOfKnowledgeId with
      | none => simp [hbok] at htenant
      | some bokId => exact ⟨bokId, rfl, by simpa [hbok] using htenant, by simp [collectionName, hbok]⟩
    · rw [hdefinition]
      exact hdeclared
    · rw [hcount]
      exact hn
    · rw [hcount]
      exact ⟨hlow, hhigh⟩

theorem confined_handleWithGraph (hdefinition : event.promptGraph.getD [] = definition) :
    (plugin.handleWithGraph host event definition).run.Yields (Confined plugin event)
      fun _ => True := by
  unfold handleWithGraph
  rw [run_liftExcept_bind]
  cases hcheck : plugin.checkRetrieval event definition with
  | error exc => trivial
  | ok checked =>
    dsimp only
    rw [run_liftExcept_bind]
    cases hcompiled : plugin.compiledGraph host definition with
    | error exc => trivial
    | ok graph =>
      dsimp only
      refine Yields.exceptBind ?_ fun finalState => ?_
      · have hrun := yields_runSchedule (nodeCallOf_compiled hcompiled)
          (host.runGraph graph (plugin.initialState event))
        exact Yields.bind (hrun.expand (confined_nodeCall hdefinition hcheck hcompiled))
          fun _ _ => trivial
      · cases host.response _ <;> trivial

theorem confined_invokeLlm (messages : List (String × String)) :
    (invokeLlm messages).run.Yields (Confined plugin event) fun _ => True :=
  ⟨trivial, fun _ => trivial⟩

theorem confined_resolveQuestion :
    (plugin.resolveQuestion event).Yields (Confined plugin event) fun _ => True := by
  unfold resolveQuestion
  split
  · refine Yields.bind (confined_invokeLlm _) fun answer _ => ?_
    cases answer <;> trivial
  · trivial

theorem confined_handleWithoutGraph :
    (plugin.handleWithoutGraph event).run.Yields (Confined plugin event) fun _ => True := by
  refine Yields.exceptBind ?_ fun question => ?_
  · exact Yields.bind confined_resolveQuestion fun _ _ => trivial
  · exact Yields.exceptBind (confined_invokeLlm _) fun _ => trivial

/-- Whatever the definition of the event asks for, and however its graph runs, the
store is queried only for a declared retrieve node, in the body of knowledge of
the event. -/
theorem graph_queries_confined (host : GenericHost σ) (plugin : GenericPlugin)
    (event : GenericInput) {τ : Type} {W : World genericSignature τ} {s s' : τ}
    {t : List (Event genericSignature)} {r : Except Exc Response}
    (hrun : Runs W (plugin.handle host event).run s t r s') :
    ∀ e ∈ t, Confined plugin event e.call := by
  have hyields : (plugin.handle host event).run.Yields (Confined plugin event) fun _ => True := by
    unfold handle
    dsimp only
    split
    · exact confined_handleWithoutGraph
    · exact confined_handleWithGraph rfl
  exact (hyields.calls hrun).2

/-! ## A run of one retrieve node -/

/-- A definition whose collection template names another body of knowledge. -/
def searchDefinition : Fields :=
  [("nodes", .arr [.obj [("name", .str "find"), ("type", .str "retrieve"),
      ("collection_template", .str "other"), ("query_template", .str "about \x7bq\x7d"),
      ("n_results", .int 3)]]),
    ("state", .obj [("type", .str "object")])]

/-- The libraries that do the least. -/
def plainLibraries : Libraries where
  text := asciiFormat
  floats := zeroFloats
  fromTemplate _ := .ok fun _ => .ok ""
  buildOutputModel _ := .ok none

/-- A run of the first node on a state in which every field is `garden`. -/
def firstNode : (n : Nat) → Schedule n
  | 0 => .final []
  | _ + 1 => .node 0 (.dict fun _ => some (.str "garden")) fun _ => .final []

def searchHost : GenericHost Unit where
  libraries := plainLibraries
  buildStateModel _ := .ok ()
  modelFields _ := ["knowledge_docs"]
  runGraph graph _ := firstNode graph.nodes.length
  response _ := .ok {}

def searchPlugin : GenericPlugin where
  knowledgeStore := some (.decorator (.adapter true))

def searchEvent : GenericInput where
  message := "Which plants?"
  bodyOfKnowledgeId := some "b1"
  promptGraph := some searchDefinition

/-- A store that finds nothing and a model that says nothing. -/
def emptyScript : Script genericSignature Unit
  | _, .inl (.query _) => (.ok .empty, ())
  | _, .inl (.queryLexical _) => (.ok .empty, ())
  | _, .inl (.gather _ _) => ((.ok .empty, .ok .empty), ())
  | _, .inr _ => (.ok "", ())

def searchRun : Except Exc Response × List (Event genericSignature) × Unit :=
  (searchPlugin.handle searchHost searchEvent).run.eval emptyScript ()

/-- The queries of a run, with the collection and the text of each. -/
def queriesOf (t : List (Event genericSignature)) : List (String × String) :=
  t.filterMap fun e =>
    match e.call with
    | .inl (.query dense) => some (dense.collection, dense.query)
    | _ => none

theorem graph_queries_confined_search :
    queriesOf searchRun.2.1 = [("b1-knowledge", "about garden")] ∧
      ∀ e ∈ searchRun.2.1, Confined searchPlugin searchEvent e.call :=
  ⟨by decide +kernel,
    graph_queries_confined searchHost searchPlugin searchEvent
      (eval_runs (W := emptyScript.world) (fun _ _ => rfl) _ ())⟩

/-- Without a body of knowledge the same definition is refused. -/
theorem unservable_graph_refused_search :
    ∃ exc, (searchPlugin.handle searchHost { searchEvent with bodyOfKnowledgeId := none }).run =
      .done (.error exc) :=
  unservable_graph_refused searchHost searchPlugin { searchEvent with bodyOfKnowledgeId := none }
    searchDefinition _ rfl ⟨List.mem_singleton.mpr rfl, rfl⟩ (.inl rfl)

end VirtualContributor.Plugins.GenericPlugin
