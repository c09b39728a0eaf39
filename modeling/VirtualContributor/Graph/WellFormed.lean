import VirtualContributor.Graph.Accepted
import VirtualContributor.Graph.Compile

/-!
# Accepted graphs

A graph that `from_definition` returns and whose fields have their declared
types is well formed, and the router of each of its conditional edges is
closed: whatever the state, it answers with a key of the map of ends that
`compile` registers for the edge, or raises the documented exception.

`Node`, `Edge` and `ConditionalEdge` are dataclasses, which do not check the
types of their fields; `WellTyped` states them.
-/

namespace VirtualContributor.Graph

open Lib

/-! ## Declared types -/

def IsStr (value : Json) : Prop := ∃ text, value = .str text

def IsInt (value : Json) : Prop := ∃ n, value = .int n

structure Node.WellTyped (node : Node) : Prop where
  name : IsStr node.name
  inputVariables : ∃ names : List String, node.inputVariables = .arr (names.map .str)
  prompt : IsStr node.prompt
  outputSchema : node.outputSchema.isObj = true
  type : IsStr node.type
  collectionTemplate : IsStr node.collectionTemplate
  queryTemplate : IsStr node.queryTemplate
  nResults : IsInt node.nResults
  outputKey : IsStr node.outputKey
  source : IsStr node.source
  maxContextChars : IsInt node.maxContextChars

structure Edge.WellTyped (edge : Edge) : Prop where
  fromNode : IsStr edge.fromNode
  toNode : IsStr edge.toNode

structure ConditionalEdge.WellTyped (edge : ConditionalEdge) : Prop where
  fromNode : IsStr edge.fromNode
  onField : IsStr edge.onField
  default : edge.default = .null ∨ IsStr edge.default

namespace PromptGraph

variable {σ : Type}

structure WellTyped (graph : PromptGraph σ) : Prop where
  nodes : ∀ node ∈ graph.nodes.values, node.WellTyped
  edges : ∀ edge ∈ graph.edges, edge.WellTyped
  conditionalEdges : ∀ edge ∈ graph.conditionalEdges, edge.WellTyped

/-! ## Well-formed graphs -/

/-- A node of the graph, or one of its two ends. -/
def Declares (graph : PromptGraph σ) (name : Json) : Prop :=
  name = .str "START" ∨ name = .str "END" ∨ ∃ node ∈ graph.nodes.values, node.name = name

/-- The bounds of a retrieve node. -/
structure BoundedRetrieve (node : Node) : Prop where
  nResults : ∃ n, node.nResults = .int n ∧ 1 ≤ n ∧ n ≤ 50
  maxContextChars : ∃ n, node.maxContextChars = .int n ∧
    RETRIEVE_MAX_CONTEXT_CHARS_MIN ≤ n ∧ n ≤ RETRIEVE_MAX_CONTEXT_CHARS_MAX
  collectionTemplate : ∃ text, node.collectionTemplate = .str text ∧ PlainBokId text

structure WellFormed (graph : PromptGraph σ) : Prop where
  names : (graph.nodes.values.map Node.name).Nodup
  node_count : graph.nodes.values.length ≤ MAX_GRAPH_NODES
  edge_count : graph.edges.length + graph.conditionalEdges.length ≤ MAX_GRAPH_EDGES
  endpoints : ∀ edge ∈ graph.edges, graph.Declares edge.fromNode ∧ graph.Declares edge.toNode
  conditional_endpoints : ∀ edge ∈ graph.conditionalEdges,
    graph.Declares edge.fromNode ∧ (∀ target ∈ edge.pathMap.values, graph.Declares (.str target)) ∧
      (edge.default ≠ .null → graph.Declares edge.default)
  one_conditional : (graph.conditionalEdges.map ConditionalEdge.fromNode).Nodup
  retrieve : ∀ node ∈ graph.nodes.values, node.type = .str "retrieve" → BoundedRetrieve node

end PromptGraph

section

variable {T : PythonText} {definition : Fields} {nodes : Nodes} {entries : List EdgeEntry}

theorem IsStr.hash? {value : Json} (h : IsStr value) : ∃ text, value.hash? = some (.text text) := by
  obtain ⟨text, rfl⟩ := h
  exact ⟨text, rfl⟩

/-- Every node of an accepted definition is the node of an entry. -/
theorem AcceptedAs.nodeOf (h : AcceptedAs T definition nodes entries) {entry : Hashed × Node}
    (hmem : entry ∈ nodes.entries) : ∃ nodeDef, NodeOf T nodeDef entry := by
  obtain ⟨nodeDef, _, hnode⟩ := exists_left_of_forall₂ h.node_entries hmem
  exact ⟨nodeDef, hnode⟩

/-- The key of a node is its name's. -/
theorem AcceptedAs.hash?_name (h : AcceptedAs T definition nodes entries) {entry : Hashed × Node}
    (hmem : entry ∈ nodes.entries) : entry.2.name.hash? = some entry.1 := by
  obtain ⟨_, fields, rfl, _, hkey, hnode⟩ := h.nodeOf hmem
  rw [hnode]
  exact hkey

theorem AcceptedAs.names_nodup (h : AcceptedAs T definition nodes entries) :
    (nodes.values.map Node.name).Nodup := by
  have hkeys : (nodes.values.map Node.name).map Json.hash? =
      (nodes.entries.map Prod.fst).map some := by
    simp only [OrderedDict.values, List.map_map]
    exact List.map_congr_left fun entry hmem => h.hash?_name hmem
  refine List.Nodup.of_map Json.hash? ?_
  rw [hkeys]
  exact nodes.nodup.map fun _ _ => Option.some.inj

theorem AcceptedAs.length_nodes (h : AcceptedAs T definition nodes entries) :
    nodes.values.length ≤ MAX_GRAPH_NODES := by
  obtain ⟨n, hn, hmax⟩ := h.limits.node_count
  unfold OrderedDict.values
  rw [List.length_map, ← h.node_entries.length_eq, Json.length_elements hn]
  exact hmax

theorem length_plain_add_conditional (entries : List EdgeEntry) :
    (entries.filterMap EdgeEntry.plain?).length +
        (entries.filterMap EdgeEntry.conditional?).length =
      entries.length := by
  induction entries with
  | nil => rfl
  | cons entry entries ih =>
    cases entry with
    | plain edge =>
      simp only [List.filterMap_cons, EdgeEntry.plain?, EdgeEntry.conditional?, List.length_cons]
      omega
    | conditional source edge =>
      simp only [List.filterMap_cons, EdgeEntry.plain?, EdgeEntry.conditional?, List.length_cons]
      omega

theorem AcceptedAs.length_edges (h : AcceptedAs T definition nodes entries) :
    entries.length ≤ MAX_GRAPH_EDGES := by
  obtain ⟨n, hn, hmax⟩ := h.limits.edge_count
  rw [← h.edge_entries.1.length_eq, Json.length_elements hn]
  exact hmax

/-- A text that is looked up names a node or an end. -/
theorem AcceptedAs.declares {σ : Type} {graph : PromptGraph σ}
    (h : AcceptedAs T definition graph.nodes entries) {name : Json} (hname : IsStr name)
    (hknown : Known graph.nodes name) : graph.Declares name := by
  obtain ⟨text, rfl⟩ := hname
  obtain ⟨key, hkey, hknown⟩ := hknown
  obtain rfl := Option.some.inj hkey
  rcases hknown with hnode | hstart | hend
  · obtain ⟨node, hnode⟩ := Option.isSome_iff_exists.mp hnode
    refine .inr (.inr ⟨node, OrderedDict.mem_values.mpr ⟨_, hnode⟩, ?_⟩)
    exact Json.hash?_eq_text.mp (h.hash?_name (OrderedDict.mem_entries.mpr hnode))
  · exact .inl (congrArg Json.str (Hashed.text.inj hstart))
  · exact .inr (.inl (congrArg Json.str (Hashed.text.inj hend)))

/-- Every edge of an accepted definition is the edge of an entry. -/
theorem AcceptedAs.edgeOf (h : AcceptedAs T definition nodes entries) {entry : EdgeEntry}
    (hmem : entry ∈ entries) : ∃ edgeDef, EdgeOf T nodes edgeDef entry := by
  obtain ⟨edgeDef, _, hedge⟩ := exists_left_of_forall₂ h.edge_entries.1 hmem
  exact ⟨edgeDef, hedge⟩

theorem EdgeEntry.mem_plain? {edge : Edge} :
    edge ∈ entries.filterMap EdgeEntry.plain? ↔ .plain edge ∈ entries := by
  rw [List.mem_filterMap]
  constructor
  · rintro ⟨entry, hmem, hentry⟩
    cases entry with
    | plain edge' =>
      obtain rfl := Option.some.inj hentry
      exact hmem
    | conditional source edge' => cases hentry
  · exact fun hmem => ⟨_, hmem, rfl⟩

theorem EdgeEntry.mem_conditional? {edge : ConditionalEdge} :
    edge ∈ entries.filterMap EdgeEntry.conditional? ↔
      ∃ source, .conditional source edge ∈ entries := by
  rw [List.mem_filterMap]
  constructor
  · rintro ⟨entry, hmem, hentry⟩
    cases entry with
    | plain edge' => cases hentry
    | conditional source edge' =>
      obtain rfl := Option.some.inj hentry
      exact ⟨source, hmem⟩
  · exact fun ⟨source, hmem⟩ => ⟨_, hmem, rfl⟩

/-- The keys of the sources of conditional edges are those the loop compares. -/
theorem hash?_fromNode {es : List EdgeEntry}
    (h : ∀ entry ∈ es, ∃ edgeDef, EdgeOf T nodes edgeDef entry) :
    ((es.filterMap EdgeEntry.conditional?).map ConditionalEdge.fromNode).map Json.hash? =
      (es.filterMap EdgeEntry.source?).map some := by
  induction es with
  | nil => rfl
  | cons entry es ih =>
    obtain ⟨⟨_, hedge⟩, hes⟩ := List.forall_mem_cons.mp h
    cases hedge with
    | plain => exact ih hes
    | conditional _ hedge =>
      simp only [List.filterMap_cons, EdgeEntry.conditional?, EdgeEntry.source?, List.map_cons,
        hedge.source_key, ih hes]

theorem AcceptedAs.sources_nodup (h : AcceptedAs T definition nodes entries) :
    ((entries.filterMap EdgeEntry.conditional?).map ConditionalEdge.fromNode).Nodup := by
  refine List.Nodup.of_map Json.hash? ?_
  rw [hash?_fromNode fun _ => h.edgeOf]
  exact h.edge_entries.2.map fun _ _ => Option.some.inj

/-- A sound retrieve node has its bounds. -/
theorem AcceptedAs.boundedRetrieve (h : AcceptedAs T definition nodes entries) {node : Node}
    (hmem : node ∈ nodes.values) (htype : node.type = .str "retrieve") :
    PromptGraph.BoundedRetrieve node := by
  obtain ⟨entry, hentry, rfl⟩ := List.mem_map.mp hmem
  obtain ⟨_, fields, rfl, hsound, _, hnode⟩ := h.nodeOf hentry
  rw [hnode] at htype ⊢
  obtain ⟨hn, hmax, ⟨text, htext, _, hplain⟩, _⟩ := hsound.retrieve htype
  exact ⟨hn, hmax, text, htext, hplain⟩

theorem wellFormed_of_ok {σ : Type} {buildStateModel : Json → Except Raised σ}
    {graph : PromptGraph σ} (h : fromDefinition T buildStateModel definition = .ok graph)
    (htyped : graph.WellTyped) : graph.WellFormed := by
  obtain ⟨entries, haccepted, hedges, hconditional⟩ := acceptedAs_of_ok h
  exact {
    names := haccepted.names_nodup
    node_count := haccepted.length_nodes
    edge_count := by
      rw [hedges, hconditional, length_plain_add_conditional]
      exact haccepted.length_edges
    endpoints := by
      intro edge hmem
      obtain ⟨hfrom, hto⟩ := htyped.edges edge hmem
      rw [hedges, EdgeEntry.mem_plain?] at hmem
      obtain ⟨_, hedge⟩ := haccepted.edgeOf hmem
      cases hedge with
      | plain _ hknown hknown' =>
        exact ⟨haccepted.declares hfrom hknown, haccepted.declares hto hknown'⟩
    conditional_endpoints := by
      intro edge hmem
      obtain ⟨hfrom, _, hdefault⟩ := htyped.conditionalEdges edge hmem
      rw [hconditional, EdgeEntry.mem_conditional?] at hmem
      obtain ⟨_, hmem⟩ := hmem
      obtain ⟨_, hedge⟩ := haccepted.edgeOf hmem
      cases hedge with
      | conditional _ hedge =>
        refine ⟨haccepted.declares hfrom hedge.from_known, fun target htarget => ?_,
          fun hsome => ?_⟩
        · exact haccepted.declares ⟨target, rfl⟩ (hedge.targets_known target htarget)
        · exact haccepted.declares (hdefault.resolve_left hsome)
            (hedge.default_known.resolve_left hsome)
    one_conditional := by
      rw [hconditional]
      exact haccepted.sources_nodup
    retrieve := fun node hmem => haccepted.boundedRetrieve hmem }

end

/-! ## Routers -/

section

variable {T : PythonText} {V σ : Type} {str : V → String}

/-- The router answers with a key of its ends or raises the documented
exception, and no key of the map matches a field that is absent or `None`. -/
structure ClosedRoute (cond : ConditionalEdge) (route : Route V) : Prop where
  closed : ∀ state, (∃ target key, route.router state = .ok target ∧
      target.hash? = some key ∧ (route.ends.get? key).isSome = true) ∨
    ∃ message, route.router state = .error (.promptGraphConfigError message)
  absent : ∀ state, read state cond.onField = .ok none →
    (cond.default ≠ .null ∧ route.router state = .ok cond.default) ∨
      (cond.default = .null ∧
        ∃ message, route.router state = .error (.promptGraphConfigError message))

/-- Reading a named field does not fail. -/
theorem read_str (state : State V) (name : String) :
    ∃ value, read state (.str name) = .ok value := by
  cases state with
  | dict entries => exact ⟨entries (.text name), rfl⟩
  | model attributes => exact ⟨attributes name, rfl⟩

/-- Every target of a conditional edge is a key of its ends. -/
theorem mem_endsOf {cond : ConditionalEdge} {ends : OrderedDict Hashed Destination}
    (h : endsOf cond = .ok ends) {target : Json} (hmem : target ∈ cond.targets) :
    ∃ key, target.hash? = some key ∧ (ends.get? key).isSome = true := by
  unfold endsOf at h
  obtain ⟨es, hes, h⟩ := bind_eq_ok.mp h
  obtain rfl := Except.ok.inj h
  obtain ⟨entry, hentry, hpair⟩ := exists_right_of_forall₂ (mapM_eq_ok.mp hes) hmem
  obtain ⟨key, hkey, hpair⟩ := hash_bind_eq_ok.mp hpair
  obtain rfl := Except.ok.inj hpair
  exact ⟨key, hkey, OrderedDict.isSome_get?_setAll (.inl (List.mem_map_of_mem hentry))⟩

theorem matchedTarget_mem {pathMap : OrderedDict String String} {value : Option V} {target : String}
    (h : matchedTarget T str pathMap value = some target) : target ∈ pathMap.values := by
  obtain ⟨value, rfl, hget⟩ := Option.bind_eq_some_iff.mp h
  exact OrderedDict.mem_values.mpr ⟨_, hget⟩

/-- Without a match the answer is the default, if there is one. -/
theorem defaultTarget_cases (T : PythonText) (str : V → String) (cond : ConditionalEdge)
    (value : Option V) :
    (cond.default ≠ .null ∧ cond.default ∈ cond.targets ∧
        defaultTarget T str cond value = .ok cond.default) ∨
      (cond.default = .null ∧
        ∃ message, defaultTarget T str cond value = .error (.promptGraphConfigError message)) := by
  unfold defaultTarget ConditionalEdge.targets
  cases cond.default with
  | null => exact .inr ⟨rfl, _, rfl⟩
  | _ => exact .inl ⟨nofun, by simp, rfl⟩

/-- The router answers with a target of the edge, or raises the documented
exception. -/
theorem routeValue_cases (T : PythonText) (str : V → String) (cond : ConditionalEdge)
    (value : Option V) :
    (∃ target ∈ cond.targets, routeValue T str cond value = .ok target) ∨
      ∃ message, routeValue T str cond value = .error (.promptGraphConfigError message) := by
  unfold routeValue
  split
  · rename_i target hmatched
    refine .inl ⟨.str target, ?_, rfl⟩
    exact List.mem_append_left _ (List.mem_map_of_mem (matchedTarget_mem hmatched))
  · rcases defaultTarget_cases T str cond value with
      ⟨_, hmem, hok⟩ | ⟨_, message, hraised⟩
    · exact .inl ⟨_, hmem, hok⟩
    · exact .inr ⟨message, hraised⟩

theorem makeRouter_of_read {cond : ConditionalEdge} {state : State V} {value : Option V}
    (h : read state cond.onField = .ok value) :
    makeRouter T str cond state = routeValue T str cond value := by
  unfold makeRouter
  rw [h]
  rfl

theorem compileRoute_closed {cond : ConditionalEdge} {route : Route V} (hon : IsStr cond.onField)
    (h : compileRoute T str cond = .ok route) : ClosedRoute cond route := by
  unfold compileRoute at h
  obtain ⟨ends, hends, h⟩ := bind_eq_ok.mp h
  obtain rfl := Except.ok.inj h
  constructor
  · intro state
    obtain ⟨name, hname⟩ := hon
    obtain ⟨value, hvalue⟩ := read_str state name
    dsimp only
    rw [makeRouter_of_read (hname ▸ hvalue)]
    rcases routeValue_cases T str cond value with ⟨target, hmem, hok⟩ | hraised
    · obtain ⟨key, hkey, hend⟩ := mem_endsOf hends hmem
      exact .inl ⟨target, key, hok, hkey, hend⟩
    · exact .inr hraised
  · intro state habsent
    dsimp only
    rw [makeRouter_of_read habsent]
    rcases defaultTarget_cases T str cond none with ⟨hsome, _, hok⟩ | hraised
    · exact .inl ⟨hsome, hok⟩
    · exact .inr hraised

/-- Accepted prompt graphs are well formed, and their routers are closed. -/
theorem accepted_graph_closed (T : PythonText) (str : V → String)
    (buildStateModel : Json → Except Raised σ) (host : Host σ) (definition : Fields)
    (graph : PromptGraph σ) (haccepted : fromDefinition T buildStateModel definition = .ok graph)
    (htyped : graph.WellTyped) :
    graph.WellFormed ∧ ∀ wiring : Wiring V, compile T str host graph = .ok wiring →
      List.Forall₂ ClosedRoute graph.conditionalEdges wiring.routes := by
  refine ⟨wellFormed_of_ok haccepted htyped, fun wiring hcompiled => ?_⟩
  unfold compile at hcompiled
  split at hcompiled
  · cases hcompiled
  · obtain ⟨_, _, hcompiled⟩ := bind_eq_ok.mp hcompiled
    obtain ⟨_, _, hcompiled⟩ := bind_eq_ok.mp hcompiled
    obtain ⟨_, _, hcompiled⟩ := bind_eq_ok.mp hcompiled
    obtain ⟨routes, hroutes, hcompiled⟩ := bind_eq_ok.mp hcompiled
    obtain rfl := Except.ok.inj hcompiled
    have hfields : ∀ cond ∈ graph.conditionalEdges, IsStr cond.onField :=
      fun cond hmem => (htyped.conditionalEdges cond hmem).onField
    refine ((List.forall₂_and_left _ _).mpr ⟨hfields, mapM_eq_ok.mp hroutes⟩).imp ?_
    exact fun cond route h => compileRoute_closed h.1 h.2

/-- A retrieve node, and a route to it for one language. -/
def languageRoutes : Fields :=
  [("nodes", .arr [.obj [("name", .str "ask")], .obj [("name", .str "reply"),
      ("type", .str "retrieve"), ("collection_template", .str "\x7bbok_id\x7d"),
      ("query_template", .str "{question}")]]),
    ("edges", .arr [.obj [("from", .str "START"), ("to", .str "ask")],
      .obj [("from", .str "ask"), ("on", .str "language"),
        ("map", .obj [("Dutch", .str "reply")]), ("default", .str "END")]]),
    ("state", .obj [("type", .str "object")])]

def askNode : Node := .ofFields [("name", .str "ask")]

def replyNode : Node := .ofFields [("name", .str "reply"), ("type", .str "retrieve"),
  ("collection_template", .str "\x7bbok_id\x7d"), ("query_template", .str "{question}")]

def languageGraph : PromptGraph Unit where
  nodes := (OrderedDict.empty.set (.text "ask") askNode).set (.text "reply") replyNode
  edges := [⟨.str "START", .str "ask"⟩]
  conditionalEdges := [⟨.str "ask", .str "language", pathMap asciiText [("Dutch", "reply")],
    .str "END"⟩]
  startNode := .str "START"
  endNode := .str "END"
  stateModel := some ()

theorem languageGraph_wellTyped : languageGraph.WellTyped where
  nodes := by
    change ∀ node ∈ [askNode, replyNode], node.WellTyped
    simp only [List.forall_mem_cons, List.not_mem_nil, false_implies, implies_true, and_true]
    refine ⟨⟨⟨_, rfl⟩, ⟨[], rfl⟩, ⟨_, rfl⟩, rfl, ⟨_, rfl⟩, ⟨_, rfl⟩, ⟨_, rfl⟩, ⟨_, rfl⟩, ⟨_, rfl⟩,
      ⟨_, rfl⟩, ⟨_, rfl⟩⟩, ?_⟩
    exact ⟨⟨_, rfl⟩, ⟨[], rfl⟩, ⟨_, rfl⟩, rfl, ⟨_, rfl⟩, ⟨_, rfl⟩, ⟨_, rfl⟩, ⟨_, rfl⟩, ⟨_, rfl⟩,
      ⟨_, rfl⟩, ⟨_, rfl⟩⟩
  edges := List.forall_mem_singleton.mpr ⟨⟨_, rfl⟩, ⟨_, rfl⟩⟩
  conditionalEdges := List.forall_mem_singleton.mpr ⟨⟨_, rfl⟩, ⟨_, rfl⟩, .inr ⟨_, rfl⟩⟩

/-- A host with a retriever and without special nodes. -/
def retrieverHost : Host Unit where
  isSpecial _ := false
  hasRetriever := true
  modelFields _ := ["knowledge_docs", "result"]
  buildOutputModel _ := .ok ()

theorem accepted_graph_closed_languageRoutes :
    languageGraph.WellFormed ∧ ∃ wiring : Wiring String,
      compile asciiText id retrieverHost languageGraph = .ok wiring ∧ wiring.routes.length = 1 ∧
        List.Forall₂ ClosedRoute languageGraph.conditionalEdges wiring.routes := by
  obtain ⟨hwellFormed, hclosed⟩ := accepted_graph_closed asciiText id (fun _ => .ok ())
    retrieverHost languageRoutes languageGraph rfl languageGraph_wellTyped
  exact ⟨hwellFormed, _, rfl, rfl, hclosed _ rfl⟩

end

end VirtualContributor.Graph
