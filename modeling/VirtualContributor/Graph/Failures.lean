import VirtualContributor.Graph.Accepted

/-!
# How a definition can fail

`from_definition` documents one exception, and raises others: `len` of a
`nodes` or `edges` that has no length, the template parser on a malformed
template or on one that is not a text, and the hash of a node name or an
endpoint that is a list or an object.  `Regular` says that the function
reaches none of them, and `fromDefinition_declared_iff` that this is exactly
when it fails in the documented way only.
-/

namespace VirtualContributor.Graph

open Lib

variable {T : PythonText}

/-- The documented exception. -/
def IsConfigError (raised : Raised) : Prop := ∃ message, raised = .promptGraphConfigError message

@[simp] theorem declared_configError {α : Type} (message : String) :
    FailsOnly IsConfigError (configError message : Except Raised α) := by
  simp [configError, IsConfigError]

@[simp] theorem declared_ensure (condition : Bool) (message : String) :
    FailsOnly IsConfigError (ensure condition message) := by
  unfold ensure
  split
  · exact failsOnly_ok ()
  · exact declared_configError message

theorem declared_len {value : Json} : FailsOnly IsConfigError (len value) ↔ value.len? ≠ none := by
  unfold len
  split <;> simp [*, IsConfigError]

theorem declared_hash {value : Json} :
    FailsOnly IsConfigError (hash value) ↔ value.hash? ≠ none := by
  unfold hash
  split <;> simp [*, IsConfigError]

theorem declared_ensure_bind {α : Type} {condition : Bool} {message : String}
    {f : Unit → Except Raised α} :
    FailsOnly IsConfigError (ensure condition message >>= f) ↔
      (condition = true → FailsOnly IsConfigError (f ())) := by
  rw [failsOnly_check (declared_ensure _ _), ensure_eq_ok]

theorem declared_len_bind {α : Type} {value : Json} {f : Nat → Except Raised α} :
    FailsOnly IsConfigError (len value >>= f) ↔
      value.len? ≠ none ∧ ∀ n, value.len? = some n → FailsOnly IsConfigError (f n) := by
  rw [failsOnly_bind, declared_len]
  unfold len
  split <;> simp [*]

theorem declared_hash_bind {α : Type} {value : Json} {f : Hashed → Except Raised α} :
    FailsOnly IsConfigError (hash value >>= f) ↔
      value.hash? ≠ none ∧ ∀ key, value.hash? = some key → FailsOnly IsConfigError (f key) := by
  rw [failsOnly_bind, declared_hash]
  unfold hash
  split <;> simp [*]

/-! ## Templates -/

/-- The parser raises on the template: it is not a text, or it is malformed
and no field before the mistake fails its check. -/
def FormatFault (T : PythonText) : Json → Prop
  | .str text =>
    Named T (FormatString.parse text).pieces ∧ (FormatString.parse text).error ≠ none
  | _ => True

theorem declared_checkTemplateFields {nodeName template : Json} {templateField : String} :
    FailsOnly IsConfigError (checkTemplateFields T nodeName templateField template) ↔
      ¬ FormatFault T template := by
  unfold checkTemplateFields
  cases template with
  | str text =>
    have hnames : FailsOnly IsConfigError ((FormatString.parse text).pieces.forM
        (checkFieldName T nodeName templateField)) := by
      refine failsOnly_forM fun piece _ => ?_
      unfold checkFieldName
      split
      · exact failsOnly_ok ()
      · exact declared_ensure _ _
    change FailsOnly IsConfigError ((FormatString.parse text).pieces.forM
      (checkFieldName T nodeName templateField) >>= fun _ =>
        raiseParseError (FormatString.parse text)) ↔ _
    rw [failsOnly_check hnames, checkFieldNames_eq_ok]
    unfold raiseParseError FormatFault
    split <;> simp [*, IsConfigError]
  | _ =>
    simp [formatterParse, failsOnly_bind, IsConfigError, FormatFault]

/-- The template checks of a retrieve node raise something else. -/
def TemplateFault (T : PythonText) (collectionTemplate queryTemplate : Json) : Prop :=
  collectionTemplate.truthy = true ∧ queryTemplate.truthy = true ∧
    (FormatFault T collectionTemplate ∨
      (∃ text, collectionTemplate = .str text ∧ IsTemplate T text) ∧ FormatFault T queryTemplate)

theorem declared_checkTemplates {nodeName collectionTemplate queryTemplate : Json} :
    FailsOnly IsConfigError (checkTemplates T nodeName collectionTemplate queryTemplate) ↔
      ¬ TemplateFault T collectionTemplate queryTemplate := by
  have hrest : (∃ text, collectionTemplate = .str text ∧ IsTemplate T text) →
      FailsOnly IsConfigError (do
        let parsed ← formatterParse collectionTemplate
        raiseParseError parsed
        checkCollectionVars T nodeName parsed.pieces
        parsed.pieces.forM (checkPlainField T nodeName)) := by
    rintro ⟨text, rfl, _, herror⟩
    have hparse : raiseParseError (FormatString.parse text) = .ok () :=
      raiseParseError_eq_ok.mpr herror
    change FailsOnly IsConfigError (do
      raiseParseError (FormatString.parse text)
      checkCollectionVars T nodeName (FormatString.parse text).pieces
      (FormatString.parse text).pieces.forM (checkPlainField T nodeName))
    rw [hparse]
    refine (failsOnly_check (declared_ensure _ _)).mpr fun _ => failsOnly_forM fun piece _ => ?_
    unfold checkPlainField
    split
    · exact failsOnly_ok ()
    · exact declared_ensure _ _
  unfold checkTemplates
  rw [declared_ensure_bind, declared_ensure_bind, failsOnly_bind, declared_checkTemplateFields]
  constructor
  · rintro h ⟨hcollection, hquery, hfault | ⟨htemplate, hfault⟩⟩
    · exact (h hcollection hquery).1 hfault
    · have hafter := (h hcollection hquery).2 () (checkTemplateFields_eq_ok.mpr htemplate)
      rw [failsOnly_bind, declared_checkTemplateFields] at hafter
      exact hafter.1 hfault
  · intro h hcollection hquery
    refine ⟨fun hfault => h ⟨hcollection, hquery, .inl hfault⟩, fun _ hok => ?_⟩
    have htemplate := checkTemplateFields_eq_ok.mp hok
    rw [failsOnly_bind, declared_checkTemplateFields]
    exact ⟨fun hfault => h ⟨hcollection, hquery, .inr ⟨htemplate, hfault⟩⟩,
      fun _ _ => hrest htemplate⟩

/-! ## Nodes -/

/-- The integer fields of a retrieve node pass, and its templates do not fail
in the documented way. -/
structure RetrieveFault (T : PythonText) (fields : Fields) : Prop where
  nResults : ∃ n, dictGet fields "n_results" (.int 10) = .int n ∧ 1 ≤ n ∧ n ≤ 50
  maxContextChars : ∃ n, dictGet fields "max_context_chars"
    (.int RETRIEVE_MAX_CONTEXT_CHARS_DEFAULT) = .int n ∧
      RETRIEVE_MAX_CONTEXT_CHARS_MIN ≤ n ∧ n ≤ RETRIEVE_MAX_CONTEXT_CHARS_MAX
  templates : TemplateFault T (dictGet fields "collection_template" (.str ""))
    (dictGet fields "query_template" (.str ""))

theorem declared_checkBounded {min max : Int} {field : String} {nodeName value : Json} :
    FailsOnly IsConfigError (checkBounded T min max field nodeName value) := by
  unfold checkBounded
  split
  · exact declared_ensure _ _
  · exact declared_configError _

theorem declared_checkRetrieve {nodeName : Json} {fields : Fields} :
    FailsOnly IsConfigError (checkRetrieve T nodeName fields) ↔ ¬ RetrieveFault T fields := by
  unfold checkRetrieve checkNResults checkMaxContextChars
  rw [failsOnly_check declared_checkBounded, failsOnly_check declared_checkBounded,
    checkBounded_eq_ok, checkBounded_eq_ok, declared_checkTemplates]
  exact ⟨fun h hfault => h hfault.nResults hfault.maxContextChars hfault.templates,
    fun h hn hmax hfault => h ⟨hn, hmax, hfault⟩⟩

/-- An entry of `nodes` on which the checks raise something else: the
templates of a retrieve node do, or a sound node has a list or an object for
its name. -/
inductive NodeFault (T : PythonText) : Json → Prop where
  | templates {fields : Fields} (hname : (dictGet fields "name" .null).truthy = true)
      (htype : dictGet fields "type" (.str "llm") = .str "retrieve")
      (hretrieve : RetrieveFault T fields) : NodeFault T (.obj fields)
  | name {fields : Fields} (hsound : SoundNode T fields)
      (hname : (dictGet fields "name" .null).hash? = none) : NodeFault T (.obj fields)

theorem declared_checkKind {nodeName nodeType : Json} {fields : Fields} :
    FailsOnly IsConfigError (checkKind T nodeName nodeType fields) ↔
      (nodeType = .str "retrieve" → ¬ RetrieveFault T fields) := by
  unfold checkKind
  split
  · rename_i hretrieve
    rw [declared_checkRetrieve]
    simp [isText_eq_true.mp hretrieve]
  · rename_i hretrieve
    have hdeclared : FailsOnly IsConfigError
        (if isText "echo" nodeType = true then
          ensure (dictGet fields "source" .null).truthy
            s!"echo node '{T.str nodeName}' requires a non-empty 'source'"
        else .ok ()) := by
      split
      · exact declared_ensure _ _
      · exact failsOnly_ok ()
    exact ⟨fun _ htype => absurd (isText_eq_true.mpr htype) hretrieve, fun _ => hdeclared⟩

theorem declared_parseNode {nodeIndex : Nat} {nodeDef : Json} :
    FailsOnly IsConfigError (parseNode T nodeIndex nodeDef) ↔
      ∀ fields, nodeDef = .obj fields → (dictGet fields "name" .null).truthy = true →
        dictGet fields "type" (.str "llm") = .str "retrieve" → ¬ RetrieveFault T fields := by
  unfold parseNode
  split
  · rename_i fields
    rw [declared_ensure_bind, declared_ensure_bind, failsOnly_bind, declared_checkKind]
    constructor
    · rintro h _ heq hname htype
      obtain rfl := Json.obj.inj heq
      refine (h hname ?_).1 htype
      rw [htype]
      decide
    · intro h hname _
      exact ⟨h fields rfl hname, fun _ _ => failsOnly_pure _⟩
  · rename_i hobj
    simp only [declared_configError, true_iff]
    exact fun fields heq => absurd heq (hobj fields)

theorem declared_addNode {nodes : Nodes} {nodeDef : Json} {nodeIndex : Nat} :
    FailsOnly IsConfigError (addNode T nodes (nodeDef, nodeIndex)) ↔ ¬ NodeFault T nodeDef := by
  unfold addNode
  rw [failsOnly_bind, declared_parseNode]
  constructor
  · rintro ⟨htemplates, hafter⟩ hfault
    cases hfault with
    | templates hname htype hretrieve => exact htemplates _ rfl hname htype hretrieve
    | name hsound hunhashable =>
      have hafter := hafter _ (parseNode_eq_ok.mpr ⟨_, rfl, hsound, rfl⟩)
      exact (declared_hash_bind.mp hafter).1 hunhashable
  · intro h
    constructor
    · rintro fields rfl hname htype hretrieve
      exact h (.templates hname htype hretrieve)
    · intro node hnode
      obtain ⟨fields, rfl, hsound, rfl⟩ := parseNode_eq_ok.mp hnode
      refine declared_hash_bind.mpr ⟨fun hunhashable => h (.name hsound hunhashable), fun _ _ => ?_⟩
      exact declared_ensure_bind.mpr fun _ => failsOnly_pure _

/-- The entries describe nodes of different names. -/
def AcceptedNodes (T : PythonText) (nodeDefs : List Json) : Prop :=
  ∃ nodes : Nodes, List.Forall₂ (NodeOf T) nodeDefs nodes.entries

theorem declared_parseNodes {rawNodes : Json} :
    FailsOnly IsConfigError (parseNodes T rawNodes) ↔
      ∀ pre nodeDef post, rawNodes.elements = pre ++ nodeDef :: post → AcceptedNodes T pre →
        ¬ NodeFault T nodeDef := by
  unfold parseNodes
  rw [failsOnly_foldlM_zipIdx]
  simp only [declared_addNode, addNodes_eq_ok, AcceptedNodes]
  refine forall₃_congr fun pre nodeDef post => forall_congr' fun _ => ?_
  constructor
  · rintro h ⟨nodes, hnodes⟩
    exact h nodes ⟨nodes.entries, hnodes, rfl⟩
  · rintro h nodes ⟨_, hnodes, heq⟩
    refine h ⟨nodes, ?_⟩
    rw [heq]
    exact hnodes

/-! ## Edges -/

theorem declared_validateEndpoint {nodes : Nodes} {name : Json} {construct : String} :
    FailsOnly IsConfigError (validateEndpoint T nodes name construct) ↔ name.hash? ≠ none := by
  unfold validateEndpoint
  rw [declared_hash_bind]
  exact and_iff_left fun _ _ => declared_ensure _ _

theorem declared_validateEndpoint_bind {α : Type} {nodes : Nodes} {name : Json}
    {construct : String} {f : Unit → Except Raised α} :
    FailsOnly IsConfigError (validateEndpoint T nodes name construct >>= f) ↔
      name.hash? ≠ none ∧ (Known nodes name → FailsOnly IsConfigError (f ())) := by
  rw [failsOnly_bind, declared_validateEndpoint]
  exact and_congr_right fun _ => ⟨fun h hknown => h () (validateEndpoint_eq_ok.mpr hknown),
    fun h _ hok => h (validateEndpoint_eq_ok.mp hok)⟩

theorem declared_validateDefault {nodes : Nodes} {default : Json} :
    FailsOnly IsConfigError (validateDefault T nodes default) ↔ default.hash? ≠ none := by
  unfold validateDefault
  split
  · simp [Json.hash?]
  · exact declared_validateEndpoint

theorem declared_mapFields {fromNode rawMap : Json} :
    FailsOnly IsConfigError (mapFields T fromNode rawMap) := by
  unfold mapFields
  split
  · exact failsOnly_ok _
  · exact declared_configError _

theorem declared_mapTargets {fromNode : Json} {rawMap : Fields} :
    FailsOnly IsConfigError (mapTargets T fromNode rawMap) := by
  unfold mapTargets
  refine failsOnly_mapM fun entry _ => ?_
  split
  · exact failsOnly_ok _
  · exact declared_configError _

/-- An entry of `edges` on which the checks raise something else: an endpoint
that is looked up is a list or an object.  The sources are those of the
conditional edges before the entry. -/
inductive EdgeFault (T : PythonText) (nodes : Nodes) (sources : List Hashed) : Json → Prop where
  | plainFrom {fields : Fields} (hplain : isConditional fields = false)
      (hfrom : (dictGet fields "from" (.str "START")).hash? = none) :
      EdgeFault T nodes sources (.obj fields)
  | plainTo {fields : Fields} (hplain : isConditional fields = false)
      (hfrom : Known nodes (dictGet fields "from" (.str "START")))
      (hto : (dictGet fields "to" (.str "END")).hash? = none) :
      EdgeFault T nodes sources (.obj fields)
  | conditionalFrom {fields : Fields} (hconditional : isConditional fields = true)
      (hon : (dictGet fields "on" .null).truthy = true)
      (hfrom : (dictGet fields "from" (.str "START")).hash? = none) :
      EdgeFault T nodes sources (.obj fields)
  | default {fields : Fields} {targets : List (String × String)} {source : Hashed}
      (hconditional : isConditional fields = true)
      (hon : (dictGet fields "on" .null).truthy = true)
      (hsource : (dictGet fields "from" (.str "START")).hash? = some source)
      (hfresh : source ∉ sources)
      (hmap : dictGet fields "map" (.obj []) =
        .obj (targets.map fun entry => (entry.1, .str entry.2)))
      (hfrom : Known nodes (dictGet fields "from" (.str "START")))
      (htargets : ∀ target ∈ (pathMap T targets).values, Known nodes (.str target))
      (hdefault : (dictGet fields "default" .null).hash? = none) :
      EdgeFault T nodes sources (.obj fields)

theorem declared_addPlainEdge {nodes : Nodes} {tables : EdgeTables} {fields : Fields} :
    FailsOnly IsConfigError (addPlainEdge T nodes tables fields) ↔
      (dictGet fields "from" (.str "START")).hash? ≠ none ∧
        (Known nodes (dictGet fields "from" (.str "START")) →
          (dictGet fields "to" (.str "END")).hash? ≠ none) := by
  unfold addPlainEdge
  rw [declared_validateEndpoint_bind, declared_validateEndpoint_bind]
  exact and_congr_right fun _ => imp_congr_right fun _ => and_iff_left fun _ => failsOnly_pure _

theorem declared_addConditionalEdge {nodes : Nodes} {tables : EdgeTables} {fields : Fields}
    (hconditional : isConditional fields = true) :
    FailsOnly IsConfigError (addConditionalEdge T nodes tables fields) ↔
      ¬ EdgeFault T nodes tables.conditionalSources.toList (.obj fields) := by
  have htargets (targets : List (String × String)) : FailsOnly IsConfigError
      ((pathMap T targets).values.forM fun target =>
        validateEndpoint T nodes (.str target) "conditional edge 'map' target") :=
    failsOnly_forM fun target _ => declared_validateEndpoint.mpr (by simp)
  unfold addConditionalEdge
  rw [declared_ensure_bind, declared_hash_bind]
  constructor
  · intro h hfault
    cases hfault with
    | plainFrom hplain | plainTo hplain =>
      rw [hconditional] at hplain
      cases hplain
    | conditionalFrom _ hon hfrom => exact (h hon).1 hfrom
    | @default _ targets source _ hon hsource hfresh hmap hfrom hknown hdefault =>
      have hafter := (h hon).2 source hsource
      rw [declared_ensure_bind] at hafter
      have hafter := hafter (decide_eq_true hfresh)
      rw [hmap] at hafter
      have hafter := (failsOnly_bind.mp hafter).2 _ rfl
      have hafter := (failsOnly_bind.mp hafter).2 targets (mapTargets_eq_ok.mpr rfl)
      have hafter := (declared_validateEndpoint_bind.mp hafter).2 hfrom
      rw [failsOnly_check (htargets targets), forM_eq_ok] at hafter
      have hafter := hafter fun target hmem => validateEndpoint_eq_ok.mpr (hknown target hmem)
      exact declared_validateDefault.mp (failsOnly_bind.mp hafter).1 hdefault
  · intro h hon
    refine ⟨fun hfrom => h (.conditionalFrom hconditional hon hfrom), fun source hsource => ?_⟩
    refine declared_ensure_bind.mpr fun hfresh => ?_
    refine failsOnly_bind.mpr ⟨declared_mapFields, fun rawMap hmap => ?_⟩
    refine failsOnly_bind.mpr ⟨declared_mapTargets, fun targets hraw => ?_⟩
    refine declared_validateEndpoint_bind.mpr ⟨by simp [hsource], fun hfrom => ?_⟩
    refine (failsOnly_check (htargets targets)).mpr fun hknown => ?_
    refine failsOnly_bind.mpr ⟨declared_validateDefault.mpr fun hdefault => h ?_,
      fun _ _ => failsOnly_pure _⟩
    have hmap : dictGet fields "map" (.obj []) =
        .obj (targets.map fun entry => (entry.1, .str entry.2)) := by
      rw [← mapTargets_eq_ok.mp hraw]
      exact mapFields_eq_ok.mp hmap
    refine .default hconditional hon hsource (of_decide_eq_true hfresh) hmap hfrom ?_ hdefault
    exact fun target hmem => validateEndpoint_eq_ok.mp (forM_eq_ok.mp hknown target hmem)

theorem declared_addEdgeDef {nodes : Nodes} {tables : EdgeTables} {edgeDef : Json}
    {edgeIndex : Nat} :
    FailsOnly IsConfigError (addEdgeDef T nodes tables (edgeDef, edgeIndex)) ↔
      ¬ EdgeFault T nodes tables.conditionalSources.toList edgeDef := by
  unfold addEdgeDef
  cases edgeDef with
  | obj fields =>
    dsimp only
    split
    · rename_i hconditional
      exact declared_addConditionalEdge hconditional
    · rename_i hplain
      have hplain : isConditional fields = false := Bool.eq_false_iff.mpr hplain
      rw [declared_addPlainEdge]
      constructor
      · rintro ⟨hfrom, hto⟩ hfault
        cases hfault with
        | plainFrom _ hunhashable => exact hfrom hunhashable
        | plainTo _ hknown hunhashable => exact hto hknown hunhashable
        | conditionalFrom hconditional | default hconditional =>
          rw [hplain] at hconditional
          cases hconditional
      · exact fun h => ⟨fun hfrom => h (.plainFrom hplain hfrom),
          fun hknown hto => h (.plainTo hplain hknown hto)⟩
  | _ =>
    refine iff_of_true (declared_configError _) fun hfault => ?_
    cases hfault

theorem declared_parseEdges {nodes : Nodes} {rawEdges : Json} :
    FailsOnly IsConfigError (parseEdges T nodes rawEdges) ↔
      ∀ pre edgeDef post, rawEdges.elements = pre ++ edgeDef :: post →
        ∀ entries, EdgesOf T nodes pre entries →
          ¬ EdgeFault T nodes (entries.filterMap EdgeEntry.source?) edgeDef := by
  unfold parseEdges
  rw [failsOnly_foldlM_zipIdx]
  simp only [declared_addEdgeDef, addEdges_eq_ok]
  refine forall₃_congr fun pre edgeDef post => forall_congr' fun _ => ?_
  constructor
  · intro h entries hentries
    have hafter := h _ ⟨entries, hentries.1, hentries.oneSource, rfl⟩
    rw [conditionalSources_foldl hentries.oneSource] at hafter
    exact hafter
  · rintro h _ ⟨entries, hentries, hone, rfl⟩
    rw [conditionalSources_foldl hone]
    exact h entries ⟨hentries, hone.2⟩

/-! ## The definition -/

/-- The definition reaches no exception but the documented one. -/
structure Regular (T : PythonText) (definition : Fields) : Prop where
  /-- `nodes` has a length. -/
  nodes_length : (dictGet definition "nodes" (.arr [])).len? ≠ none
  /-- Unless there are too many nodes, `edges` has a length. -/
  edges_length : ∀ n, (dictGet definition "nodes" (.arr [])).len? = some n →
    n ≤ MAX_GRAPH_NODES → (dictGet definition "edges" (.arr [])).len? ≠ none
  /-- Within the limits, no entry of `nodes` is at fault after accepted ones. -/
  node_entries : WithinLimits definition →
    ∀ pre nodeDef post,
      (dictGet definition "nodes" (.arr [])).elements = pre ++ nodeDef :: post →
      AcceptedNodes T pre → ¬ NodeFault T nodeDef
  /-- When all nodes are accepted, no entry of `edges` is at fault after
  accepted ones. -/
  edge_entries : WithinLimits definition →
    ∀ nodes : Nodes,
      List.Forall₂ (NodeOf T) (dictGet definition "nodes" (.arr [])).elements nodes.entries →
      ∀ pre edgeDef post,
        (dictGet definition "edges" (.arr [])).elements = pre ++ edgeDef :: post →
        ∀ entries, EdgesOf T nodes pre entries →
          ¬ EdgeFault T nodes (entries.filterMap EdgeEntry.source?) edgeDef

theorem declared_fromDefinition {σ : Type} {buildStateModel : Json → Except Raised σ}
    {definition : Fields} (hstate : (dictGet definition "state" .null).truthy = false) :
    FailsOnly IsConfigError (fromDefinition T buildStateModel definition) ↔
      Regular T definition := by
  have hmodel : FailsOnly IsConfigError
      (stateModelOf buildStateModel (dictGet definition "state" .null)) := by
    unfold stateModelOf
    rw [hstate, if_neg Bool.false_ne_true]
    exact failsOnly_ok none
  unfold fromDefinition
  rw [declared_len_bind]
  constructor
  · rintro ⟨hnodes, h⟩
    have hedges (n : Nat) (hn : (dictGet definition "nodes" (.arr [])).len? = some n)
        (hmax : n ≤ MAX_GRAPH_NODES) :=
      declared_len_bind.mp (declared_ensure_bind.mp (h n hn) (decide_eq_true hmax))
    have hloops (n m : Nat) (hn : (dictGet definition "nodes" (.arr [])).len? = some n)
        (hm : (dictGet definition "edges" (.arr [])).len? = some m)
        (hnmax : n ≤ MAX_GRAPH_NODES) (hmmax : m ≤ MAX_GRAPH_EDGES) := failsOnly_bind.mp
      (declared_ensure_bind.mp ((hedges n hn hnmax).2 m hm) (decide_eq_true hmmax))
    exact {
      nodes_length := hnodes
      edges_length := fun n hn hmax => (hedges n hn hmax).1
      node_entries := by
        rintro ⟨⟨n, hn, hnmax⟩, m, hm, hmmax⟩
        exact declared_parseNodes.mp (hloops n m hn hm hnmax hmmax).1
      edge_entries := by
        rintro ⟨⟨n, hn, hnmax⟩, m, hm, hmmax⟩ nodes hentries
        have hafter := (hloops n m hn hm hnmax hmmax).2 nodes (parseNodes_eq_ok.mpr hentries)
        exact declared_parseEdges.mp (failsOnly_bind.mp hafter).1 }
  · intro h
    refine ⟨h.nodes_length, fun n hn => declared_ensure_bind.mpr fun hmax => ?_⟩
    have hmax := of_decide_eq_true hmax
    refine declared_len_bind.mpr ⟨h.edges_length n hn hmax, fun m hm => ?_⟩
    refine declared_ensure_bind.mpr fun hmmax => ?_
    have hwithin : WithinLimits definition := ⟨⟨n, hn, hmax⟩, m, hm, of_decide_eq_true hmmax⟩
    refine failsOnly_bind.mpr ⟨declared_parseNodes.mpr (h.node_entries hwithin), ?_⟩
    intro nodes hnodes
    have hedges := h.edge_entries hwithin nodes (parseNodes_eq_ok.mp hnodes)
    refine failsOnly_bind.mpr ⟨declared_parseEdges.mpr hedges, fun _ _ => ?_⟩
    exact failsOnly_bind.mpr ⟨hmodel, fun _ _ => failsOnly_pure _⟩

/-- A definition without a state schema becomes a graph or raises the
documented exception exactly when it is regular. -/
theorem fromDefinition_declared_iff {σ : Type} (T : PythonText)
    (buildStateModel : Json → Except Raised σ) (definition : Fields)
    (hstate : (dictGet definition "state" .null).truthy = false) :
    ((∃ graph, fromDefinition T buildStateModel definition = .ok graph) ∨
      ∃ message, fromDefinition T buildStateModel definition =
        .error (.promptGraphConfigError message)) ↔ Regular T definition := by
  rw [← @declared_fromDefinition T σ buildStateModel definition hstate, failsOnly_iff]
  refine or_congr_right ⟨?_, ?_⟩
  · rintro ⟨message, h⟩
    exact ⟨_, ⟨message, rfl⟩, h⟩
  · rintro ⟨_, ⟨message, rfl⟩, h⟩
    exact ⟨message, h⟩

/-- A definition of one node. -/
def singleNode : Fields := [("nodes", .arr [.obj [("name", .str "answer")]])]

theorem fromDefinition_declared_singleNode : Regular asciiText singleNode :=
  (fromDefinition_declared_iff asciiText (fun _ => .ok ()) singleNode rfl).mp (.inl ⟨_, rfl⟩)

/-- A retrieve node whose query template lacks a closing brace. -/
def unclosedTemplate : Fields :=
  [("nodes", .arr [.obj [("name", .str "search"), ("type", .str "retrieve"),
    ("collection_template", .str "\x7bbok_id\x7d"), ("query_template", .str "\x7bquestion")]])]

/-- The parser's own exception escapes. -/
theorem unclosedTemplate_escapes :
    fromDefinition asciiText (fun _ => .ok ()) unclosedTemplate =
        .error (.valueError "expected '\x7d' before end of string") ∧
      ¬ ∀ definition : Fields, (dictGet definition "state" .null).truthy = false →
        (∃ graph, fromDefinition asciiText (fun _ => .ok ()) definition = .ok graph) ∨
          ∃ message, fromDefinition asciiText (fun _ => .ok ()) definition =
            .error (.promptGraphConfigError message) := by
  have hraised : fromDefinition asciiText (fun _ => .ok ()) unclosedTemplate =
      .error (.valueError "expected '\x7d' before end of string") := rfl
  refine ⟨hraised, fun h => ?_⟩
  rcases h unclosedTemplate rfl with ⟨graph, hok⟩ | ⟨message, herror⟩
  · rw [hraised] at hok
    cases hok
  · rw [hraised] at herror
    cases herror

end VirtualContributor.Graph
