import VirtualContributor.Graph.Definition
import VirtualContributor.Lib.Checks

/-!
# What an accepted definition has passed

One specification for each part of `from_definition`: the part returns exactly
when the JSON it reads is sound, and then it returns the part of the graph
that the JSON describes.

`NodeOf` and `EdgeOf` relate an entry of `nodes` or `edges` to what it
describes.  A definition is accepted exactly when its entries describe the
entries of a dictionary, so that their names differ (`parseNodes_eq_ok`), and
edges whose conditional sources differ (`parseEdges_eq_ok`).
-/

namespace VirtualContributor.Graph

open Lib

variable {T : PythonText}

@[simp] theorem ensure_eq_ok {condition : Bool} {message : String} :
    ensure condition message = .ok () ↔ condition = true := by
  unfold ensure configError
  split <;> simp [*]

theorem hash_bind_eq_ok {α : Type} {value : Json} {f : Hashed → Except Raised α} {a : α} :
    (hash value >>= f) = .ok a ↔ ∃ key, value.hash? = some key ∧ f key = .ok a := by
  rw [bind_eq_ok]
  unfold hash
  split <;> simp [*]

theorem len_bind_eq_ok {α : Type} {value : Json} {f : Nat → Except Raised α} {a : α} :
    (len value >>= f) = .ok a ↔ ∃ n, value.len? = some n ∧ f n = .ok a := by
  rw [bind_eq_ok]
  unfold len
  split <;> simp [*]

@[simp] theorem isText_eq_true {text : String} {value : Json} :
    isText text value = true ↔ value = .str text := by
  cases value <;> simp [isText]

/-! ## Templates -/

/-- Every replacement field names a variable. -/
def Named (T : PythonText) (pieces : List FormatString.Piece) : Prop :=
  ∀ piece ∈ pieces, ∀ field, piece.field = some field → T.isidentifier field.fieldName = true

/-- A template that parses and whose fields name variables. -/
def IsTemplate (T : PythonText) (text : String) : Prop :=
  Named T (FormatString.parse text).pieces ∧ (FormatString.parse text).error = none

/-- The plain field `{bok_id}`. -/
def bokIdField : FormatString.Replacement := ⟨"bok_id", "", none⟩

/-- A template of literals and the plain `{bok_id}`. -/
def PlainBokId (text : String) : Prop :=
  (∀ piece ∈ (FormatString.parse text).pieces, ∀ field, piece.field = some field →
    field = bokIdField) ∧ (FormatString.parse text).error = none

theorem formatterParse_bind_eq_ok {α : Type} {template : Json}
    {f : FormatString.Parsed → Except Raised α} {a : α} :
    (formatterParse template >>= f) = .ok a ↔
      ∃ text, template = .str text ∧ f (FormatString.parse text) = .ok a := by
  rw [bind_eq_ok]
  cases template <;> simp [formatterParse]

theorem raiseParseError_eq_ok {parsed : FormatString.Parsed} :
    raiseParseError parsed = .ok () ↔ parsed.error = none := by
  unfold raiseParseError
  split <;> simp [*]

theorem checkFieldName_eq_ok {nodeName : Json} {templateField : String}
    {piece : FormatString.Piece} :
    checkFieldName T nodeName templateField piece = .ok () ↔
      ∀ field, piece.field = some field → T.isidentifier field.fieldName = true := by
  unfold checkFieldName
  split
  · rename_i hnone
    simp [hnone]
  · rename_i field hfield
    simp [hfield]

theorem checkFieldNames_eq_ok {nodeName : Json} {templateField : String}
    {pieces : List FormatString.Piece} :
    pieces.forM (checkFieldName T nodeName templateField) = .ok () ↔ Named T pieces := by
  simp only [forM_eq_ok, checkFieldName_eq_ok, Named]

theorem checkTemplateFields_eq_ok {nodeName template : Json} {templateField : String} :
    checkTemplateFields T nodeName templateField template = .ok () ↔
      ∃ text, template = .str text ∧ IsTemplate T text := by
  unfold checkTemplateFields IsTemplate
  simp only [formatterParse_bind_eq_ok, check_bind_eq_ok, checkFieldNames_eq_ok,
    raiseParseError_eq_ok]

theorem isidentifier_bok_id : T.isidentifier "bok_id" = true := by
  rfl

theorem PlainBokId.isTemplate {text : String} (h : PlainBokId text) : IsTemplate T text := by
  refine ⟨fun piece hmem field hfield => ?_, h.2⟩
  rw [h.1 piece hmem field hfield]
  exact isidentifier_bok_id

/-- With names for its fields, a template has no other variable than `bok_id`
and no format spec or conversion exactly when it is plain. -/
theorem plainBokId_iff {nodeName : Json} {text : String} (h : IsTemplate T text) :
    PlainBokId text ↔
      checkCollectionVars T nodeName (FormatString.parse text).pieces = .ok () ∧
        (FormatString.parse text).pieces.forM (checkPlainField T nodeName) = .ok () := by
  obtain ⟨hnames, herror⟩ := h
  have hvars : checkCollectionVars T nodeName (FormatString.parse text).pieces = .ok () ↔
      ∀ piece ∈ (FormatString.parse text).pieces, ∀ field, piece.field = some field →
        field.fieldName = "bok_id" := by
    simp only [checkCollectionVars, ensure_eq_ok, List.isEmpty_iff, List.filter_eq_nil_iff,
      templateVars, List.mem_filter, List.mem_map, List.mem_filterMap,
      ALLOWED_COLLECTION_TEMPLATE_VARS, List.mem_singleton, decide_eq_true_eq, not_not]
    constructor
    · intro h piece hmem field hfield
      refine h _ ⟨⟨field, ⟨piece, hmem, hfield⟩, rfl⟩, fun hempty => ?_⟩
      have hname := hnames piece hmem field hfield
      rw [hempty, T.isidentifier_empty] at hname
      cases hname
    · rintro h _ ⟨⟨field, ⟨piece, hmem, hfield⟩, rfl⟩, _⟩
      exact h piece hmem field hfield
  have hplain : (FormatString.parse text).pieces.forM (checkPlainField T nodeName) = .ok () ↔
      ∀ piece ∈ (FormatString.parse text).pieces, ∀ field, piece.field = some field →
        field.formatSpec = "" ∧ field.conversion = none := by
    rw [forM_eq_ok]
    refine forall₂_congr fun piece _ => ?_
    unfold checkPlainField
    split
    · rename_i hnone
      simp [hnone]
    · rename_i field hfield
      simp [hfield]
  rw [hvars, hplain]
  constructor
  · rintro ⟨h, _⟩
    refine ⟨fun piece hmem field hfield => ?_, fun piece hmem field hfield => ?_⟩
    · rw [h piece hmem field hfield, bokIdField]
    · rw [h piece hmem field hfield]
      exact ⟨rfl, rfl⟩
  · rintro ⟨hname, hrest⟩
    refine ⟨fun piece hmem field hfield => ?_, herror⟩
    obtain ⟨hspec, hconversion⟩ := hrest piece hmem field hfield
    have hbok := hname piece hmem field hfield
    obtain ⟨fieldName, formatSpec, conversion⟩ := field
    subst hbok hspec hconversion
    rfl

theorem checkTemplates_eq_ok {nodeName collectionTemplate queryTemplate : Json} :
    checkTemplates T nodeName collectionTemplate queryTemplate = .ok () ↔
      (∃ text, collectionTemplate = .str text ∧ text ≠ "" ∧ PlainBokId text) ∧
        ∃ text, queryTemplate = .str text ∧ text ≠ "" ∧ IsTemplate T text := by
  unfold checkTemplates
  simp only [check_bind_eq_ok, formatterParse_bind_eq_ok, ensure_eq_ok, checkTemplateFields_eq_ok,
    raiseParseError_eq_ok]
  constructor
  · rintro ⟨hcollection, hquery, ⟨text, rfl, htemplate⟩, ⟨text', rfl, htemplate'⟩,
      _, heq, _, hvars, hplain⟩
    obtain rfl := Json.str.inj heq
    refine ⟨⟨text, rfl, by simpa [Json.truthy] using hcollection, ?_⟩,
      ⟨text', rfl, by simpa [Json.truthy] using hquery, htemplate'⟩⟩
    exact (plainBokId_iff htemplate).mpr ⟨hvars, hplain⟩
  · rintro ⟨⟨text, rfl, hne, hplain⟩, ⟨text', rfl, hne', htemplate'⟩⟩
    have htemplate : IsTemplate T text := hplain.isTemplate
    obtain ⟨hvars, hfields⟩ := (plainBokId_iff htemplate).mp hplain
    exact ⟨by simpa [Json.truthy] using hne, by simpa [Json.truthy] using hne',
      ⟨text, rfl, htemplate⟩, ⟨text', rfl, htemplate'⟩, text, rfl, htemplate.2,
      hvars, hfields⟩

/-! ## Nodes -/

theorem checkBounded_eq_ok {min max : Int} {field : String} {nodeName value : Json} :
    checkBounded T min max field nodeName value = .ok () ↔
      ∃ n, value = .int n ∧ min ≤ n ∧ n ≤ max := by
  cases value <;> simp [checkBounded, configError]

/-- The fields of a sound retrieve node. -/
structure SoundRetrieve (T : PythonText) (fields : Fields) : Prop where
  nResults : ∃ n, dictGet fields "n_results" (.int 10) = .int n ∧ 1 ≤ n ∧ n ≤ 50
  maxContextChars : ∃ n, dictGet fields "max_context_chars"
    (.int RETRIEVE_MAX_CONTEXT_CHARS_DEFAULT) = .int n ∧
      RETRIEVE_MAX_CONTEXT_CHARS_MIN ≤ n ∧ n ≤ RETRIEVE_MAX_CONTEXT_CHARS_MAX
  collectionTemplate : ∃ text, dictGet fields "collection_template" (.str "") = .str text ∧
    text ≠ "" ∧ PlainBokId text
  queryTemplate : ∃ text, dictGet fields "query_template" (.str "") = .str text ∧
    text ≠ "" ∧ IsTemplate T text

theorem checkRetrieve_eq_ok {nodeName : Json} {fields : Fields} :
    checkRetrieve T nodeName fields = .ok () ↔ SoundRetrieve T fields := by
  unfold checkRetrieve checkNResults checkMaxContextChars
  simp only [check_bind_eq_ok, checkBounded_eq_ok, checkTemplates_eq_ok]
  constructor
  · rintro ⟨hn, hmax, hcollection, hquery⟩
    exact ⟨hn, hmax, hcollection, hquery⟩
  · rintro ⟨hn, hmax, hcollection, hquery⟩
    exact ⟨hn, hmax, hcollection, hquery⟩

/-- The fields of a sound node. -/
structure SoundNode (T : PythonText) (fields : Fields) : Prop where
  name : (dictGet fields "name" .null).truthy = true
  type : isNodeType (dictGet fields "type" (.str "llm")) = true
  retrieve : dictGet fields "type" (.str "llm") = .str "retrieve" → SoundRetrieve T fields
  echo : dictGet fields "type" (.str "llm") = .str "echo" →
    (dictGet fields "source" .null).truthy = true

theorem checkKind_eq_ok {nodeName nodeType : Json} {fields : Fields} :
    checkKind T nodeName nodeType fields = .ok () ↔
      (nodeType = .str "retrieve" → SoundRetrieve T fields) ∧
        (nodeType = .str "echo" → (dictGet fields "source" .null).truthy = true) := by
  unfold checkKind
  by_cases hretrieve : nodeType = .str "retrieve"
  · subst hretrieve
    simp [isText, checkRetrieve_eq_ok]
  by_cases hecho : nodeType = .str "echo"
  · subst hecho
    simp [isText]
  · have h₁ : ¬ isText "retrieve" nodeType = true := by simpa using hretrieve
    have h₂ : ¬ isText "echo" nodeType = true := by simpa using hecho
    rw [if_neg h₁, if_neg h₂]
    simp [hretrieve, hecho]

theorem parseNode_eq_ok {nodeIndex : Nat} {nodeDef : Json} {node : Node} :
    parseNode T nodeIndex nodeDef = .ok node ↔
      ∃ fields, nodeDef = .obj fields ∧ SoundNode T fields ∧ node = .ofFields fields := by
  unfold parseNode
  cases nodeDef with
  | obj fields =>
    simp only [check_bind_eq_ok, ensure_eq_ok, checkKind_eq_ok, Json.obj.injEq, exists_eq_left']
    constructor
    · rintro ⟨hname, htype, ⟨hretrieve, hecho⟩, hnode⟩
      exact ⟨⟨hname, htype, hretrieve, hecho⟩, (Except.ok.inj hnode).symm⟩
    · rintro ⟨⟨hname, htype, hretrieve, hecho⟩, rfl⟩
      exact ⟨hname, htype, ⟨hretrieve, hecho⟩, rfl⟩
  | _ => simp [configError]

/-- The entry of the node dictionary that an entry of `nodes` describes. -/
def NodeOf (T : PythonText) (nodeDef : Json) (entry : Hashed × Node) : Prop :=
  ∃ fields, nodeDef = .obj fields ∧ SoundNode T fields ∧
    (dictGet fields "name" .null).hash? = some entry.1 ∧ entry.2 = .ofFields fields

theorem addNode_eq_ok {nodes nodes' : Nodes} {nodeDef : Json} {nodeIndex : Nat} :
    addNode T nodes (nodeDef, nodeIndex) = .ok nodes' ↔
      ∃ entry, NodeOf T nodeDef entry ∧ nodes.get? entry.1 = none ∧
        nodes' = nodes.set entry.1 entry.2 := by
  unfold addNode
  rw [bind_eq_ok]
  simp only [hash_bind_eq_ok, check_bind_eq_ok, ensure_eq_ok, Option.isNone_iff_eq_none]
  constructor
  · rintro ⟨node, hnode, key, hkey, hnew, hset⟩
    obtain ⟨fields, hobj, hsound, rfl⟩ := parseNode_eq_ok.mp hnode
    exact ⟨(key, .ofFields fields), ⟨fields, hobj, hsound, hkey, rfl⟩, hnew,
      (Except.ok.inj hset).symm⟩
  · rintro ⟨⟨key, _⟩, ⟨fields, hobj, hsound, hkey, rfl⟩, hnew, rfl⟩
    exact ⟨.ofFields fields, parseNode_eq_ok.mpr ⟨fields, hobj, hsound, rfl⟩, key, hkey, hnew, rfl⟩

/-- The loop over `nodes` returns the dictionary that its entries describe. -/
theorem addNodes_eq_ok {nodeDefs : List Json} {k : Nat} {nodes nodes' : Nodes} :
    (nodeDefs.zipIdx k).foldlM (addNode T) nodes = .ok nodes' ↔
      ∃ entries, List.Forall₂ (NodeOf T) nodeDefs entries ∧
        nodes'.entries = nodes.entries ++ entries := by
  induction nodeDefs generalizing k nodes with
  | nil =>
    constructor
    · intro h
      obtain rfl := Except.ok.inj h
      exact ⟨[], .nil, (List.append_nil _).symm⟩
    · rintro ⟨_, h, heq⟩
      obtain rfl := List.forall₂_nil_left_iff.mp h
      rw [List.append_nil] at heq
      exact congrArg Except.ok (OrderedDict.ext heq.symm)
  | cons nodeDef nodeDefs ih =>
    rw [List.zipIdx_cons, List.foldlM_cons, bind_eq_ok]
    simp only [addNode_eq_ok, ih]
    constructor
    · rintro ⟨_, ⟨entry, hentry, hnew, rfl⟩, entries, hentries, heq⟩
      refine ⟨entry :: entries, .cons hentry hentries, ?_⟩
      rw [heq, OrderedDict.entries_set_of_new hnew, List.append_assoc, List.singleton_append]
    · rintro ⟨_, h, heq⟩
      obtain ⟨entry, entries, hentry, hentries, rfl⟩ := List.forall₂_cons_left_iff.mp h
      have hnew : nodes.get? entry.1 = none := by
        have hnodup := nodes'.nodup
        rw [heq, List.map_append, List.map_cons, List.nodup_append] at hnodup
        rw [OrderedDict.get?_eq_none]
        exact fun hmem => hnodup.2.2 _ hmem _ List.mem_cons_self rfl
      refine ⟨_, ⟨entry, hentry, hnew, rfl⟩, entries, hentries, ?_⟩
      rw [heq, OrderedDict.entries_set_of_new hnew, List.append_assoc, List.singleton_append]

theorem parseNodes_eq_ok {rawNodes : Json} {nodes : Nodes} :
    parseNodes T rawNodes = .ok nodes ↔
      List.Forall₂ (NodeOf T) rawNodes.elements nodes.entries := by
  unfold parseNodes
  rw [addNodes_eq_ok]
  constructor
  · rintro ⟨entries, h, heq⟩
    rw [heq]
    exact h
  · exact fun h => ⟨nodes.entries, h, rfl⟩

/-! ## Edges -/

/-- A declared node, or one of the two ends of the graph. -/
def Known (nodes : Nodes) (name : Json) : Prop :=
  ∃ key, name.hash? = some key ∧
    ((nodes.get? key).isSome = true ∨ key = .text "START" ∨ key = .text "END")

theorem validateEndpoint_eq_ok {nodes : Nodes} {name : Json} {construct : String} :
    validateEndpoint T nodes name construct = .ok () ↔ Known nodes name := by
  unfold validateEndpoint Known
  simp only [hash_bind_eq_ok, ensure_eq_ok, Bool.or_eq_true, decide_eq_true_eq, List.mem_cons,
    List.not_mem_nil, or_false]

theorem validateDefault_eq_ok {nodes : Nodes} {default : Json} :
    validateDefault T nodes default = .ok () ↔ default = .null ∨ Known nodes default := by
  unfold validateDefault
  split
  · simp
  · rename_i hdefault
    rw [validateEndpoint_eq_ok]
    exact ⟨Or.inr, fun h => h.resolve_left hdefault⟩

theorem mapFields_eq_ok {fromNode rawMap : Json} {fields : Fields} :
    mapFields T fromNode rawMap = .ok fields ↔ rawMap = .obj fields := by
  cases rawMap <;> simp [mapFields, configError]

theorem mapFields_bind_eq_ok {α : Type} {fromNode rawMap : Json} {f : Fields → Except Raised α}
    {a : α} :
    (mapFields T fromNode rawMap >>= f) = .ok a ↔
      ∃ fields, rawMap = .obj fields ∧ f fields = .ok a := by
  simp only [bind_eq_ok, mapFields_eq_ok]

theorem mapTargets_eq_ok {fromNode : Json} {rawMap : Fields} {targets : List (String × String)} :
    mapTargets T fromNode rawMap = .ok targets ↔
      rawMap = targets.map fun entry => (entry.1, .str entry.2) := by
  unfold mapTargets
  rw [mapM_eq_ok]
  constructor
  · intro h
    induction h with
    | nil => rfl
    | @cons entry target _ _ htarget _ ih =>
      obtain ⟨key, value⟩ := entry
      rw [List.map_cons, ← ih]
      cases value with
      | str text =>
        obtain rfl := Except.ok.inj htarget
        rfl
      | _ => cases htarget
  · rintro rfl
    rw [List.forall₂_map_left_iff]
    exact List.forall₂_same.mpr fun _ _ => rfl

theorem mapTargets_bind_eq_ok {α : Type} {fromNode : Json} {rawMap : Fields}
    {f : List (String × String) → Except Raised α} {a : α} :
    (mapTargets T fromNode rawMap >>= f) = .ok a ↔
      ∃ targets : List (String × String),
        rawMap = (targets.map fun entry => (entry.1, .str entry.2)) ∧ f targets = .ok a := by
  simp only [bind_eq_ok, mapTargets_eq_ok]

/-- What an entry of `edges` describes; a conditional edge with the key of
its source. -/
inductive EdgeEntry where
  | plain (edge : Edge)
  | conditional (source : Hashed) (edge : ConditionalEdge)

namespace EdgeEntry

def plain? : EdgeEntry → Option Edge
  | .plain edge => some edge
  | .conditional _ _ => none

def conditional? : EdgeEntry → Option ConditionalEdge
  | .plain _ => none
  | .conditional _ edge => some edge

/-- The source of a conditional edge. -/
def source? : EdgeEntry → Option Hashed
  | .plain _ => none
  | .conditional source _ => some source

end EdgeEntry

def EdgeTables.add (tables : EdgeTables) : EdgeEntry → EdgeTables
  | .plain edge => tables.addEdge edge
  | .conditional source edge => tables.addConditional source edge

/-- The fields of a conditional entry, and the edge they describe. -/
structure ConditionalOf (T : PythonText) (nodes : Nodes) (fields : Fields) (source : Hashed)
    (edge : ConditionalEdge) : Prop where
  fromNode : edge.fromNode = dictGet fields "from" (.str "START")
  onField : edge.onField = dictGet fields "on" .null
  default : edge.default = dictGet fields "default" .null
  pathMap : ∃ targets : List (String × String), edge.pathMap = Graph.pathMap T targets ∧
    dictGet fields "map" (.obj []) = .obj (targets.map fun entry => (entry.1, .str entry.2))
  on_truthy : edge.onField.truthy = true
  source_key : edge.fromNode.hash? = some source
  from_known : Known nodes edge.fromNode
  targets_known : ∀ target ∈ edge.pathMap.values, Known nodes (.str target)
  default_known : edge.default = .null ∨ Known nodes edge.default

theorem addConditionalEdge_eq_ok {nodes : Nodes} {tables tables' : EdgeTables} {fields : Fields} :
    addConditionalEdge T nodes tables fields = .ok tables' ↔
      ∃ source edge, ConditionalOf T nodes fields source edge ∧
        source ∉ tables.conditionalSources ∧ tables' = tables.addConditional source edge := by
  unfold addConditionalEdge
  simp only [check_bind_eq_ok, hash_bind_eq_ok, mapFields_bind_eq_ok, mapTargets_bind_eq_ok,
    forM_eq_ok, ensure_eq_ok, validateEndpoint_eq_ok, validateDefault_eq_ok, decide_eq_true_eq]
  constructor
  · rintro ⟨hon, source, hsource, hfresh, _, hmap, targets, rfl, hfrom, htargets, hdefault, h⟩
    exact ⟨source, _, ⟨rfl, rfl, rfl, ⟨targets, rfl, hmap⟩, hon, hsource, hfrom, htargets,
      hdefault⟩, hfresh, (Except.ok.inj h).symm⟩
  · rintro ⟨source, ⟨_, _, _, _⟩, ⟨rfl, rfl, rfl, ⟨targets, rfl, hmap⟩, hon, hsource, hfrom,
      htargets, hdefault⟩, hfresh, rfl⟩
    exact ⟨hon, source, hsource, hfresh, _, hmap, targets, rfl, hfrom, htargets, hdefault, rfl⟩

theorem addPlainEdge_eq_ok {nodes : Nodes} {tables tables' : EdgeTables} {fields : Fields} :
    addPlainEdge T nodes tables fields = .ok tables' ↔
      Known nodes (dictGet fields "from" (.str "START")) ∧
        Known nodes (dictGet fields "to" (.str "END")) ∧
        tables' = tables.addEdge
          ⟨dictGet fields "from" (.str "START"), dictGet fields "to" (.str "END")⟩ := by
  unfold addPlainEdge
  simp only [check_bind_eq_ok, validateEndpoint_eq_ok]
  rw [@eq_comm _ tables']
  exact and_congr_right fun _ => and_congr_right fun _ => ⟨Except.ok.inj, congrArg _⟩

/-- The edge that an entry of `edges` describes. -/
inductive EdgeOf (T : PythonText) (nodes : Nodes) : Json → EdgeEntry → Prop where
  | plain {fields : Fields} (hplain : isConditional fields = false)
      (hfrom : Known nodes (dictGet fields "from" (.str "START")))
      (hto : Known nodes (dictGet fields "to" (.str "END"))) :
      EdgeOf T nodes (.obj fields)
        (.plain ⟨dictGet fields "from" (.str "START"), dictGet fields "to" (.str "END")⟩)
  | conditional {fields : Fields} {source : Hashed} {edge : ConditionalEdge}
      (hconditional : isConditional fields = true)
      (hedge : ConditionalOf T nodes fields source edge) :
      EdgeOf T nodes (.obj fields) (.conditional source edge)

/-- The entry has no conditional source that the tables already have. -/
def Fresh (tables : EdgeTables) (entry : EdgeEntry) : Prop :=
  ∀ source, entry.source? = some source → source ∉ tables.conditionalSources

theorem addEdgeDef_eq_ok {nodes : Nodes} {tables tables' : EdgeTables} {edgeDef : Json}
    {edgeIndex : Nat} :
    addEdgeDef T nodes tables (edgeDef, edgeIndex) = .ok tables' ↔
      ∃ entry, EdgeOf T nodes edgeDef entry ∧ Fresh tables entry ∧ tables' = tables.add entry := by
  unfold addEdgeDef
  constructor
  · intro h
    cases edgeDef with
    | obj fields =>
      dsimp only at h
      split at h
      · rename_i hconditional
        obtain ⟨source, edge, hedge, hfresh, rfl⟩ := addConditionalEdge_eq_ok.mp h
        refine ⟨.conditional source edge, .conditional hconditional hedge, ?_, rfl⟩
        intro source' hsource
        rw [← Option.some.inj hsource]
        exact hfresh
      · rename_i hplain
        obtain ⟨hfrom, hto, rfl⟩ := addPlainEdge_eq_ok.mp h
        exact ⟨_, .plain (Bool.eq_false_iff.mpr hplain) hfrom hto, nofun, rfl⟩
    | _ => cases h
  · rintro ⟨_, hentry, hfresh, rfl⟩
    cases hentry with
    | plain hplain hfrom hto =>
      dsimp only
      rw [hplain, if_neg Bool.false_ne_true]
      exact addPlainEdge_eq_ok.mpr ⟨hfrom, hto, rfl⟩
    | conditional hconditional hedge =>
      dsimp only
      rw [if_pos hconditional]
      exact addConditionalEdge_eq_ok.mpr ⟨_, _, hedge, hfresh _ rfl, rfl⟩

theorem mem_conditionalSources_add {tables : EdgeTables} {entry : EdgeEntry} {source : Hashed} :
    source ∈ (tables.add entry).conditionalSources ↔
      source ∈ tables.conditionalSources ∨ entry.source? = some source := by
  cases entry with
  | plain edge => simp [EdgeTables.add, EdgeTables.addEdge, EdgeEntry.source?]
  | conditional source' edge =>
    simp [EdgeTables.add, EdgeTables.addConditional, EdgeEntry.source?, eq_comm]

/-- The conditional sources of the entries differ from each other and from
those of the tables. -/
def OneSource (tables : EdgeTables) (entries : List EdgeEntry) : Prop :=
  (∀ entry ∈ entries, Fresh tables entry) ∧ (entries.filterMap EdgeEntry.source?).Nodup

theorem oneSource_cons {tables : EdgeTables} {entry : EdgeEntry} {entries : List EdgeEntry} :
    OneSource tables (entry :: entries) ↔
      Fresh tables entry ∧ OneSource (tables.add entry) entries := by
  have hfresh (e : EdgeEntry) : Fresh (tables.add entry) e ↔
      Fresh tables e ∧ ∀ source, e.source? = some source → entry.source? ≠ some source := by
    simp only [Fresh, mem_conditionalSources_add, not_or, imp_and, forall_and, ne_eq]
  unfold OneSource
  simp only [List.forall_mem_cons, hfresh, forall_and]
  cases hsource : entry.source? with
  | none =>
    rw [List.filterMap_cons_none hsource]
    simp [and_assoc]
  | some source =>
    rw [List.filterMap_cons_some hsource, List.nodup_cons, List.mem_filterMap]
    simp only [Option.some.injEq, ne_eq, not_exists, not_and]
    constructor
    · rintro ⟨⟨hentry, hentries⟩, hnew, hnodup⟩
      refine ⟨hentry, ⟨hentries, ?_⟩, hnodup⟩
      rintro e hmem _ hsource' rfl
      exact hnew e hmem hsource'
    · rintro ⟨hentry, ⟨hentries, hnew⟩, hnodup⟩
      exact ⟨⟨hentry, hentries⟩, fun e hmem hsource' => hnew e hmem _ hsource' rfl, hnodup⟩

/-- The loop over `edges` returns the tables that its entries describe. -/
theorem addEdges_eq_ok {nodes : Nodes} {edgeDefs : List Json} {k : Nat}
    {tables tables' : EdgeTables} :
    (edgeDefs.zipIdx k).foldlM (addEdgeDef T nodes) tables = .ok tables' ↔
      ∃ entries, List.Forall₂ (EdgeOf T nodes) edgeDefs entries ∧ OneSource tables entries ∧
        tables' = entries.foldl .add tables := by
  induction edgeDefs generalizing k tables with
  | nil =>
    constructor
    · intro h
      obtain rfl := Except.ok.inj h
      exact ⟨[], .nil, ⟨nofun, List.nodup_nil⟩, rfl⟩
    · rintro ⟨_, h, _, rfl⟩
      obtain rfl := List.forall₂_nil_left_iff.mp h
      rfl
  | cons edgeDef edgeDefs ih =>
    rw [List.zipIdx_cons, List.foldlM_cons, bind_eq_ok]
    simp only [addEdgeDef_eq_ok, ih]
    constructor
    · rintro ⟨_, ⟨entry, hentry, hfresh, rfl⟩, entries, hentries, hone, rfl⟩
      exact ⟨entry :: entries, .cons hentry hentries, oneSource_cons.mpr ⟨hfresh, hone⟩, rfl⟩
    · rintro ⟨_, h, hone, rfl⟩
      obtain ⟨entry, entries, hentry, hentries, rfl⟩ := List.forall₂_cons_left_iff.mp h
      obtain ⟨hfresh, hone⟩ := oneSource_cons.mp hone
      exact ⟨_, ⟨entry, hentry, hfresh, rfl⟩, entries, hentries, hone, rfl⟩

/-- The tables of the entries, in their order. -/
theorem foldl_add (tables : EdgeTables) (entries : List EdgeEntry) :
    (entries.foldl .add tables).edges = tables.edges ++ entries.filterMap EdgeEntry.plain? ∧
      (entries.foldl .add tables).conditionalEdges =
        tables.conditionalEdges ++ entries.filterMap EdgeEntry.conditional? := by
  induction entries generalizing tables with
  | nil => simp
  | cons entry entries ih =>
    obtain ⟨hedges, hconditional⟩ := ih (tables.add entry)
    rw [List.foldl_cons, hedges, hconditional]
    cases entry with
    | plain edge =>
      simp [EdgeTables.add, EdgeTables.addEdge, EdgeEntry.plain?, EdgeEntry.conditional?,
        List.filterMap_cons]
    | conditional source edge =>
      simp [EdgeTables.add, EdgeTables.addConditional, EdgeEntry.plain?, EdgeEntry.conditional?,
        List.filterMap_cons]

theorem conditionalSources_foldl {tables : EdgeTables} {entries : List EdgeEntry}
    (h : OneSource tables entries) :
    (entries.foldl .add tables).conditionalSources.toList =
      tables.conditionalSources.toList ++ entries.filterMap EdgeEntry.source? := by
  induction entries generalizing tables with
  | nil => simp
  | cons entry entries ih =>
    obtain ⟨hfresh, hone⟩ := oneSource_cons.mp h
    rw [List.foldl_cons, ih hone]
    cases entry with
    | plain edge => rfl
    | conditional source edge =>
      have hinsert : ((tables.add (.conditional source edge)).conditionalSources).toList =
          tables.conditionalSources.toList ++ [source] :=
        OrderedSet.toList_insert_of_new (hfresh source rfl)
      rw [hinsert, List.append_assoc]
      rfl

/-- The edges of a definition, for the nodes it declares. -/
def EdgesOf (T : PythonText) (nodes : Nodes) (edgeDefs : List Json) (entries : List EdgeEntry) :
    Prop :=
  List.Forall₂ (EdgeOf T nodes) edgeDefs entries ∧ (entries.filterMap EdgeEntry.source?).Nodup

theorem EdgesOf.oneSource {nodes : Nodes} {edgeDefs : List Json} {entries : List EdgeEntry}
    (h : EdgesOf T nodes edgeDefs entries) : OneSource .empty entries :=
  ⟨fun _ _ _ _ => OrderedSet.not_mem_empty _, h.2⟩

theorem parseEdges_eq_ok {nodes : Nodes} {rawEdges : Json} {tables : EdgeTables} :
    parseEdges T nodes rawEdges = .ok tables ↔
      ∃ entries, EdgesOf T nodes rawEdges.elements entries ∧
        tables = entries.foldl .add .empty := by
  unfold parseEdges
  rw [addEdges_eq_ok]
  constructor
  · rintro ⟨entries, hentries, hone, htables⟩
    exact ⟨entries, ⟨hentries, hone.2⟩, htables⟩
  · rintro ⟨entries, hentries, htables⟩
    exact ⟨entries, hentries.1, hentries.oneSource, htables⟩

/-! ## The definition -/

/-- `nodes` and `edges` have a length within their limit. -/
structure WithinLimits (definition : Fields) : Prop where
  node_count : ∃ n, (dictGet definition "nodes" (.arr [])).len? = some n ∧ n ≤ MAX_GRAPH_NODES
  edge_count : ∃ n, (dictGet definition "edges" (.arr [])).len? = some n ∧ n ≤ MAX_GRAPH_EDGES

/-- The entries of an accepted definition, and the graph they describe. -/
structure AcceptedAs (T : PythonText) (definition : Fields) (nodes : Nodes)
    (entries : List EdgeEntry) : Prop where
  limits : WithinLimits definition
  node_entries :
    List.Forall₂ (NodeOf T) (dictGet definition "nodes" (.arr [])).elements nodes.entries
  edge_entries : EdgesOf T nodes (dictGet definition "edges" (.arr [])).elements entries

theorem acceptedAs_of_ok {σ : Type} {buildStateModel : Json → Except Raised σ}
    {definition : Fields} {graph : PromptGraph σ}
    (h : fromDefinition T buildStateModel definition = .ok graph) :
    ∃ entries, AcceptedAs T definition graph.nodes entries ∧
      graph.edges = entries.filterMap EdgeEntry.plain? ∧
      graph.conditionalEdges = entries.filterMap EdgeEntry.conditional? := by
  unfold fromDefinition at h
  simp only [len_bind_eq_ok, check_bind_eq_ok, ensure_eq_ok, decide_eq_true_eq] at h
  obtain ⟨n, hn, hnmax, m, hm, hmmax, h⟩ := h
  obtain ⟨nodes, hnodes, h⟩ := bind_eq_ok.mp h
  obtain ⟨tables, htables, h⟩ := bind_eq_ok.mp h
  obtain ⟨stateModel, _, h⟩ := bind_eq_ok.mp h
  obtain rfl := Except.ok.inj h
  obtain ⟨entries, hentries, rfl⟩ := parseEdges_eq_ok.mp htables
  obtain ⟨hedges, hconditional⟩ := foldl_add .empty entries
  exact ⟨entries, ⟨⟨⟨n, hn, hnmax⟩, m, hm, hmmax⟩, parseNodes_eq_ok.mp hnodes, hentries⟩,
    hedges, hconditional⟩

end VirtualContributor.Graph
