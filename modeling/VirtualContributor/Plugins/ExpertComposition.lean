import VirtualContributor.Adapters.EmbedQuery
import VirtualContributor.Evaluation.CaseIdentity
import VirtualContributor.Lib.CanonicalJson

/-!
# The composition of the expert plugin

`plugins/expert/composition.py`: the settings that an expert is built from are
resolved once, into an authority of plain values, and the authority has a
fingerprint.

The fingerprint is a digest of a description of the authority.
`fingerprintPayload_eq_iff` says that the description misses nothing: two
authorities have the same one if and only if they have the same behaviour and
the same dependencies.  Credentials and endpoints are kept apart and never
described.
-/

namespace VirtualContributor.Plugins

open Lib Evaluation Adapters

variable {F : JsonFloats}

/-! ## Settings -/

/-- A value of a setting: `str | int | float | bool | None`. -/
def IsScalar : Json → Prop
  | .arr _ | .obj _ => False
  | _ => True

abbrev Scalar (F : JsonFloats) := {value : Json // IsScalar value ∧ F.Printable value}

theorem sortKeys_scalar (value : Scalar F) : sortKeys value.val = value.val := by
  obtain ⟨value, hscalar, _⟩ := value
  cases value with
  | arr items => exact hscalar.elim
  | obj fields => exact hscalar.elim
  | _ => rfl

inductive LLMProvider where
  | mistral
  | openai
  | anthropic
deriving DecidableEq

def LLMProvider.value : LLMProvider → String
  | mistral => "mistral"
  | openai => "openai"
  | anthropic => "anthropic"

def DEFAULT_MODELS : LLMProvider → String
  | .mistral => "mistral-large-latest"
  | .openai => "gpt-4o"
  | .anthropic => "claude-sonnet-4-6"

/-- What is read of a configuration: the scalar fields by name, and those that
decide something. -/
structure ConfigView (F : JsonFloats) where
  value : String → Scalar F
  llmProvider : LLMProvider
  llmModel : Option String
  embeddingsModelName : Option String
  embeddingsQueryInstruction : Option String
  queryRewriteMaxHistoryTurns : Int
  turns_short : (Nat.toDigits 10 queryRewriteMaxHistoryTurns.natAbs).length ≤ MAX_STR_DIGITS
  /-- `getattr(config, "history_length", None)`. -/
  historyLength : Option Int
  history_short : ∀ n ∈ historyLength, (Nat.toDigits 10 n.natAbs).length ≤ MAX_STR_DIGITS
  expertHierarchicalRetrievalEnabled : Bool

/-- `_BEHAVIOR_FIELDS`. -/
def BEHAVIOR_FIELDS : List String :=
  ["expert_n_results", "expert_min_score", "max_context_chars",
    "expert_hierarchy_max_branches", "expert_hierarchy_display_names_enabled",
    "answering_llm_temperature", "answering_chain_of_thought_enabled",
    "llm_temperature", "llm_max_tokens", "llm_top_p", "llm_timeout",
    "embeddings_query_max_utf8_bytes", "embeddings_max_attempts",
    "embeddings_attempt_timeout_seconds", "embeddings_total_deadline_seconds",
    "vector_db_distance_fn", "hybrid_retrieval_enabled", "hybrid_dense_weight",
    "hybrid_lexical_weight", "hybrid_rrf_k", "hybrid_max_terms", "hybrid_min_term_len",
    "rerank_enabled", "rerank_candidate_n", "rerank_top_k", "rerank_lexical_weight",
    "routing_enabled", "routing_simple_n_results", "routing_complex_n_results",
    "routing_complex_context_chars", "faithfulness_validation_enabled",
    "query_rewrite_gating_enabled", "query_rewrite_max_expansion_ratio",
    "query_rewrite_max_history_chars", "query_rewrite_max_utf8_bytes"]

/-- `_PLUMBING_FIELDS`. -/
def PLUMBING_FIELDS : List String :=
  ["llm_api_key", "llm_base_url", "embeddings_api_key", "embeddings_endpoint",
    "vector_db_host", "vector_db_port", "vector_db_credentials", "tracing_enabled"]

/-- The fields that the configuration of the plugin's own model overrides. -/
def LLM_FIELDS : List String := ["llm_temperature", "llm_max_tokens", "llm_top_p", "llm_timeout"]

/-! ## The authority -/

inductive HierarchyMode where
  | flat
  | hierarchical
deriving DecidableEq

structure ResolvedExpertComposition where
  behavior : Fields
  dependencyIdentities : List (String × String)
  mode : HierarchyMode

structure ResolvedExpertWiring where
  authority : ResolvedExpertComposition
  plumbing : Fields

/-- The names and ids of `_selector_registry()`. -/
def EXPERT_SELECTOR_REGISTRY : List (String × String) :=
  [("llm", "expert.llm.adapter/v1"), ("embeddings", "expert.embeddings.adapter/v1"),
    ("knowledge_store", "expert.knowledge-store.adapter/v1"),
    ("hybrid", "expert.hybrid.retrieve/v1"), ("reranker", "expert.reranker.lexical/v1"),
    ("router", "expert.router.rule-classifier/v1"),
    ("routing_table", "expert.routing-table.profile-builder/v1"),
    ("faithfulness", "expert.faithfulness.context-sufficiency/v1"),
    ("rewrite", "expert.rewrite.policy-builder/v1")]

/-- The dependencies that are only there when a setting enables them. -/
def OPTIONAL_DEPENDENCIES : List (String × String) :=
  [("reranker", "rerank_enabled"), ("router", "routing_enabled"),
    ("routing_table", "routing_enabled"), ("faithfulness", "faithfulness_validation_enabled"),
    ("rewrite", "query_rewrite_gating_enabled")]

/-- `a or b` of an optional text and a text. -/
def orDefault (text : Option String) (default : String) : String :=
  if truthy text then text.getD default else default

section Resolve

variable (lower : String → String) (config llm : ConfigView F)

/-- The turns of history that a rewrite may read. -/
def maxHistoryTurns : Int :=
  match config.historyLength with
  | none => config.queryRewriteMaxHistoryTurns
  | some history =>
    if history = 0 then config.queryRewriteMaxHistoryTurns
    else min config.queryRewriteMaxHistoryTurns history

/-- The values that are not fields as they are. -/
def derivedValues : Fields :=
  let embeddingModel := orDefault config.embeddingsModelName "qwen3-embedding-8b"
  [("llm_provider", .str llm.llmProvider.value),
    ("llm_model", .str (orDefault llm.llmModel (DEFAULT_MODELS llm.llmProvider))),
    ("embeddings_model_name", .str embeddingModel),
    ("embeddings_query_instruction", .str
      (OpenAICompatibleEmbeddingsAdapter._resolveQueryInstruction lower embeddingModel
        config.embeddingsQueryInstruction)),
    ("query_rewrite_max_history_turns", .int (maxHistoryTurns config))]

def resolvedValues : Fields :=
  updateFields
    (updateFields (BEHAVIOR_FIELDS.map fun name => (name, (config.value name).val))
      (derivedValues lower config llm))
    (LLM_FIELDS.map fun name => (name, (llm.value name).val))

/-- The id of a dependency: `none` for one that is not enabled. -/
def dependencyIdentity (values : Fields) (entry : String × String) : String × String :=
  match OPTIONAL_DEPENDENCIES.lookup entry.1 with
  | none => entry
  | some setting =>
    if (values.lookup setting).any Json.truthy then entry else (entry.1, "none")

/-- `resolve_expert_composition`, with the registry of the module. -/
def resolveExpertComposition : ResolvedExpertWiring :=
  let values := resolvedValues lower config llm
  { authority :=
      { behavior := values.insertionSort fun a b => a.1 ≤ b.1
        dependencyIdentities :=
          (EXPERT_SELECTOR_REGISTRY.map (dependencyIdentity values)).insertionSort
            fun a b => a.1 ≤ b.1
        mode := if config.expertHierarchicalRetrievalEnabled then .hierarchical else .flat }
    plumbing :=
      (PLUMBING_FIELDS.map fun name =>
        (name, (if "llm_".toList.isPrefixOf name.toList then llm.value name
          else config.value name).val)).insertionSort fun a b => a.1 ≤ b.1 }

end Resolve

/-! ## The description -/

/-- What stands at a key of the description: a behaviour or a dependency. -/
inductive Leaf where
  | behavior (name : String)
  | dependency (name : String)
deriving DecidableEq

/-- `{key: values[key] for key in names}`. -/
def behaviors (names : List String) : List (String × Leaf) :=
  names.map fun name => (name, .behavior name)

/-- The groups of the description and what stands in them. -/
def DESCRIPTOR_GROUPS : List (String × List (String × Leaf)) :=
  [("expert", behaviors ["expert_n_results", "expert_min_score", "max_context_chars",
      "expert_hierarchy_max_branches", "expert_hierarchy_display_names_enabled"]),
    ("answering", behaviors ["answering_llm_temperature", "answering_chain_of_thought_enabled"]),
    ("llm", behaviors ["llm_provider", "llm_model", "llm_temperature", "llm_max_tokens",
      "llm_top_p", "llm_timeout"] ++ [("adapter", .dependency "llm")]),
    ("embeddings", behaviors ["embeddings_model_name", "embeddings_query_instruction",
      "embeddings_query_max_utf8_bytes", "embeddings_max_attempts",
      "embeddings_attempt_timeout_seconds", "embeddings_total_deadline_seconds"] ++
      [("adapter", .dependency "embeddings")]),
    ("knowledge_store", [("distance_fn", .behavior "vector_db_distance_fn"),
      ("adapter", .dependency "knowledge_store")]),
    ("hybrid", behaviors ["hybrid_retrieval_enabled", "hybrid_dense_weight",
      "hybrid_lexical_weight", "hybrid_rrf_k", "hybrid_max_terms", "hybrid_min_term_len"] ++
      [("strategy", .dependency "hybrid")]),
    ("rerank", behaviors ["rerank_enabled", "rerank_candidate_n", "rerank_top_k",
      "rerank_lexical_weight"] ++ [("adapter", .dependency "reranker")]),
    ("routing", behaviors ["routing_enabled", "routing_simple_n_results",
      "routing_complex_n_results", "routing_complex_context_chars"] ++
      [("router", .dependency "router"), ("table", .dependency "routing_table")]),
    ("faithfulness", [("enabled", .behavior "faithfulness_validation_enabled"),
      ("validator", .dependency "faithfulness")]),
    ("rewrite", behaviors ["query_rewrite_gating_enabled", "query_rewrite_max_expansion_ratio",
      "query_rewrite_max_history_turns", "query_rewrite_max_history_chars",
      "query_rewrite_max_utf8_bytes"] ++ [("policy", .dependency "rewrite")])]

section Descriptor

variable (composition : ResolvedExpertComposition)

/-- `values[key]` or `deps[key]`; the error is the key of the `KeyError`. -/
def leafValue : Leaf → Except String Json
  | .behavior name =>
    match composition.behavior.lookup name with
    | some value => .ok value
    | none => .error name
  | .dependency name =>
    match composition.dependencyIdentities.lookup name with
    | some id => .ok (.str id)
    | none => .error name

/-- The fields of one group. -/
def describeGroup (entries : List (String × Leaf)) : Except String Fields :=
  entries.mapM fun entry => (entry.1, ·) <$> leafValue composition entry.2

/-- `expert_composition_descriptor`. -/
def expertCompositionDescriptor : Except String Fields := do
  let groups ← DESCRIPTOR_GROUPS.mapM fun group =>
    (fun fields => (group.1, Json.obj fields)) <$> describeGroup composition group.2
  return ("schema", .str "expert-composition/v7") :: groups

/-- What the fingerprint is the digest of. -/
def fingerprintPayload (F : JsonFloats) : Except String String :=
  (fun fields => JsonStyle.dumps { itemBlanks := 0, keyBlanks := 0 } F (sortKeys (.obj fields))) <$>
    expertCompositionDescriptor composition

/-- `expert_composition_fingerprint`. -/
def expertCompositionFingerprint (E : EvaluationHost) : Except String String :=
  E.sha256 <$> fingerprintPayload composition E.floats.toJsonFloats

end Descriptor

/-! ## Resolved authorities -/

/-- The names of the behaviours, sorted. -/
def BEHAVIOR_NAMES : List String :=
  (BEHAVIOR_FIELDS ++ ["llm_provider", "llm_model", "embeddings_model_name",
    "embeddings_query_instruction", "query_rewrite_max_history_turns"]).insertionSort (· ≤ ·)

/-- The names of the dependencies, sorted. -/
def DEPENDENCY_NAMES : List String :=
  (EXPERT_SELECTOR_REGISTRY.map Prod.fst).insertionSort (· ≤ ·)

/-- An authority with all behaviours and dependencies, and plain values. -/
structure Resolved (F : JsonFloats) (composition : ResolvedExpertComposition) : Prop where
  behaviors : composition.behavior.map Prod.fst = BEHAVIOR_NAMES
  dependencies : composition.dependencyIdentities.map Prod.fst = DEPENDENCY_NAMES
  scalar : ∀ field ∈ composition.behavior, IsScalar field.2 ∧ F.Printable field.2

theorem nodup_BEHAVIOR_NAMES : BEHAVIOR_NAMES.Nodup := by
  unfold BEHAVIOR_NAMES
  rw [(List.perm_insertionSort _ _).nodup_iff]
  decide

theorem nodup_DEPENDENCY_NAMES : DEPENDENCY_NAMES.Nodup := by
  unfold DEPENDENCY_NAMES
  rw [(List.perm_insertionSort _ _).nodup_iff]
  decide

theorem map_fst_insertionSort {β : Type} (fields : List (String × β)) :
    (fields.insertionSort fun a b => a.1 ≤ b.1).map Prod.fst =
      (fields.map Prod.fst).insertionSort (· ≤ ·) :=
  List.map_insertionSort _ _ _ _ fun _ _ _ _ => Iff.rfl

section Authority

variable (lower : String → String) (config llm : ConfigView F)

theorem keys_resolvedValues : (resolvedValues lower config llm).map Prod.fst =
    BEHAVIOR_FIELDS ++ ["llm_provider", "llm_model", "embeddings_model_name",
      "embeddings_query_instruction", "query_rewrite_max_history_turns"] := by
  unfold resolvedValues
  rw [keys_updateFields, keys_updateFields, List.map_map, List.map_map]
  show LLM_FIELDS.foldl addKey (["llm_provider", "llm_model", "embeddings_model_name",
    "embeddings_query_instruction", "query_rewrite_max_history_turns"].foldl addKey
      (BEHAVIOR_FIELDS.map id)) = _
  decide

theorem scalar_derivedValues : ∀ field ∈ derivedValues lower config llm,
    IsScalar field.2 ∧ F.Printable field.2 := by
  have hturns : (Nat.toDigits 10 (maxHistoryTurns config).natAbs).length ≤ MAX_STR_DIGITS := by
    unfold maxHistoryTurns
    split
    · exact config.turns_short
    · next history hhistory =>
      split
      · exact config.turns_short
      · rcases min_choice config.queryRewriteMaxHistoryTurns history with h | h
        · rw [h]
          exact config.turns_short
        · rw [h]
          exact config.history_short history hhistory
  simp only [derivedValues, List.forall_mem_cons]
  exact ⟨⟨trivial, .str _⟩, ⟨trivial, .str _⟩, ⟨trivial, .str _⟩, ⟨trivial, .str _⟩,
    ⟨trivial, .int _ hturns⟩, List.forall_mem_nil _⟩

theorem scalar_resolvedValues : ∀ field ∈ resolvedValues lower config llm,
    IsScalar field.2 ∧ F.Printable field.2 := by
  intro field hfield
  rcases mem_updateFields hfield with h | h
  · obtain ⟨name, _, rfl⟩ := List.mem_map.mp h
    exact (llm.value name).property
  · rcases mem_updateFields h with h | h
    · exact scalar_derivedValues lower config llm field h
    · obtain ⟨name, _, rfl⟩ := List.mem_map.mp h
      exact (config.value name).property

theorem fst_dependencyIdentity (values : Fields) (entry : String × String) :
    (dependencyIdentity values entry).1 = entry.1 := by
  unfold dependencyIdentity
  split
  · rfl
  · split <;> rfl

theorem keys_behavior :
    (resolveExpertComposition lower config llm).authority.behavior.map Prod.fst =
      BEHAVIOR_NAMES := by
  unfold resolveExpertComposition BEHAVIOR_NAMES
  rw [map_fst_insertionSort, keys_resolvedValues]

theorem keys_dependencyIdentities :
    (resolveExpertComposition lower config llm).authority.dependencyIdentities.map Prod.fst =
      DEPENDENCY_NAMES := by
  unfold resolveExpertComposition DEPENDENCY_NAMES
  rw [map_fst_insertionSort, List.map_map]
  exact congrArg _ (List.map_congr_left fun entry _ => fst_dependencyIdentity _ entry)

theorem scalar_insertionSort {values : Fields}
    (h : ∀ field ∈ values, IsScalar field.2 ∧ F.Printable field.2) :
    ∀ field ∈ values.insertionSort fun a b => a.1 ≤ b.1,
      IsScalar field.2 ∧ F.Printable field.2 := by
  intro field hfield
  exact h field ((List.perm_insertionSort _ _).mem_iff.mp hfield)

theorem behavior_eq : (resolveExpertComposition lower config llm).authority.behavior =
    (resolvedValues lower config llm).insertionSort fun a b => a.1 ≤ b.1 := by
  simp only [resolveExpertComposition]

/-- What is resolved is complete. -/
theorem resolved_authority : Resolved F (resolveExpertComposition lower config llm).authority := by
  refine ⟨keys_behavior lower config llm, keys_dependencyIdentities lower config llm, ?_⟩
  rw [behavior_eq]
  exact scalar_insertionSort (scalar_resolvedValues lower config llm)

end Authority

/-! ## What the description tells -/

section Described

variable {composition other : ResolvedExpertComposition}

/-- A leaf whose value every resolved authority has. -/
def Leaf.known : Leaf → Bool
  | behavior name => name ∈ BEHAVIOR_FIELDS ++ ["llm_provider", "llm_model",
      "embeddings_model_name", "embeddings_query_instruction", "query_rewrite_max_history_turns"]
  | dependency name => name ∈ EXPERT_SELECTOR_REGISTRY.map Prod.fst

/-- The value at a leaf of a resolved authority. -/
def leafJson (composition : ResolvedExpertComposition) : Leaf → Json
  | .behavior name => (composition.behavior.lookup name).getD .null
  | .dependency name => ((composition.dependencyIdentities.lookup name).map Json.str).getD .null

theorem exists_lookup {β : Type} {fields : List (String × β)} {name : String}
    (h : name ∈ fields.map Prod.fst) : ∃ value, fields.lookup name = some value := by
  cases hlookup : fields.lookup name with
  | some value => exact ⟨value, rfl⟩
  | none =>
    obtain ⟨field, hfield, rfl⟩ := List.mem_map.mp h
    have := List.lookup_eq_none_iff.mp hlookup field hfield
    simp at this

theorem leafValue_known (h : Resolved F composition) {leaf : Leaf} (hleaf : leaf.known = true) :
    leafValue composition leaf = .ok (leafJson composition leaf) := by
  cases leaf with
  | behavior name =>
    have hname : name ∈ composition.behavior.map Prod.fst := by
      rw [h.behaviors]
      exact (List.perm_insertionSort _ _).mem_iff.mpr (of_decide_eq_true hleaf)
    obtain ⟨value, hvalue⟩ := exists_lookup hname
    simp [leafValue, leafJson, hvalue]
  | dependency name =>
    have hname : name ∈ composition.dependencyIdentities.map Prod.fst := by
      rw [h.dependencies]
      exact (List.perm_insertionSort _ _).mem_iff.mpr (of_decide_eq_true hleaf)
    obtain ⟨value, hvalue⟩ := exists_lookup hname
    simp [leafValue, leafJson, hvalue]

/-- The fields of the description of a resolved authority. -/
def descriptorFields (composition : ResolvedExpertComposition) : Fields :=
  ("schema", .str "expert-composition/v7") :: DESCRIPTOR_GROUPS.map fun group =>
    (group.1, .obj (group.2.map fun entry => (entry.1, leafJson composition entry.2)))

theorem known_groups : ∀ group ∈ DESCRIPTOR_GROUPS, ∀ entry ∈ group.2, entry.2.known = true := by
  decide

theorem describeGroup_known (h : Resolved F composition) {entries : List (String × Leaf)}
    (hentries : ∀ entry ∈ entries, entry.2.known = true) :
    describeGroup composition entries =
      .ok (entries.map fun entry => (entry.1, leafJson composition entry.2)) := by
  unfold describeGroup
  rw [mapM_eq_ok, List.forall₂_map_right_iff, List.forall₂_same]
  intro entry hentry
  rw [leafValue_known h (hentries entry hentry)]
  rfl

theorem descriptor_eq (h : Resolved F composition) :
    expertCompositionDescriptor composition = .ok (descriptorFields composition) := by
  have hgroups : DESCRIPTOR_GROUPS.mapM (fun group =>
      (fun fields => (group.1, Json.obj fields)) <$> describeGroup composition group.2) =
      Except.ok (DESCRIPTOR_GROUPS.map fun group =>
        (group.1, .obj (group.2.map fun entry => (entry.1, leafJson composition entry.2)))) := by
    rw [mapM_eq_ok, List.forall₂_map_right_iff, List.forall₂_same]
    intro group hgroup
    rw [describeGroup_known h (known_groups group hgroup)]
    rfl
  unfold expertCompositionDescriptor
  rw [hgroups]
  rfl

theorem scalar_leafJson (h : Resolved F composition) (leaf : Leaf) :
    IsScalar (leafJson composition leaf) ∧ F.Printable (leafJson composition leaf) := by
  cases leaf with
  | behavior name =>
    cases hlookup : composition.behavior.lookup name with
    | none =>
      simp only [leafJson, hlookup, Option.getD_none]
      exact ⟨trivial, .null⟩
    | some value =>
      simp only [leafJson, hlookup, Option.getD_some]
      obtain ⟨before, after, hsplit, _⟩ := List.lookup_eq_some_iff.mp hlookup
      exact h.scalar (name, value) (by rw [hsplit]; simp)
  | dependency name =>
    cases hlookup : composition.dependencyIdentities.lookup name with
    | none =>
      simp only [leafJson, hlookup, Option.map_none, Option.getD_none]
      exact ⟨trivial, .null⟩
    | some id =>
      simp only [leafJson, hlookup, Option.map_some, Option.getD_some]
      exact ⟨trivial, .str _⟩

theorem nodup_groups : ("schema" :: DESCRIPTOR_GROUPS.map Prod.fst).Nodup := by decide

theorem nodup_entries : ∀ group ∈ DESCRIPTOR_GROUPS, (group.2.map Prod.fst).Nodup := by decide

theorem printable_descriptor (h : Resolved F composition) :
    F.Printable (.obj (descriptorFields composition)) := by
  refine .obj _ ?_ ?_
  · unfold descriptorFields
    rw [List.map_cons, List.map_map]
    exact nodup_groups
  · unfold descriptorFields
    refine List.forall_mem_cons.mpr ⟨.str _, ?_⟩
    intro field hfield
    obtain ⟨group, hgroup, rfl⟩ := List.mem_map.mp hfield
    refine .obj _ ?_ ?_
    · rw [List.map_map]
      exact nodup_entries group hgroup
    · intro entry hentry
      obtain ⟨leaf, _, rfl⟩ := List.mem_map.mp hentry
      exact (scalar_leafJson h leaf.2).2

/-- Descriptions that are the same when sorted have the same at each leaf. -/
theorem leafJson_eq (h : Resolved F composition) (ho : Resolved F other)
    (hsame : sortKeys (.obj (descriptorFields composition)) =
      sortKeys (.obj (descriptorFields other)))
    {group : String × List (String × Leaf)} (hgroup : group ∈ DESCRIPTOR_GROUPS)
    {entry : String × Leaf} (hentry : entry ∈ group.2) :
    leafJson composition entry.2 = leafJson other entry.2 := by
  have hkeys : ∀ c : ResolvedExpertComposition, ((descriptorFields c).map Prod.fst).Nodup := by
    intro c
    unfold descriptorFields
    rw [List.map_cons, List.map_map]
    exact nodup_groups
  have hgroupKeys : ∀ c : ResolvedExpertComposition,
      ((group.2.map fun entry => (entry.1, leafJson c entry.2)).map Prod.fst).Nodup := by
    intro c
    rw [List.map_map]
    exact nodup_entries group hgroup
  have hlookup : ∀ c : ResolvedExpertComposition, (descriptorFields c).lookup group.1 =
      some (.obj (group.2.map fun entry => (entry.1, leafJson c entry.2))) := by
    intro c
    refine (lookup_eq_some_iff (hkeys c)).mpr ?_
    exact List.mem_cons_of_mem _ (List.mem_map.mpr ⟨group, hgroup, rfl⟩)
  have hfields := lookup_of_sortKeys_eq (hkeys composition) (hkeys other) hsame group.1
  rw [hlookup, hlookup, Option.map_some, Option.map_some, Option.some.injEq] at hfields
  have hleaf := lookup_of_sortKeys_eq (hgroupKeys composition) (hgroupKeys other) hfields entry.1
  have hfound : ∀ c : ResolvedExpertComposition,
      (group.2.map fun entry => (entry.1, leafJson c entry.2)).lookup entry.1 =
        some (leafJson c entry.2) := by
    intro c
    exact (lookup_eq_some_iff (hgroupKeys c)).mpr (List.mem_map.mpr ⟨entry, hentry, rfl⟩)
  rw [hfound, hfound, Option.map_some, Option.map_some, Option.some.injEq,
    sortKeys_scalar ⟨_, scalar_leafJson h entry.2⟩,
    sortKeys_scalar ⟨_, scalar_leafJson ho entry.2⟩] at hleaf
  exact hleaf

/-- Every behaviour and every dependency is described. -/
theorem covered_behavior : ∀ name ∈ BEHAVIOR_FIELDS ++ ["llm_provider", "llm_model",
    "embeddings_model_name", "embeddings_query_instruction", "query_rewrite_max_history_turns"],
    ∃ group ∈ DESCRIPTOR_GROUPS, ∃ entry ∈ group.2, entry.2 = .behavior name := by
  decide

theorem covered_dependency : ∀ name ∈ EXPERT_SELECTOR_REGISTRY.map Prod.fst,
    ∃ group ∈ DESCRIPTOR_GROUPS, ∃ entry ∈ group.2, entry.2 = .dependency name := by
  decide

theorem behavior_eq_of_leaves (h : Resolved F composition) (ho : Resolved F other)
    (hleaves : ∀ group ∈ DESCRIPTOR_GROUPS, ∀ entry ∈ group.2,
      leafJson composition entry.2 = leafJson other entry.2) :
    composition.behavior = other.behavior := by
  have hnodup : (composition.behavior.map Prod.fst).Nodup := h.behaviors ▸ nodup_BEHAVIOR_NAMES
  refine eq_of_lookup_eq (h.behaviors.trans ho.behaviors.symm) hnodup ?_
  intro name hname
  obtain ⟨value, hvalue⟩ := exists_lookup hname
  rw [h.behaviors, ← ho.behaviors] at hname
  obtain ⟨value', hvalue'⟩ := exists_lookup hname
  rw [ho.behaviors] at hname
  obtain ⟨group, hgroup, entry, hentry, hleaf⟩ :=
    covered_behavior name ((List.perm_insertionSort _ _).mem_iff.mp hname)
  have hsame := hleaves group hgroup entry hentry
  rw [hleaf] at hsame
  simpa [leafJson, hvalue, hvalue'] using hsame

theorem dependencies_eq_of_leaves (h : Resolved F composition) (ho : Resolved F other)
    (hleaves : ∀ group ∈ DESCRIPTOR_GROUPS, ∀ entry ∈ group.2,
      leafJson composition entry.2 = leafJson other entry.2) :
    composition.dependencyIdentities = other.dependencyIdentities := by
  have hnodup : (composition.dependencyIdentities.map Prod.fst).Nodup :=
    h.dependencies ▸ nodup_DEPENDENCY_NAMES
  refine eq_of_lookup_eq (h.dependencies.trans ho.dependencies.symm) hnodup ?_
  intro name hname
  obtain ⟨id, hid⟩ := exists_lookup hname
  rw [h.dependencies, ← ho.dependencies] at hname
  obtain ⟨id', hid'⟩ := exists_lookup hname
  rw [ho.dependencies] at hname
  obtain ⟨group, hgroup, entry, hentry, hleaf⟩ :=
    covered_dependency name ((List.perm_insertionSort _ _).mem_iff.mp hname)
  have hsame := hleaves group hgroup entry hentry
  rw [hleaf] at hsame
  simpa [leafJson, hid, hid'] using hsame

theorem fingerprintPayload_eq (h : Resolved F composition) :
    fingerprintPayload composition F =
      .ok (JsonStyle.dumps { itemBlanks := 0, keyBlanks := 0 } F
        (sortKeys (.obj (descriptorFields composition)))) := by
  unfold fingerprintPayload
  rw [descriptor_eq h]
  rfl

end Described

/-- What the fingerprint is the digest of tells the behaviour and the
dependencies of a resolved composition, and nothing else: neither the mode nor
anything of the plumbing. -/
theorem fingerprintPayload_eq_iff (lower : String → String)
    (config llm config' llm' : ConfigView F) :
    ∃ text text',
      fingerprintPayload (resolveExpertComposition lower config llm).authority F = .ok text ∧
      fingerprintPayload (resolveExpertComposition lower config' llm').authority F = .ok text' ∧
      (text = text' ↔
        (resolveExpertComposition lower config llm).authority.behavior =
            (resolveExpertComposition lower config' llm').authority.behavior ∧
          (resolveExpertComposition lower config llm).authority.dependencyIdentities =
            (resolveExpertComposition lower config' llm').authority.dependencyIdentities) := by
  have h := resolved_authority lower config llm
  have h' := resolved_authority lower config' llm'
  refine ⟨_, _, fingerprintPayload_eq h, fingerprintPayload_eq h', ?_⟩
  rw [canonical_eq_iff _ (printable_descriptor h) (printable_descriptor h')]
  constructor
  · intro hsame
    have hleaves : ∀ group ∈ DESCRIPTOR_GROUPS, ∀ entry ∈ group.2,
        leafJson _ entry.2 = leafJson _ entry.2 :=
      fun group hgroup entry hentry => leafJson_eq h h' hsame hgroup hentry
    exact ⟨behavior_eq_of_leaves h h' hleaves, dependencies_eq_of_leaves h h' hleaves⟩
  · intro hequal
    have hleaf : leafJson (resolveExpertComposition lower config llm).authority =
        leafJson (resolveExpertComposition lower config' llm').authority := by
      funext leaf
      unfold leafJson
      rw [hequal.1, hequal.2]
    unfold descriptorFields
    rw [hleaf]

end VirtualContributor.Plugins
