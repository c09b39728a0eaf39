import VirtualContributor.Graph.RetrieveNode
import VirtualContributor.Graph.WellFormed

/-!
# Templates of retrieve nodes

A retrieve node of an accepted graph replaces the variables of its templates
literally in every state exactly when the fields of its query template are
neutral (`substitutes_literally_iff`).  The checks allow the collection
template nothing but the plain `{bok_id}`, and the query template any
conversion and any format spec.
-/

namespace VirtualContributor.Graph

open Lib Lib.FormatString

/-- In a state, the node function asks the retriever with the templates whose
variables are replaced by the texts of their values, none of which is read as
a format spec, or it raises the declared exception. -/
def SubstitutesLiterally (T : FormatText) (node : Node) (state : State Json) : Prop :=
  ∃ templates, nodeTemplates node = .ok templates ∧
    match retrieveRequest T node templates state with
    | .ok request =>
      request.collection = literalFill (stateText T state) templates.collection ∧
        request.query = literalFill (stateText T state) templates.query ∧
          ∀ field ∈ templateFields templates.collection ++ templateFields templates.query,
            field.expands = false
    | .error (.raised (.promptGraphConfigError _)) => True
    | .error _ => False

section

variable {T : FormatText} {node : Node} {state : State Json}

/-! ## Values -/

/-- The texts of some variables. -/
def textsOf (T : FormatText) (state : State Json) (vars : List String) : List (String × String) :=
  vars.map fun var => (var, (stateText T state var).getD "")

/-- Variables that have texts are read. -/
theorem variableTexts_of_some {vars : List String}
    (h : ∀ var ∈ vars, (stateText T state var).isSome = true) :
    vars.mapM (variableText T node state) = .ok (textsOf T state vars) := by
  rw [mapM_eq_ok]
  unfold textsOf
  rw [List.forall₂_map_right_iff, List.forall₂_same]
  intro var hvar
  obtain ⟨text, htext⟩ := Option.isSome_iff_exists.mp (h var hvar)
  unfold variableText
  rw [htext]
  rfl

/-- A variable that has no text raises the declared exception. -/
theorem variableTexts_of_missing {vars : List String}
    (h : ¬ ∀ var ∈ vars, (stateText T state var).isSome = true) :
    ∃ message, vars.mapM (variableText T node state) =
      .error (.raised (.promptGraphConfigError message)) := by
  induction vars with
  | nil => exact absurd (List.forall_mem_nil _) h
  | cons var vars ih =>
    rw [List.mapM_cons]
    cases hvar : stateText T state var with
    | none =>
      have hmissing : ∃ message, variableText T node state var =
          .error (.raised (.promptGraphConfigError message)) := by
        unfold variableText
        rw [hvar]
        exact ⟨_, rfl⟩
      obtain ⟨message, hmissing⟩ := hmissing
      rw [hmissing]
      exact ⟨message, rfl⟩
    | some text =>
      have hfound : variableText T node state var = .ok (var, text) := by
        unfold variableText
        rw [hvar]
      have hrest : ¬ ∀ var ∈ vars, (stateText T state var).isSome = true := by
        intro hall
        apply h
        rw [List.forall_mem_cons, hvar]
        exact ⟨rfl, hall⟩
      obtain ⟨message, hmissing⟩ := ih hrest
      rw [hfound, hmissing]
      exact ⟨message, rfl⟩

theorem lookup_map_pair {f : String → String} {vars : List String} {var : String}
    (h : var ∈ vars) : (vars.map fun var => (var, f var)).lookup var = some (f var) := by
  induction vars with
  | nil => exact absurd h List.not_mem_nil
  | cons first vars ih =>
    rw [List.map_cons, List.lookup_cons]
    by_cases hsame : var = first
    · rw [hsame, beq_self_eq_true]
    · have hne : (var == first) = false := beq_eq_false_iff_ne.mpr hsame
      rw [hne]
      exact ih ((List.mem_cons.mp h).resolve_left hsame)

/-! ## Templates -/

theorem literalFill_congr {values values' : String → Option String} {text : String}
    (h : ∀ field ∈ templateFields text, values field.fieldName = values' field.fieldName) :
    literalFill values text = literalFill values' text := by
  unfold literalFill
  congr 1
  apply List.flatMap_congr
  intro piece hpiece
  unfold fillPiece
  cases hsome : piece.field with
  | none => rfl
  | some field =>
    dsimp only
    rw [h field (mem_templateFields hpiece hsome)]

/-- The templates of a retrieve node that was accepted. -/
structure AcceptedTemplates (T : FormatText) (node : Node) (collection query : String) : Prop where
  collection_eq : node.collectionTemplate = .str collection
  query_eq : node.queryTemplate = .str query
  plain : PlainBokId collection
  template : IsTemplate T.toPythonText query

theorem AcceptedAs.templates {definition : Fields} {nodes : Nodes} {entries : List EdgeEntry}
    (h : AcceptedAs T.toPythonText definition nodes entries) (hmem : node ∈ nodes.values)
    (htype : node.type = .str "retrieve") : ∃ collection query,
      AcceptedTemplates T node collection query := by
  obtain ⟨entry, hentry, rfl⟩ := List.mem_map.mp hmem
  obtain ⟨_, fields, rfl, hsound, _, hnode⟩ := h.nodeOf hentry
  rw [hnode] at htype ⊢
  obtain ⟨_, _, ⟨collection, hcollection, _, hplain⟩, query, hquery, _, htemplate⟩ :=
    hsound.retrieve htype
  exact ⟨collection, query, hcollection, hquery, hplain, htemplate⟩

variable {collection query : String}

/-- The variables of the two templates. -/
def variablesOf (collection query : String) : List String :=
  (templateVars (parse collection).pieces ++ templateVars (parse query).pieces).dedup

theorem nodeTemplates_eq (h : AcceptedTemplates T node collection query) :
    nodeTemplates node = .ok ⟨collection, query, variablesOf collection query⟩ := by
  have hparse : ∀ text, (parse text).error = none →
      parseTemplate (.str text) = .ok (text, (parse text).pieces) := by
    intro text herror
    unfold parseTemplate
    dsimp only
    rw [herror]
  unfold nodeTemplates
  rw [h.collection_eq, h.query_eq, hparse collection h.plain.2, hparse query h.template.2]
  rfl

theorem isidentifier_of_mem {text : String} (h : IsTemplate T.toPythonText text)
    {field : Replacement} (hfield : field ∈ templateFields text) :
    T.isidentifier field.fieldName = true := by
  obtain ⟨piece, hpiece, hsome⟩ := List.mem_filterMap.mp hfield
  exact h.1 piece hpiece field hsome

/-- A field of a template is among its variables. -/
theorem mem_templateVars {text : String} (h : IsTemplate T.toPythonText text)
    {field : Replacement} (hfield : field ∈ templateFields text) :
    field.fieldName ∈ templateVars (parse text).pieces := by
  unfold templateVars
  refine List.mem_filter.mpr ⟨List.mem_map_of_mem hfield, decide_eq_true ?_⟩
  intro hempty
  have hname := isidentifier_of_mem h hfield
  rw [hempty, T.isidentifier_empty] at hname
  exact Bool.false_ne_true hname

/-- The collection template has neutral fields. -/
theorem neutral_of_plain (h : PlainBokId collection) {field : Replacement}
    (hfield : field ∈ templateFields collection) : field.Neutral T := by
  obtain ⟨piece, hpiece, hsome⟩ := List.mem_filterMap.mp hfield
  rw [h.1 piece hpiece field hsome]
  exact ⟨.inl rfl, rfl, {}, parseSpec_nil, rfl, rfl, rfl⟩

/-! ## The request -/

/-- The request, when every variable has a text. -/
theorem retrieveRequest_of_texts {templates : Templates} {values : List (String × String)}
    (h : templates.vars.mapM (variableText T node state) = .ok values) :
    retrieveRequest T node templates state =
      renderTemplate T values templates.collection >>= fun collection =>
        renderTemplate T values templates.query >>= fun query =>
          .ok { collection, query, nResults := node.nResults } := by
  unfold retrieveRequest
  rw [h]
  rfl

theorem renderTemplate_eq_ok {values : List (String × String)} {text rendered : String} :
    renderTemplate T values text = .ok rendered ↔
      formatMap T (fun var => values.lookup var) text = .ok rendered := by
  unfold renderTemplate
  split
  · rename_i hrendered
    rw [hrendered, Except.ok.injEq, Except.ok.injEq]
  · rename_i herror
    rw [herror]
    exact iff_of_false nofun nofun

/-- Where its variables have texts, a template finds them. -/
theorem plainly_of_texts {text : String} {vars : List String}
    (h : IsTemplate T.toPythonText text)
    (hvars : ∀ field ∈ templateFields text, field.fieldName ∈ vars)
    (hsome : ∀ var ∈ vars, (stateText T state var).isSome = true) {field : Replacement}
    (hfield : field ∈ templateFields text) (hfixed : field.expands = false) :
    Plainly T (fun var => (textsOf T state vars).lookup var) field ∧
      (textsOf T state vars).lookup field.fieldName = stateText T state field.fieldName := by
  have hmem := hvars field hfield
  obtain ⟨value, hvalue⟩ := Option.isSome_iff_exists.mp (hsome _ hmem)
  have hlookup : (textsOf T state vars).lookup field.fieldName = some value := by
    unfold textsOf
    rw [lookup_map_pair hmem, hvalue]
    rfl
  refine ⟨⟨isidentifier_of_mem h hfield, hfixed, ?_⟩, ?_⟩
  · rw [hlookup]
    rfl
  · rw [hlookup, hvalue]

theorem mem_variablesOf (h : AcceptedTemplates T node collection query) :
    (∀ field ∈ templateFields collection, field.fieldName ∈ variablesOf collection query) ∧
      ∀ field ∈ templateFields query, field.fieldName ∈ variablesOf collection query := by
  unfold variablesOf
  constructor
  · intro field hfield
    exact List.mem_dedup.mpr
      (List.mem_append_left _ (mem_templateVars (T := T) h.plain.isTemplate hfield))
  · intro field hfield
    exact List.mem_dedup.mpr (List.mem_append_right _ (mem_templateVars h.template hfield))

/-- A template of neutral fields is filled literally from the state. -/
theorem renderTemplate_of_neutral {text : String} {vars : List String}
    (h : IsTemplate T.toPythonText text)
    (hvars : ∀ field ∈ templateFields text, field.fieldName ∈ vars)
    (hsome : ∀ var ∈ vars, (stateText T state var).isSome = true)
    (hneutral : ∀ field ∈ templateFields text, field.Neutral T) :
    renderTemplate T (textsOf T state vars) text =
      .ok (literalFill (stateText T state) text) := by
  have hplain := fun field hfield =>
    plainly_of_texts h hvars hsome hfield (hneutral field hfield).fixed
  have hvalues : literalFill (fun var => (textsOf T state vars).lookup var) text =
      literalFill (stateText T state) text :=
    literalFill_congr fun field hfield => (hplain field hfield).2
  rw [renderTemplate_eq_ok, ← hvalues]
  exact formatMap_of_neutral h.2 fun field hfield =>
    ⟨(hplain field hfield).1, hneutral field hfield⟩

/-- A node whose query template has neutral fields replaces literally. -/
theorem substitutesLiterally_of_neutral (h : AcceptedTemplates T node collection query)
    (hneutral : ∀ field ∈ templateFields query, field.Neutral T) (state : State Json) :
    SubstitutesLiterally T node state := by
  refine ⟨_, nodeTemplates_eq h, ?_⟩
  obtain ⟨hcollection, hquery⟩ := mem_variablesOf h
  by_cases hsome : ∀ var ∈ variablesOf collection query, (stateText T state var).isSome = true
  · have hcollectionText := renderTemplate_of_neutral h.plain.isTemplate hcollection hsome
      fun field hfield => neutral_of_plain h.plain hfield
    have hqueryText := renderTemplate_of_neutral h.template hquery hsome hneutral
    have htexts := @retrieveRequest_of_texts T node state
      ⟨collection, query, variablesOf collection query⟩ _ (variableTexts_of_some hsome)
    rw [htexts]
    dsimp only
    rw [hcollectionText, hqueryText]
    refine ⟨rfl, rfl, fun field hfield => ?_⟩
    cases List.mem_append.mp hfield with
    | inl hfield => exact (neutral_of_plain (T := T) h.plain hfield).fixed
    | inr hfield => exact (hneutral field hfield).fixed
  · obtain ⟨message, hmissing⟩ := @variableTexts_of_missing T node state _ hsome
    unfold retrieveRequest
    rw [hmissing]
    trivial

/-- The state that has one text for every variable. -/
def constantState (value : String) : State Json := .dict fun _ => some (.str value)

theorem stateText_constantState (value var : String) :
    stateText T (constantState value) var = some value := rfl

/-- What the retriever is asked then is the query template, filled literally. -/
theorem query_of_substitutes {templates : Templates} {request : Request}
    (h : SubstitutesLiterally T node state) (htemplates : nodeTemplates node = .ok templates)
    (hrequest : retrieveRequest T node templates state = .ok request) :
    request.query = literalFill (stateText T state) templates.query := by
  obtain ⟨found, hfound, hmatch⟩ := h
  obtain rfl := Except.ok.inj (htemplates.symm.trans hfound)
  rw [hrequest] at hmatch
  exact hmatch.2.1

theorem renderTemplate_cases (values : List (String × String)) (text : String) :
    (∃ rendered, renderTemplate T values text = .ok rendered) ∨
      ∃ error, renderTemplate T values text = .error (.render error) := by
  unfold renderTemplate
  split
  · exact .inl ⟨_, rfl⟩
  · exact .inr ⟨_, rfl⟩

/-- A node that replaces literally where every variable has a text fills its
query template. -/
theorem renderTemplate_of_substitutes (h : AcceptedTemplates T node collection query)
    (hsome : ∀ var ∈ variablesOf collection query, (stateText T state var).isSome = true)
    (hsubstitutes : SubstitutesLiterally T node state) :
    (∀ field ∈ templateFields query, field.expands = false) ∧
      renderTemplate T (textsOf T state (variablesOf collection query)) query =
        .ok (literalFill (stateText T state) query) := by
  obtain ⟨templates, htemplates, hrequest⟩ := hsubstitutes
  obtain rfl := Except.ok.inj ((nodeTemplates_eq h).symm.trans htemplates)
  have htexts := @retrieveRequest_of_texts T node state
    ⟨collection, query, variablesOf collection query⟩ _ (variableTexts_of_some hsome)
  rw [htexts] at hrequest
  dsimp only at hrequest
  obtain ⟨collectionText, hcollection⟩ | ⟨error, hcollection⟩ :=
    renderTemplate_cases (T := T) (textsOf T state (variablesOf collection query)) collection
  · obtain ⟨queryText, hquery⟩ | ⟨error, hquery⟩ :=
      renderTemplate_cases (T := T) (textsOf T state (variablesOf collection query)) query
    · rw [hcollection, hquery] at hrequest
      obtain ⟨-, hliteral, hfixed⟩ := hrequest
      refine ⟨fun field hfield => hfixed field (List.mem_append_right _ hfield), ?_⟩
      rw [hquery]
      exact congrArg Except.ok hliteral
    · rw [hcollection, hquery] at hrequest
      exact hrequest.elim
  · rw [hcollection] at hrequest
    exact hrequest.elim

/-- A node that replaces literally in every state has neutral fields in its
query template. -/
theorem neutral_of_substitutes (h : AcceptedTemplates T node collection query)
    (hsubstitutes : ∀ state, SubstitutesLiterally T node state) :
    ∀ field ∈ templateFields query, field.Neutral T := by
  have hrender := fun value => renderTemplate_of_substitutes h
    (fun var _ => congrArg Option.isSome (stateText_constantState value var))
    (hsubstitutes (constantState value))
  have hfixed := (hrender "").1
  apply neutral_of_formatMap h.template.2 hfixed
  intro value
  have hplain := fun field hfield => plainly_of_texts h.template (mem_variablesOf h).2
    (fun var _ => congrArg Option.isSome (stateText_constantState (T := T) value var)) hfield
    (hfixed field hfield)
  have hvalues : literalFill
      (fun var => (textsOf T (constantState value) (variablesOf collection query)).lookup var)
      query = literalFill (stateText T (constantState value)) query :=
    literalFill_congr fun field hfield => (hplain field hfield).2
  refine ⟨_, fun field hfield => ⟨(hplain field hfield).1, (hplain field hfield).2⟩, ?_⟩
  rw [hvalues]
  exact renderTemplate_eq_ok.mp (hrender value).2

end

/-- A retrieve node of an accepted graph replaces the variables literally in
every state exactly when the fields of its query template are neutral. -/
theorem substitutes_literally_iff {σ : Type} (T : FormatText)
    (buildStateModel : Json → Except Raised σ) (definition : Fields) (graph : PromptGraph σ)
    (h : fromDefinition T.toPythonText buildStateModel definition = .ok graph) (node : Node)
    (hmem : node ∈ graph.nodes.values) (htype : node.type = .str "retrieve") :
    (∀ state, SubstitutesLiterally T node state) ↔
      ∀ query, node.queryTemplate = .str query →
        ∀ field ∈ templateFields query, field.Neutral T := by
  obtain ⟨entries, haccepted, -, -⟩ := acceptedAs_of_ok h
  obtain ⟨collection, query, htemplates⟩ := haccepted.templates hmem htype
  constructor
  · intro hsubstitutes query' hquery
    obtain rfl := Json.str.inj (htemplates.query_eq.symm.trans hquery)
    exact neutral_of_substitutes htemplates hsubstitutes
  · intro hneutral
    exact substitutesLiterally_of_neutral htemplates (hneutral query htemplates.query_eq)

theorem quoted_ne_empty (text : String) : "'" ++ text ++ "'" ≠ "" := by
  intro h
  have hlength := congrArg String.length h
  rw [String.length_append, String.length_append] at hlength
  simp at hlength

/-- A character that begins an ASCII identifier is no digit. -/
theorem isDigit_of_start {c : Char}
    (h : (if c.toNat < 128 then c.isAlpha || c = '_' else false) = true) : c.isDigit = false := by
  have h0 : '0'.val.toNat = 48 := rfl
  have h9 : '9'.val.toNat = 57 := rfl
  have hA : 'A'.val.toNat = 65 := rfl
  have ha : 'a'.val.toNat = 97 := rfl
  have hunderscore : '_'.toNat = 95 := rfl
  rw [Bool.eq_false_iff]
  intro hdigit
  unfold Char.isDigit at hdigit
  simp only [ge_iff_le, Bool.and_eq_true, decide_eq_true_eq, UInt32.le_iff_toNat_le] at hdigit
  split at h
  · unfold Char.isAlpha Char.isUpper Char.isLower at h
    simp only [ge_iff_le, Bool.or_eq_true, Bool.and_eq_true, decide_eq_true_eq,
      UInt32.le_iff_toNat_le] at h
    obtain (hupper | hlower) | rfl := h
    · omega
    · omega
    · exact absurd hdigit (by decide)
  · exact Bool.false_ne_true h

/-- Texts that know no character beyond ASCII. -/
def asciiFormat : FormatText where
  toPythonText := { asciiText with
    repr := fun value =>
      match value with
      | .str text => "'" ++ text ++ "'"
      | _ => "" }
  ascii text := "'" ++ text ++ "'"
  decimal c := if c.isDigit then some (c.toNat - '0'.toNat) else none
  formatPath _ _ _ _ := none
  repr_nonempty text h := quoted_ne_empty text h
  ascii_nonempty text h := quoted_ne_empty text h
  decimal_start c hc := if_neg (by rw [isDigit_of_start hc]; exact Bool.false_ne_true)

/-- A node whose query template takes a format spec from the state. -/
def specFields : Fields :=
  [("name", .str "find"), ("type", .str "retrieve"),
    ("collection_template", .str "\x7bbok_id\x7d"),
    ("query_template", .str "\x7bw\x7d\x7bq:\x7bw\x7d\x7d")]

def specDefinition : Fields := [("nodes", .arr [.obj specFields])]

def specNode : Node := .ofFields specFields

def specGraph : PromptGraph Unit where
  nodes := OrderedDict.empty.set (.text "find") specNode
  edges := []
  conditionalEdges := []
  startNode := .str "START"
  endNode := .str "END"
  stateModel := none

theorem fromDefinition_spec :
    fromDefinition asciiFormat.toPythonText (fun _ => .ok ()) specDefinition = .ok specGraph := by
  rfl

/-- The text of one variable is the format spec of another. -/
def specState : State Json := .dict fun key =>
  if key = .text "w" then some (.str ".1")
  else if key = .text "q" then some (.str "ab")
  else if key = .text "bok_id" then some (.str "b")
  else none

/-- A text of the state is read as a format spec. -/
theorem state_text_as_format_spec :
    ¬ ∀ (T : FormatText) (definition : Fields) (graph : PromptGraph Unit) (node : Node)
        (state : State Json),
        fromDefinition T.toPythonText (fun _ => .ok ()) definition = .ok graph →
          node ∈ graph.nodes.values → node.type = .str "retrieve" →
            SubstitutesLiterally T node state := by
  intro hliteral
  have hsubstitutes := hliteral asciiFormat specDefinition specGraph specNode specState
    fromDefinition_spec (List.mem_singleton_self _) rfl
  have htemplates : nodeTemplates specNode =
      .ok ⟨"\x7bbok_id\x7d", "\x7bw\x7d\x7bq:\x7bw\x7d\x7d", ["bok_id", "w", "q"]⟩ := by
    rfl
  have hasked : retrieveRequest asciiFormat specNode
      ⟨"\x7bbok_id\x7d", "\x7bw\x7d\x7bq:\x7bw\x7d\x7d", ["bok_id", "w", "q"]⟩ specState =
        .ok ⟨"b", ".1a", .int 10⟩ := by
    rfl
  have hquery := query_of_substitutes hsubstitutes htemplates hasked
  revert hquery
  decide +kernel

theorem substitutes_literally_iff_spec :
    (∀ state, SubstitutesLiterally asciiFormat specNode state) ↔
      ∀ query, specNode.queryTemplate = .str query →
        ∀ field ∈ templateFields query, field.Neutral asciiFormat :=
  substitutes_literally_iff asciiFormat (fun _ => .ok ()) specDefinition specGraph
    fromDefinition_spec specNode (List.mem_singleton_self _) rfl

end VirtualContributor.Graph
