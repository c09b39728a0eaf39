import VirtualContributor.Graph.SchemaCopies

/-!
# What compiling a definition writes to it

The loop over the defaults of a state model writes to the dictionaries that
it finds as the properties of the normalised schema.  Most of them are new,
but `_normalize_schema(value) or value` keeps an empty dictionary as it is, so
the loop writes into the definition where a property of the state is an empty
object.  `fromDefinition_unchanged_iff` says that this is the one way in which
`from_definition` changes its definition.

There are five groups.

* `Run` as a sequence of steps.
* The loop over the defaults.
* The properties that a normalised schema has.
* The writes of a whole run, and the places they go to.
* The definition after them.
-/

namespace VirtualContributor.Graph

open Lib

/-! ## Steps -/

namespace Run

variable {α β : Type}

@[simp] theorem pure_writes (a : α) : (pure a : Run α).writes = [] := rfl

@[simp] theorem ofExcept_writes (result : Except Raised α) : (ofExcept result).writes = [] := rfl

@[simp] theorem ofExcept_result (result : Except Raised α) :
    (ofExcept result).result = result := rfl

@[simp] theorem attributeError_writes (value : Placed) (name : String) :
    (attributeError value name : Run α).writes = [] := rfl

theorem writes_bind_of_ok {step : Run α} {next : α → Run β} {a : α} (h : step.result = .ok a) :
    (step >>= next).writes = step.writes ++ (next a).writes := by
  change (step.bind next).writes = _
  rw [bind, h]

theorem writes_bind_of_error {step : Run α} {next : α → Run β} {e : Raised}
    (h : step.result = .error e) : (step >>= next).writes = step.writes := by
  change (step.bind next).writes = _
  rw [bind, h]

theorem result_bind (step : Run α) (next : α → Run β) :
    (step >>= next).result = step.result >>= fun a => (next a).result := by
  change (step.bind next).result = _
  rw [bind]
  cases step.result <;> rfl

@[simp] theorem writes_map (f : α → β) (step : Run α) : (f <$> step).writes = step.writes := by
  change (step.bind fun a => pure (f a)).writes = _
  rw [bind]
  cases step.result <;> simp

theorem result_map (f : α → β) (step : Run α) : (f <$> step).result = f <$> step.result :=
  result_bind step fun a => pure (f a)

end Run

/-! ## The loop -/

/-- A dictionary that is not one of the definition. -/
def IsNew (value : Placed) : Prop := ∃ fields, value = .obj none fields

theorem exists_addDefault_ok {propDef : Placed} (h : propDef.isObj = true) :
    ∃ value, (addDefault propDef).result = .ok value := by
  cases propDef with
  | obj origin fields =>
    unfold addDefault
    dsimp only
    split <;> split <;> exact ⟨_, rfl⟩
  | null | bool | int | float | str | arr => simp [Placed.isObj] at h

theorem addDefault_of_not_obj {propDef : Placed} (h : propDef.isObj = false) :
    addDefault propDef = .attributeError propDef "get" := by
  cases propDef with
  | obj origin fields => simp [Placed.isObj] at h
  | null | bool | int | float | str | arr => rfl

theorem IsNew.writes_addDefault {propDef : Placed} (h : IsNew propDef) :
    (addDefault propDef).writes = [] := by
  obtain ⟨fields, rfl⟩ := h
  unfold addDefault
  dsimp only
  split <;> split <;> rfl

theorem writes_addDefault_empty (place : Place) :
    (addDefault (.obj (some place) [])).writes = [⟨place, "default", .null⟩] := rfl

theorem writes_addDefaults_cons (prop : Hashed × Placed) (props : PlacedFields) :
    (addDefaults (prop :: props)).writes = (addDefault prop.2).writes ++
      if prop.2.isObj then (addDefaults props).writes else [] := by
  rw [addDefaults]
  cases hobj : prop.2.isObj with
  | false =>
    rw [addDefault_of_not_obj hobj]
    rw [Run.writes_bind_of_error rfl]
    simp
  | true =>
    obtain ⟨value, hvalue⟩ := exists_addDefault_ok hobj
    rw [Run.writes_bind_of_ok hvalue, if_pos rfl]
    congr 1
    exact Run.writes_map (fun props => (prop.1, value) :: props) (addDefaults props)

/-- A property of the definition at the head of the loop, after objects only. -/
def Reached (props : PlacedFields) (propDef : Placed) : Prop :=
  ∃ before name after, props = before ++ (name, propDef) :: after ∧
    ∀ prop ∈ before, prop.2.isObj = true

theorem reached_cons {prop : Hashed × Placed} {props : PlacedFields} {propDef : Placed} :
    Reached (prop :: props) propDef ↔
      prop.2 = propDef ∨ prop.2.isObj = true ∧ Reached props propDef := by
  constructor
  · intro h
    obtain ⟨before, name, after, heq, hbefore⟩ := h
    cases before with
    | nil =>
      obtain ⟨rfl, rfl⟩ := List.cons.inj heq
      exact .inl rfl
    | cons first before =>
      obtain ⟨rfl, rfl⟩ := List.cons.inj heq
      rw [List.forall_mem_cons] at hbefore
      exact .inr ⟨hbefore.1, before, name, after, rfl, hbefore.2⟩
  · intro h
    obtain rfl | ⟨hobj, before, name, after, rfl, hbefore⟩ := h
    · exact ⟨[], prop.1, props, rfl, by simp⟩
    · refine ⟨prop :: before, name, after, rfl, ?_⟩
      rw [List.forall_mem_cons]
      exact ⟨hobj, hbefore⟩

/-- The writes of the loop are the writes of the properties it reaches. -/
theorem mem_writes_addDefaults {props : PlacedFields} {write : Write} :
    write ∈ (addDefaults props).writes ↔
      ∃ propDef, Reached props propDef ∧ write ∈ (addDefault propDef).writes := by
  induction props with
  | nil =>
    constructor
    · intro h
      simp [addDefaults] at h
    · intro h
      obtain ⟨propDef, ⟨before, name, after, heq, _⟩, _⟩ := h
      simp at heq
  | cons prop props ih =>
    rw [writes_addDefaults_cons, List.mem_append]
    simp only [reached_cons]
    constructor
    · intro h
      cases h with
      | inl h => exact ⟨prop.2, .inl rfl, h⟩
      | inr h =>
        split at h
        · rename_i hobj
          obtain ⟨propDef, hreached, hwrite⟩ := ih.mp h
          exact ⟨propDef, .inr ⟨hobj, hreached⟩, hwrite⟩
        · simp at h
    · intro h
      obtain ⟨propDef, rfl | ⟨hobj, hreached⟩, hwrite⟩ := h
      · exact .inl hwrite
      · right
        rw [if_pos hobj]
        exact ih.mpr ⟨propDef, hreached, hwrite⟩

/-! ## The properties of a normalised schema -/

/-- What `_normalize_schema(value) or value` returns: a new dictionary, or the
value itself when it is no dictionary or an empty one. -/
theorem normalizeOr_cases {value result : Placed}
    (h : normalizeOr normalizeSchema value = .ok result) :
    IsNew result ∧ (∃ origin field fields, value = .obj origin (field :: fields)) ∨
      result = value ∧ (value.isObj = false ∨ ∃ origin, value = .obj origin []) := by
  obtain ⟨normalised, hnormalised, hresult⟩ := normalizeOr_eq_ok.mp h
  cases hobj : value.isObj with
  | false =>
    rw [normalizeSchema_of_not_obj hobj] at hnormalised
    obtain rfl := Except.ok.inj hnormalised
    right
    refine ⟨?_, .inl rfl⟩
    rw [← hresult]
    split <;> rfl
  | true =>
    cases value with
    | obj origin fields =>
      obtain ⟨fields', _, rfl, _, _, hempty⟩ := normalizeSchema_obj hnormalised
      cases fields with
      | nil =>
        obtain rfl := hempty.mpr rfl
        exact .inr ⟨by simpa using hresult.symm, .inr ⟨origin, rfl⟩⟩
      | cons field fields =>
        have hne : fields' ≠ [] := fun h => by simpa using hempty.mp h
        left
        refine ⟨⟨fields', ?_⟩, origin, field, fields, rfl⟩
        simpa [hne] using hresult.symm
    | null | bool | int | float | str | arr => simp [Placed.isObj] at hobj

theorem IsNew.isObj {value : Placed} (h : IsNew value) : value.isObj = true := by
  obtain ⟨fields, rfl⟩ := h
  rfl

/-- One property of an object of properties, before and after the normalization. -/
theorem normalizeProperty_writes {prop prop' : Hashed × Placed} {write : Write}
    (h : normalizeProperty normalizeSchema prop = .ok prop') :
    prop'.2.isObj = prop.2.isObj ∧ (write ∈ (addDefault prop'.2).writes ↔
      ∃ place, prop.2 = .obj (some place) [] ∧ write = ⟨place, "default", .null⟩) := by
  obtain ⟨propDef, hpropDef, hprop'⟩ := bind_eq_ok.mp h
  obtain rfl := Except.ok.inj hprop'
  dsimp only
  obtain ⟨hnew, origin, field, fields, hvalue⟩ | ⟨rfl, hvalue⟩ := normalizeOr_cases hpropDef
  · rw [hnew.isObj, hvalue, hnew.writes_addDefault]
    exact ⟨rfl, by simp⟩
  · refine ⟨rfl, ?_⟩
    obtain hobj | ⟨origin, hvalue⟩ := hvalue
    · rw [addDefault_of_not_obj hobj]
      constructor
      · intro hwrite
        simp at hwrite
      · intro hwrite
        obtain ⟨place, hplace, _⟩ := hwrite
        rw [hplace] at hobj
        simp [Placed.isObj] at hobj
    · rw [hvalue]
      cases origin with
      | none => simp [IsNew.writes_addDefault ⟨[], rfl⟩]
      | some place => simp [writes_addDefault_empty]

theorem normalizedProperties_writes {props props' : PlacedFields} {write : Write}
    (h : List.Forall₂ (fun prop prop' => normalizeProperty normalizeSchema prop = .ok prop')
      props props') :
    write ∈ (addDefaults props').writes ↔
      ∃ place, Reached props (.obj (some place) []) ∧ write = ⟨place, "default", .null⟩ := by
  rw [mem_writes_addDefaults]
  induction h with
  | nil =>
    constructor
    · intro h
      obtain ⟨_, ⟨before, _, after, heq, _⟩, _⟩ := h
      simp at heq
    · intro h
      obtain ⟨_, ⟨before, _, after, heq, _⟩, _⟩ := h
      simp at heq
  | cons hprop _ ih =>
    obtain ⟨hobj, hwrites⟩ := @normalizeProperty_writes _ _ write hprop
    simp only [reached_cons, hobj]
    constructor
    · intro h
      obtain ⟨propDef, rfl | ⟨hisObj, hreached⟩, hwrite⟩ := h
      · obtain ⟨place, hplace, rfl⟩ := hwrites.mp hwrite
        exact ⟨place, .inl hplace, rfl⟩
      · obtain ⟨place, hplace, rfl⟩ := ih.mp ⟨propDef, hreached, hwrite⟩
        exact ⟨place, .inr ⟨hisObj, hplace⟩, rfl⟩
    · intro h
      obtain ⟨place, hplace | ⟨hisObj, hreached⟩, hwrite⟩ := h
      · exact ⟨_, .inl rfl, hwrites.mpr ⟨place, hplace, hwrite⟩⟩
      · obtain ⟨propDef, hpropDef, hmem⟩ := ih.mpr ⟨place, hreached, hwrite⟩
        exact ⟨propDef, .inr ⟨hisObj, hpropDef⟩, hmem⟩

theorem mem_putField {fields : PlacedFields} {key : Hashed} {value : Placed}
    {field : Hashed × Placed} (h : field ∈ putField fields key value) :
    field.2 = value ∨ field ∈ fields := by
  induction fields with
  | nil =>
    obtain rfl := List.mem_singleton.mp h
    exact .inl rfl
  | cons first fields ih =>
    rw [putField] at h
    split at h
    · obtain rfl | h := List.mem_cons.mp h
      · exact .inl rfl
      · exact .inr (List.mem_cons_of_mem _ h)
    · obtain rfl | h := List.mem_cons.mp h
      · exact .inr List.mem_cons_self
      · obtain h | h := ih h
        · exact .inl h
        · exact .inr (List.mem_cons_of_mem _ h)

theorem IsNew.makeNullable {propDef : Placed} (h : IsNew propDef) :
    IsNew (makeNullable propDef) := by
  obtain ⟨fields, rfl⟩ := h
  exact ⟨_, rfl⟩

/-- One round of the loop over a list of properties adds a new dictionary. -/
theorem addProperty_new {listed listed' : Listed} {entry : Placed}
    (h : addProperty normalizeSchema listed entry = .ok listed')
    (hnew : ∀ prop ∈ listed.normalised, IsNew prop.2) :
    ∀ prop ∈ listed'.normalised, IsNew prop.2 := by
  unfold addProperty at h
  split at h
  · rename_i origin fields
    split at h
    · obtain rfl := Except.ok.inj h
      exact hnew
    · obtain ⟨propDef, hpropDef, h⟩ := bind_eq_ok.mp h
      obtain ⟨key, _, h⟩ := bind_eq_ok.mp h
      have hpropDef : IsNew propDef := by
        obtain ⟨hpropDef, _⟩ | ⟨rfl, _⟩ := normalizeOr_cases hpropDef
        · exact hpropDef
        · exact ⟨_, rfl⟩
      split at h
      · obtain rfl := Except.ok.inj h
        intro prop hprop
        obtain hvalue | hprop := mem_putField hprop
        · exact hvalue ▸ hpropDef.makeNullable
        · exact hnew prop hprop
      · obtain rfl := Except.ok.inj h
        intro prop hprop
        obtain hvalue | hprop := mem_putField hprop
        · exact hvalue ▸ hpropDef
        · exact hnew prop hprop
  · obtain rfl := Except.ok.inj h
    exact hnew

theorem addProperties_new {entries : List Placed} :
    ∀ {listed listed' : Listed},
      entries.foldlM (addProperty normalizeSchema) listed = .ok listed' →
      (∀ prop ∈ listed.normalised, IsNew prop.2) → ∀ prop ∈ listed'.normalised, IsNew prop.2 := by
  induction entries with
  | nil =>
    intro listed listed' h hnew
    obtain rfl := Except.ok.inj h
    exact hnew
  | cons entry entries ih =>
    intro listed listed' h hnew
    rw [List.foldlM_cons] at h
    obtain ⟨middle, hmiddle, h⟩ := bind_eq_ok.mp h
    exact ih h (addProperty_new hmiddle hnew)

theorem writes_addDefaults_of_new {props : PlacedFields} (h : ∀ prop ∈ props, IsNew prop.2) :
    (addDefaults props).writes = [] := by
  induction props with
  | nil => rfl
  | cons prop props ih =>
    rw [List.forall_mem_cons] at h
    rw [writes_addDefaults_cons, h.1.writes_addDefault, ih h.2]
    simp

/-! ## The writes of a run -/

section

variable {σ : Type} {createModel : Placed → Except Raised σ}

theorem writes_buildNormalised {origin propsOrigin : Option Place} {schema props : PlacedFields}
    (h : schema.lookup (.text "properties") = some (.obj propsOrigin props)) :
    (buildNormalised createModel (.obj origin schema)).writes = (addDefaults props).writes := by
  simp only [buildNormalised, h]
  cases hresult : (addDefaults props).result with
  | error e => rw [Run.writes_bind_of_error hresult]
  | ok props' => rw [Run.writes_bind_of_ok hresult, Run.ofExcept_writes, List.append_nil]

theorem writes_buildNormalised_of_not_obj {schema : Placed}
    (h : ∀ origin fields propsOrigin props, schema = .obj origin fields →
      fields.lookup (.text "properties") ≠ some (.obj propsOrigin props)) :
    (buildNormalised createModel schema).writes = [] := by
  cases schema with
  | obj origin fields =>
    rw [buildNormalised]
    split
    · rfl
    · rename_i propsOrigin props hlookup
      exact absurd hlookup (h _ _ propsOrigin props rfl)
    · rfl
  | null | bool | int | float | str | arr => rfl

/-- At the place there is an empty property of the schema, after objects only. -/
def EmptyProperty (schema : Placed) (place : Place) : Prop :=
  ∃ origin fields propsOrigin props, schema = .obj origin fields ∧
    fields.lookup (.text "properties") = some (.obj propsOrigin props) ∧
    Reached props (.obj (some place) [])

theorem emptyProperty_obj {origin : Option Place} {fields : PlacedFields} {place : Place} :
    EmptyProperty (.obj origin fields) place ↔
      ∃ propsOrigin props, fields.lookup (.text "properties") = some (.obj propsOrigin props) ∧
        Reached props (.obj (some place) []) := by
  constructor
  · intro h
    obtain ⟨_, _, propsOrigin, props, heq, hlookup, hreached⟩ := h
    obtain ⟨rfl, rfl⟩ := Placed.obj.inj heq
    exact ⟨propsOrigin, props, hlookup, hreached⟩
  · intro h
    obtain ⟨propsOrigin, props, hlookup, hreached⟩ := h
    exact ⟨origin, fields, propsOrigin, props, rfl, hlookup, hreached⟩

/-- The writes of the loop over the properties of a normalised schema. -/
theorem mem_writes_buildNormalised (origin : Option Place)
    {schema normalised middle : PlacedFields} {write : Write}
    (hmiddle : normalizeProperties normalizeSchema schema = .ok middle)
    (hlookup : normalised.lookup (.text "properties") = middle.lookup (.text "properties")) :
    write ∈ (buildNormalised createModel (.obj none normalised)).writes ↔
      ∃ place, EmptyProperty (.obj origin schema) place ∧ write = ⟨place, "default", .null⟩ := by
  simp only [emptyProperty_obj]
  unfold normalizeProperties at hmiddle
  split at hmiddle
  · rename_i entries hentries
    obtain ⟨listed, hlisted, hset⟩ := bind_eq_ok.mp hmiddle
    obtain rfl := Except.ok.inj hset
    rw [lookup_properties_setListed] at hlookup
    rw [writes_buildNormalised hlookup,
      writes_addDefaults_of_new (addProperties_new hlisted (by simp)), hentries]
    simp
  · rename_i propsOrigin props hprops
    obtain ⟨props', hprops', hset⟩ := bind_eq_ok.mp hmiddle
    obtain rfl := Except.ok.inj hset
    rw [lookup_putField_self] at hlookup
    rw [writes_buildNormalised hlookup, normalizedProperties_writes (mapM_eq_ok.mp hprops'),
      hprops]
    simp
  · rename_i hentries hprops
    obtain rfl := Except.ok.inj hmiddle
    have hempty : (buildNormalised createModel (.obj none normalised)).writes = [] := by
      apply writes_buildNormalised_of_not_obj
      intro _ _ propsOrigin props heq
      obtain ⟨rfl, rfl⟩ := Placed.obj.inj heq
      rw [hlookup]
      exact hprops propsOrigin props
    rw [hempty]
    constructor
    · intro h
      simp at h
    · intro h
      obtain ⟨_, ⟨propsOrigin, props, hfound, _⟩, _⟩ := h
      exact absurd hfound (hprops propsOrigin props)

theorem mem_writes_buildStateModel {schema : Placed} {write : Write} :
    write ∈ (buildStateModel createModel schema).writes ↔
      Normalisable schema ∧
        ∃ place, EmptyProperty schema place ∧ write = ⟨place, "default", .null⟩ := by
  rw [← normalizeSchema_ok_iff]
  unfold buildStateModel
  cases hnormalised : normalizeSchema schema with
  | error e =>
    rw [Run.writes_bind_of_error rfl]
    simp
  | ok value =>
    rw [Run.writes_bind_of_ok rfl, Run.ofExcept_writes, List.nil_append]
    cases hobj : schema.isObj with
    | true =>
      cases schema with
      | obj origin fields =>
        obtain ⟨normalised, middle, rfl, hmiddle, hlookup, _⟩ := normalizeSchema_obj hnormalised
        have hvalue : (if (Placed.obj none normalised).truthy then Placed.obj none normalised
            else .obj none []) = .obj none normalised := by
          cases normalised <;> simp
        rw [hvalue, mem_writes_buildNormalised origin hmiddle hlookup]
        simp
      | null | bool | int | float | str | arr => simp [Placed.isObj] at hobj
    | false =>
      rw [normalizeSchema_of_not_obj hobj] at hnormalised
      obtain rfl := Except.ok.inj hnormalised
      have hempty : (buildNormalised createModel
          (if schema.truthy then schema else .obj none [])).writes = [] := by
        apply writes_buildNormalised_of_not_obj
        intro origin fields propsOrigin props heq
        split at heq
        · rw [heq] at hobj
          simp [Placed.isObj] at hobj
        · obtain ⟨rfl, rfl⟩ := Placed.obj.inj heq
          simp
      rw [hempty]
      constructor
      · intro h
        simp at h
      · intro h
        obtain ⟨_, _, ⟨origin, fields, _, _, heq, _⟩, _⟩ := h
        rw [heq] at hobj
        simp [Placed.isObj] at hobj

variable {T : PythonText}

/-- The nodes and the edges of a definition are accepted when no step before
the state model raises. -/
theorem fromDefinition_ok_iff {definition : Fields} :
    (∃ graph, fromDefinition T Except.ok definition = .ok graph) ↔
      ∃ nodes entries, AcceptedAs T definition nodes entries := by
  constructor
  · intro h
    obtain ⟨graph, hgraph⟩ := h
    obtain ⟨entries, haccepted, _⟩ := acceptedAs_of_ok hgraph
    exact ⟨graph.nodes, entries, haccepted⟩
  · intro h
    obtain ⟨nodes, entries, ⟨⟨n, hn, hnmax⟩, m, hm, hmmax⟩, hnodes, hedges⟩ := h
    have hstate : ∃ model, stateModelOf Except.ok (dictGet definition "state" .null) =
        .ok model := by
      unfold stateModelOf
      split <;> exact ⟨_, rfl⟩
    obtain ⟨model, hmodel⟩ := hstate
    have htables := parseEdges_eq_ok.mpr ⟨entries, hedges, rfl⟩
    unfold fromDefinition
    simp only [len_bind_eq_ok, check_bind_eq_ok, ensure_eq_ok, decide_eq_true_eq]
    simp only [parseNodes_eq_ok.mpr hnodes, htables, hmodel, bind, Except.bind]
    exact ⟨_, n, hn, hnmax, m, hm, hmmax, rfl⟩

theorem not_emptyProperty_of_falsy {schema : Placed} {place : Place}
    (h : schema.truthy = false) : ¬ EmptyProperty schema place := by
  intro hempty
  obtain ⟨origin, fields, propsOrigin, props, rfl, hlookup, _⟩ := hempty
  cases fields with
  | nil => simp at hlookup
  | cons field fields => simp at h

/-- The writes of a run: the default `None` for each empty property of the
state that the loop reaches. -/
theorem mem_writes_fromDefinitionRun {definition : Fields} {write : Write} :
    write ∈ (fromDefinitionRun createModel T definition).writes ↔
      (∃ nodes entries, AcceptedAs T definition nodes entries) ∧
        Normalisable (stateSchema definition) ∧
          ∃ place, EmptyProperty (stateSchema definition) place ∧
            write = ⟨place, "default", .null⟩ := by
  rw [← fromDefinition_ok_iff]
  unfold fromDefinitionRun
  cases hgraph : fromDefinition T Except.ok definition with
  | error e =>
    rw [Run.writes_bind_of_error rfl]
    simp
  | ok graph =>
    rw [Run.writes_bind_of_ok rfl, Run.ofExcept_writes, List.nil_append]
    have hmap : ∀ step : Run (Option σ),
        (step >>= fun stateModel => pure { graph with stateModel }).writes = step.writes :=
      Run.writes_map fun stateModel => { graph with stateModel }
    rw [hmap, stateModel]
    split
    · rw [Run.writes_map, mem_writes_buildStateModel]
      simp
    · rename_i hfalsy
      have hnone : ∀ place, ¬ EmptyProperty (stateSchema definition) place :=
        fun place => not_emptyProperty_of_falsy (Bool.eq_false_iff.mpr hfalsy)
      simp [hnone]

/-! ## The places -/

/-- Some property of an object is empty, and the ones before it are objects. -/
def ReachesEmpty (props : Fields) : Prop :=
  ∃ before name after, props = before ++ (name, .obj []) :: after ∧
    ∀ prop ∈ before, prop.2.isObj = true

theorem isObj_place (origin : Option Place) (value : Json) :
    (place origin value).isObj = value.isObj := by
  cases value <;> simp [place, Placed.isObj, Json.isObj]

theorem place_eq_empty_obj {origin origin' : Option Place} {value : Json} :
    place origin value = .obj origin' [] ↔ value = .obj [] ∧ origin = origin' := by
  cases value with
  | obj fields =>
    cases fields with
    | nil => simp [placeFields]
    | cons field fields => simp [placeFields]
  | null | bool | int | float | str | arr => simp [place]

theorem reached_placeFields {way place : Place} {props : Fields} :
    ∀ {i : Nat}, Reached (placeFields (some way) i props) (.obj (some place) []) ↔
      ∃ before name after, props = before ++ (name, .obj []) :: after ∧
        (∀ prop ∈ before, prop.2.isObj = true) ∧ place = way ++ [i + before.length] := by
  induction props with
  | nil =>
    intro i
    constructor
    · intro h
      obtain ⟨before, _, after, heq, _⟩ := h
      simp [placeFields] at heq
    · intro h
      obtain ⟨before, _, after, heq, _⟩ := h
      simp at heq
  | cons prop props ih =>
    intro i
    rw [placeFields, reached_cons, place_eq_empty_obj, isObj_place, ih]
    constructor
    · intro h
      obtain ⟨hempty, hplace⟩ | ⟨hobj, before, name, after, rfl, hbefore, rfl⟩ := h
      · refine ⟨[], prop.1, props, ?_, by simp, ?_⟩
        · rw [← hempty]
          rfl
        · simpa [inside] using hplace.symm
      · refine ⟨prop :: before, name, after, rfl, ?_, ?_⟩
        · rw [List.forall_mem_cons]
          exact ⟨hobj, hbefore⟩
        · rw [List.length_cons, show i + 1 + before.length = i + (before.length + 1) by omega]
    · intro h
      obtain ⟨before, name, after, heq, hbefore, hplace⟩ := h
      cases before with
      | nil =>
        obtain ⟨rfl, rfl⟩ := List.cons.inj heq
        left
        simp [inside, hplace]
      | cons first before =>
        obtain ⟨rfl, rfl⟩ := List.cons.inj heq
        rw [List.forall_mem_cons] at hbefore
        right
        refine ⟨hbefore.1, before, name, after, rfl, hbefore.2, ?_⟩
        rw [hplace, List.length_cons, show i + 1 + before.length = i + (before.length + 1) by omega]

/-- A field of an object at a place. -/
theorem lookup_place {way : Place} {fields : Fields} {key : String} {origin : Option Place}
    {inner : PlacedFields}
    (h : (placeFields (some way) 0 fields).lookup (.text key) = some (.obj origin inner)) :
    ∃ (k : Nat) (name : String) (object : Fields), fields[k]? = some (name, .obj object) ∧
      fields.lookup key = some (.obj object) ∧ origin = some (way ++ [k]) ∧
      inner = placeFields origin 0 object := by
  obtain ⟨_, hnone⟩ | ⟨k, name, value, hk, hvalue, hplaced⟩ :=
    @lookup_placeFields (some way) key fields 0
  · rw [hnone] at h
    simp at h
  · rw [hplaced, Option.some.injEq] at h
    cases value with
    | obj object =>
      rw [place_obj] at h
      obtain ⟨rfl, rfl⟩ := Placed.obj.inj h
      exact ⟨k, name, object, hk, hvalue, by simp [inside], rfl⟩
    | null | bool | int | float | str | arr => simp [place] at h

/-- The properties of the state schema are an object that `ReachesEmpty`. -/
def HasEmptyProperty (definition : Fields) : Prop :=
  ∃ state props, definition.lookup "state" = some (.obj state) ∧
    state.lookup "properties" = some (.obj props) ∧ ReachesEmpty props

/-- An empty property of the state is an empty object three levels down in the definition. -/
theorem EmptyProperty.valueAt {definition : Fields} {place : Place}
    (h : EmptyProperty (stateSchema definition) place) :
    place.length = 3 ∧ valueAt place (.obj definition) = some (.obj []) ∧
      HasEmptyProperty definition := by
  obtain ⟨origin, fields, propsOrigin, placedProps, hschema, hlookup, hreached⟩ := h
  unfold stateSchema at hschema
  cases hstate : (placeFields (some []) 0 definition).lookup (.text "state") with
  | none =>
    rw [hstate] at hschema
    simp at hschema
  | some value =>
    rw [hstate, Option.getD_some] at hschema
    rw [hschema] at hstate
    obtain ⟨i, _, state, hi, hstateAt, rfl, rfl⟩ := lookup_place hstate
    obtain ⟨j, _, props, hj, hpropsAt, rfl, rfl⟩ := lookup_place hlookup
    obtain ⟨before, name, after, rfl, hbefore, rfl⟩ := reached_placeFields.mp hreached
    refine ⟨by simp, ?_, state, _, hstateAt, hpropsAt, before, name, after, rfl, hbefore⟩
    simp [Lib.valueAt, Json.child?, hi, hj]

theorem exists_emptyProperty {definition : Fields} (h : HasEmptyProperty definition) :
    ∃ place, EmptyProperty (stateSchema definition) place := by
  obtain ⟨state, props, hstate, hprops, before, name, after, rfl, hbefore⟩ := h
  obtain ⟨hnone, _⟩ | ⟨i, _, value, _, hvalue, hplaced⟩ :=
    @lookup_placeFields (some []) "state" definition 0
  · rw [hnone] at hstate
    simp at hstate
  · obtain rfl := Option.some.inj (hvalue.symm.trans hstate)
    obtain ⟨hnone, _⟩ | ⟨j, _, value, _, hvalue, hplacedProps⟩ :=
      @lookup_placeFields (inside (some []) (0 + i)) "properties" state 0
    · rw [hnone] at hprops
      simp at hprops
    · obtain rfl := Option.some.inj (hvalue.symm.trans hprops)
      rw [place_obj] at hplaced hplacedProps
      refine ⟨[] ++ [0 + i] ++ [0 + j] ++ [0 + before.length], inside (some []) (0 + i), _, _, _,
        ?_, hplacedProps, ?_⟩
      · rw [stateSchema, hplaced]
        rfl
      · exact reached_placeFields.mpr ⟨before, name, after, rfl, hbefore, rfl⟩

/-! ## The result of a run -/

theorem truthy_place (origin : Option Place) (value : Json) :
    (place origin value).truthy = value.truthy := by
  cases value with
  | arr items => cases items <;> simp [place, placeItems, Placed.truthy, Placed.outline, Json.truthy]
  | obj fields => cases fields <;> simp [placeFields, Json.truthy]
  | null | bool | int | float | str => simp [place, Placed.truthy, Placed.outline]

theorem truthy_stateSchema (definition : Fields) :
    (stateSchema definition).truthy = (dictGet definition "state" .null).truthy := by
  unfold stateSchema dictGet
  obtain ⟨hnone, hplaced⟩ | ⟨k, name, value, _, hvalue, hplaced⟩ :=
    @lookup_placeFields (some []) "state" definition 0
  · rw [hnone, hplaced]
    rfl
  · rw [hvalue, hplaced]
    exact truthy_place _ value

/-- The model builder is called last, and nothing else depends on it. -/
theorem fromDefinition_eq (build : Json → Except Raised σ) (definition : Fields) :
    fromDefinition T build definition = (do
      let graph ← fromDefinition T Except.ok definition
      let stateModel ← stateModelOf build (dictGet definition "state" .null)
      return { graph with stateModel }) := by
  unfold fromDefinition
  simp only [bind_assoc]
  apply bind_congr_of_ok
  intro n _
  apply bind_congr_of_ok
  intro _ _
  apply bind_congr_of_ok
  intro m _
  apply bind_congr_of_ok
  intro _ _
  apply bind_congr_of_ok
  intro nodes _
  apply bind_congr_of_ok
  intro tables _
  have hraw : ∃ model, stateModelOf Except.ok (dictGet definition "state" .null) =
      .ok model := by
    unfold stateModelOf
    split <;> exact ⟨_, rfl⟩
  obtain ⟨model, hmodel⟩ := hraw
  rw [hmodel]
  rfl

/-- A run returns what `fromDefinition` returns with this builder of the state model. -/
theorem result_fromDefinitionRun (definition : Fields) :
    (fromDefinitionRun createModel T definition).result =
      fromDefinition T (fun _ => (buildStateModel createModel (stateSchema definition)).result)
        definition := by
  rw [fromDefinition_eq]
  unfold fromDefinitionRun
  rw [Run.result_bind, Run.ofExcept_result]
  apply bind_congr_of_ok
  intro graph _
  rw [Run.result_bind]
  unfold stateModel stateModelOf
  rw [truthy_stateSchema]
  split
  · rw [Run.result_map]
    rfl
  · rfl

/-! ## The definition after a run -/

/-- Writes at the depth of a filled object leave it filled. -/
theorem FilledAt.foldl {writes : List Write} {place : Place} {value : Json}
    (h : FilledAt place value) (hlength : ∀ write ∈ writes, write.place.length = place.length) :
    FilledAt place
      (writes.foldl (fun value write => writeAt write.key write.value write.place value) value) := by
  induction writes generalizing value with
  | nil => exact h
  | cons write writes ih =>
    rw [List.forall_mem_cons] at hlength
    exact ih (h.writeAt hlength.1) hlength.2

/-- A run that writes changes the definition. -/
theorem definitionAfter_ne {definition : Fields}
    (h : (fromDefinitionRun createModel T definition).writes ≠ []) :
    (fromDefinitionRun createModel T definition).definitionAfter definition ≠ .obj definition := by
  have hwrites : ∀ write ∈ (fromDefinitionRun createModel T definition).writes,
      write.place.length = 3 ∧ valueAt write.place (.obj definition) = some (.obj []) := by
    intro write hwrite
    obtain ⟨_, _, place, hplace, rfl⟩ := mem_writes_fromDefinitionRun.mp hwrite
    exact ⟨hplace.valueAt.1, hplace.valueAt.2.1⟩
  unfold Run.definitionAfter
  cases hlist : (fromDefinitionRun createModel T definition).writes with
  | nil => exact absurd hlist h
  | cons write writes =>
    rw [hlist, List.forall_mem_cons] at hwrites
    obtain ⟨⟨hlength, hempty⟩, hrest⟩ := hwrites
    have hfilled : FilledAt write.place (writes.foldl
        (fun value write => writeAt write.key write.value write.place value)
        (writeAt write.key write.value write.place (.obj definition))) :=
      FilledAt.foldl (filledAt_writeAt_self hempty) fun other hother =>
        (hrest other hother).1.trans hlength.symm
    intro heq
    rw [List.foldl_cons] at heq
    rw [heq] at hfilled
    obtain ⟨fields, hfields, hvalue⟩ := hfilled
    rw [hempty] at hvalue
    exact hfields (Json.obj.inj (Option.some.inj hvalue)).symm

/-- `from_definition` leaves its definition as it was unless it gets as far as
the defaults, with an empty object among the properties of the state and
nothing but objects before it. -/
theorem fromDefinition_unchanged_iff (createModel : Placed → Except Raised σ) (T : PythonText)
    (definition : Fields) :
    (fromDefinitionRun createModel T definition).definitionAfter definition = .obj definition ↔
      ¬ ((∃ nodes entries, AcceptedAs T definition nodes entries) ∧
        Normalisable (stateSchema definition) ∧ HasEmptyProperty definition) := by
  have hwrites : (fromDefinitionRun createModel T definition).writes = [] ↔
      ¬ ((∃ nodes entries, AcceptedAs T definition nodes entries) ∧
        Normalisable (stateSchema definition) ∧ HasEmptyProperty definition) := by
    rw [List.eq_nil_iff_forall_not_mem]
    constructor
    · intro hnone h
      obtain ⟨haccepted, hnormalisable, hempty⟩ := h
      obtain ⟨place, hplace⟩ := exists_emptyProperty hempty
      exact hnone _ (mem_writes_fromDefinitionRun.mpr
        ⟨haccepted, hnormalisable, place, hplace, rfl⟩)
    · intro h write hwrite
      obtain ⟨haccepted, hnormalisable, place, hplace, _⟩ :=
        mem_writes_fromDefinitionRun.mp hwrite
      exact h ⟨haccepted, hnormalisable, hplace.valueAt.2.2⟩
  rw [← hwrites]
  constructor
  · intro h
    by_contra hne
    exact definitionAfter_ne hne h
  · intro h
    rw [Run.definitionAfter, h]
    rfl

end

/-- A graph of one node whose state has a property without a schema. -/
def untypedState (property : Json) : Fields :=
  [("nodes", .arr [.obj [("name", .str "reply")]]),
    ("edges", .arr [.obj [("from", .str "START"), ("to", .str "reply")],
      .obj [("from", .str "reply"), ("to", .str "END")]]),
    ("state", .obj [("properties", .obj [("answer", property)])])]

/-- The empty schema of a property comes back with a default. -/
theorem untypedState_changed :
    (fromDefinitionRun (fun _ => .ok ()) asciiText (untypedState (.obj []))).definitionAfter
        (untypedState (.obj [])) = .obj (untypedState (.obj [("default", .null)])) ∧
      Json.obj (untypedState (.obj [("default", .null)])) ≠ .obj (untypedState (.obj [])) := by
  refine ⟨rfl, ?_⟩
  simp [untypedState]

end VirtualContributor.Graph
