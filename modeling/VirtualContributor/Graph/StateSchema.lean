import VirtualContributor.Graph.Accepted
import VirtualContributor.Lib.PlacedJson

/-!
# State schemas

`PromptGraph._normalize_schema` and `PromptGraph._build_state_model`.  The
schema is a part of the definition of a graph, and the functions build new
dictionaries that share the inner ones with it.  So a schema is a placed value
here: a dictionary of the definition knows its place, and a dictionary that
one of the functions makes has none.

A dictionary that a function has just made is written by that function alone,
so its writes are updates of the list of fields.  The loop over the defaults
writes to dictionaries that it finds in the schema.  Its writes to
dictionaries of the definition are an output of `Run`, and they stay when a
later step raises.

The builder of the model is a parameter.  It changes nothing.
-/

namespace VirtualContributor.Graph

open Lib

/-! ## Normalization -/

/-- `{k: v for k, v in entry.items() if k not in ("name", "optional")}`. -/
def withoutName (entry : PlacedFields) : PlacedFields :=
  entry.filter fun field => field.1 ∉ [.text "name", .text "optional"]

def isStr (text : String) : Placed → Bool
  | .str value => value = text
  | _ => false

/-- `result.setdefault("default", value)`. -/
def setDefault (result : PlacedFields) (value : Placed) : PlacedFields :=
  if (result.lookup (.text "default")).isSome then result
  else putField result (.text "default") value

/-- Broaden a property schema to also accept `null`. -/
def makeNullable : Placed → Placed
  | .obj _ propDef =>
    let result :=
      match propDef.lookup (.text "type") with
      | some (.str t) =>
        if t ≠ "null" then putField propDef (.text "type") (.arr [.str t, .str "null"])
        else propDef
      | some (.arr ts) =>
        if ts.any (isStr "null") then propDef
        else putField propDef (.text "type") (.arr (ts ++ [.str "null"]))
      | _ => propDef
    .obj none (setDefault result .null)
  | propDef => propDef

section

variable (normalize : Placed → Except Raised Placed)

/-- `_normalize_schema(value) or value`. -/
def normalizeOr (value : Placed) : Except Raised Placed := do
  let normalised ← normalize value
  return if normalised.truthy then normalised else value

/-- What the loop over a list of properties has built. -/
structure Listed where
  normalised : PlacedFields
  required : List Placed

/-- One round of the loop over a list of properties. -/
def addProperty (listed : Listed) (entry : Placed) : Except Raised Listed :=
  match entry with
  | .obj _ fields =>
    match fields.lookup (.text "name") with
    | none => return listed
    | some name => do
      let propDef ← normalizeOr normalize (.obj none (withoutName fields))
      let optional := ((fields.lookup (.text "optional")).getD (.bool false)).truthy
      let key ← hash name.outline
      if optional then
        return { listed with normalised := putField listed.normalised key (makeNullable propDef) }
      else
        return ⟨putField listed.normalised key propDef, listed.required ++ [name]⟩
  | _ => return listed

/-- The schema of a list of properties. -/
def setListed (schema : PlacedFields) (listed : Listed) : PlacedFields :=
  let schema := putField schema (.text "properties") (.obj none listed.normalised)
  let schema :=
    if !listed.required.isEmpty && (schema.lookup (.text "required")).isNone then
      putField schema (.text "required") (.arr listed.required)
    else schema
  if ((schema.lookup (.text "type")).getD .null).isNull then
    putField schema (.text "type") (.str "object")
  else schema

def normalizeProperty (prop : Hashed × Placed) : Except Raised (Hashed × Placed) := do
  let propDef ← normalizeOr normalize prop.2
  return (prop.1, propDef)

def normalizeProperties (schema : PlacedFields) : Except Raised PlacedFields :=
  match schema.lookup (.text "properties") with
  | some (.arr entries) => do
    let listed ← entries.foldlM (addProperty normalize) ⟨[], []⟩
    return setListed schema listed
  | some (.obj _ props) => do
    let props ← props.mapM (normalizeProperty normalize)
    return putField schema (.text "properties") (.obj none props)
  | _ => return schema

/-- The schema under `items` or `additionalProperties`. -/
def normalizeInner (key : String) (schema : PlacedFields) : Except Raised PlacedFields :=
  match schema.lookup (.text key) with
  | some (.obj origin inner) => do
    let inner ← normalize (.obj origin inner)
    return putField schema (.text key) inner
  | _ => return schema

/-- The schemas under a combinator. -/
def normalizeCombinator (combinator : String) (schema : PlacedFields) :
    Except Raised PlacedFields :=
  match schema.lookup (.text combinator) with
  | some (.arr schemas) => do
    let schemas ← schemas.mapM (normalizeOr normalize)
    return putField schema (.text combinator) (.arr schemas)
  | _ => return schema

/-- The body of `_normalize_schema`; `normalize` stands for its calls of itself. -/
def normalizeBody : Placed → Except Raised Placed
  | .obj _ schema => do
    let schema ← normalizeProperties normalize schema
    let schema ← normalizeInner normalize "items" schema
    let schema ← normalizeInner normalize "additionalProperties" schema
    let schema ← normalizeCombinator normalize "anyOf" schema
    let schema ← normalizeCombinator normalize "oneOf" schema
    let schema ← normalizeCombinator normalize "allOf" schema
    return .obj none schema
  | schema => return schema

end

/-- `_normalize_schema`, down to a number of levels. -/
def normalizeWithin : Nat → Placed → Except Raised Placed
  | 0 => .ok
  | n + 1 => normalizeBody (normalizeWithin n)

/-- Convert the list-based data structure of the server to JSON Schema form. -/
def normalizeSchema (schema : Placed) : Except Raised Placed :=
  normalizeWithin schema.height schema

/-! ## The state model -/

/-- `prop_def[key] = value`, for a dictionary at a place of the definition. -/
structure Write where
  place : Place
  key : String
  value : Json

/-- What a step returns or raises, and what it has written to the definition. -/
structure Run (α : Type) where
  result : Except Raised α
  writes : List Write

namespace Run

variable {α β : Type}

def bind (step : Run α) (next : α → Run β) : Run β :=
  match step.result with
  | .error e => ⟨.error e, step.writes⟩
  | .ok a => ⟨(next a).result, step.writes ++ (next a).writes⟩

instance : Monad Run where
  pure a := ⟨.ok a, []⟩
  bind := bind

/-- A step that writes nothing. -/
def ofExcept (result : Except Raised α) : Run α := ⟨result, []⟩

/-- `AttributeError`. -/
def attributeError (value : Placed) (name : String) : Run α :=
  ofExcept (.error (.modelBuilder
    s!"'{value.outline.typeName}' object has no attribute '{name}'"))

end Run

/-- `prop_def[key] = value`. -/
def setItem (origin : Option Place) (propDef : PlacedFields) (key : String) (value : Json) :
    Run Placed where
  result := .ok (.obj origin (putField propDef (.text key) (place none value)))
  writes := origin.toList.map fun place => ⟨place, key, value⟩

/-- One round of the loop over the properties. -/
def addDefault (propDef : Placed) : Run Placed :=
  match propDef with
  | .obj origin fields =>
    if isStr "array" ((fields.lookup (.text "type")).getD .null) then
      if (fields.lookup (.text "default")).isSome then return propDef
      else setItem origin fields "default" (.arr [])
    else if (fields.lookup (.text "default")).isNone then
      setItem origin fields "default" .null
    else return propDef
  | propDef => .attributeError propDef "get"

def addDefaults : PlacedFields → Run PlacedFields
  | [] => return []
  | prop :: props => do
    let propDef ← addDefault prop.2
    let props ← addDefaults props
    return (prop.1, propDef) :: props

section

variable {σ : Type} (createModel : Placed → Except Raised σ)

/-- `_build_state_model`, from the normalised schema on. -/
def buildNormalised : Placed → Run σ
  | .obj origin schema =>
    match schema.lookup (.text "properties") with
    | none => .ofExcept (createModel (.obj origin schema))
    | some (.obj propsOrigin props) => do
      let props ← addDefaults props
      .ofExcept (createModel (.obj origin
        (putField schema (.text "properties") (.obj propsOrigin props))))
    | some properties => .attributeError properties "items"
  | schema => .attributeError schema "get"

/-- Build a dynamic model from a JSON schema. -/
def buildStateModel (schema : Placed) : Run σ := do
  let schema ← .ofExcept (normalizeSchema schema)
  buildNormalised createModel (if schema.truthy then schema else .obj none [])

variable (T : PythonText)

/-- `definition.get("state")`. -/
def stateSchema (definition : Fields) : Placed :=
  ((placeFields (some []) 0 definition).lookup (.text "state")).getD .null

/-- `_build_state_model(state_schema) if state_schema else None`. -/
def stateModel (schema : Placed) : Run (Option σ) :=
  if schema.truthy then some <$> buildStateModel createModel schema else return none

/-- `from_definition`, with what it writes to the definition. -/
def fromDefinitionRun (definition : Fields) : Run (PromptGraph σ) := do
  let graph ← .ofExcept (fromDefinition T Except.ok definition)
  let stateModel ← stateModel createModel (stateSchema definition)
  return { graph with stateModel }

end

/-- The definition after a run's writes. -/
def Run.definitionAfter {α : Type} (run : Run α) (definition : Fields) : Json :=
  run.writes.foldl (fun value write => writeAt write.key write.value write.place value)
    (.obj definition)

end VirtualContributor.Graph
