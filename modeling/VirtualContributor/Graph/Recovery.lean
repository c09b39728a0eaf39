import VirtualContributor.Lib.CanonicalJson
import VirtualContributor.Lib.Containers
import VirtualContributor.Web.Exception

/-!
# Recovering the fields of an answer

`PromptGraph._recover_fields`: when the answer of a model does not parse, the
fields of the output model are looked for anywhere in its JSON.  A field takes
the first value that is not null; a required field that has none takes the
default of its annotation.  What validates the result is a parameter.

`get?_complete` says what each field is given, and `recoverFields_eq_some_iff`
which texts an answer is recovered from.
-/

namespace VirtualContributor.Graph

open Lib

/-! ## Output models -/

/-- The annotation of a field of a model. -/
inductive Annotation where
  | str
  | bool
  | int
  | float
  | list
  | dict
  | model
  | noneType
  | other
  | union (args : List Annotation)

namespace Annotation

def isNoneType : Annotation → Bool
  | noneType => true
  | _ => false

/-- The default of an annotation that is no union. -/
def plainDefault : Annotation → Json
  | str => .str ""
  | bool => .bool false
  | int | float => .int 0
  | list => .arr []
  | dict | model => .obj []
  | _ => .null

/-- `_default_for_annotation`. -/
def default : Annotation → Json
  | union args => ((args.find? (!·.isNoneType)).map plainDefault).getD .null
  | arg => arg.plainDefault

end Annotation

/-- An entry of `model_fields`. -/
structure ModelField where
  name : String
  isRequired : Bool
  fieldType : Annotation

/-- A Pydantic model, with its parser of answers and its validation.  `parse` and
`validate` are followed by `model_dump`; validation takes the fields in any
order. -/
structure OutputModel where
  fields : List ModelField
  formatInstructions : String
  parse : String → Except Exc Fields
  validate : Fields → Option Fields
  validate_perm : ∀ {given other : Fields}, given.Perm other → validate given = validate other

/-! ## The walk -/

/-- The values found so far. -/
abbrev Found := OrderedDict String Json

/-- `value is None`. -/
def isNone : Json → Bool
  | .null => true
  | _ => false

/-- `_maybe_set`. -/
def maybeSet (found : Found) (key : String) (value : Json) : Found :=
  match found.get? key with
  | none => found.set key value
  | some old => if isNone old && !isNone value then found.set key value else found

namespace OutputModel

variable (model : OutputModel)

def names : List String := model.fields.map ModelField.name

/-- The field that a key of the answer is for: the field of that name, or the
one that the key is an alias of. -/
def target (key : String) : Option String :=
  if key ∈ model.names then some key else model.names.find? fun name => name ++ "_text" = key

/-- One key of an object of the answer. -/
def collectKey (key : String) (value : Json) (found : Found) : Found :=
  match model.target key with
  | some name => maybeSet found name value
  | none => found

mutual

/-- `_walk`. -/
def collect : Json → Found → Found
  | .obj fields, found => collectFields fields found
  | .arr items, found => collectItems items found
  | _, found => found

def collectFields : List (String × Json) → Found → Found
  | [], found => found
  | (key, value) :: fields, found =>
    collectFields fields (collect value (model.collectKey key value found))

def collectItems : List Json → Found → Found
  | [], found => found
  | item :: items, found => collectItems items (collect item found)

end

/-! ## The recovery -/

/-- Drop a required field that was found null. -/
def dropNull (found : Found) (field : ModelField) : Found :=
  if field.isRequired && isNone ((found.get? field.name).getD .null) then found.erase field.name
  else found

/-- Fill a required field that is missing. -/
def fillMissing (found : Found) (field : ModelField) : Found :=
  if field.isRequired && (found.get? field.name).isNone then
    found.set field.name field.fieldType.default
  else found

/-- The fields given to the validator. -/
def complete (found : Found) : Found :=
  model.fields.foldl fillMissing (model.fields.foldl dropNull found)

/-- From the first opening brace of a text to the last closing one. -/
def spanOf (text : List Char) : List Char :=
  ((text.dropWhile (· ≠ '{')).reverse.dropWhile (· ≠ '}')).reverse

/-- `re.search(r"\x7b.*\x7d", text, re.DOTALL)`. -/
def braceSpan (text : String) : Option String :=
  if (spanOf text.toList).isEmpty then none else some (String.ofList (spanOf text.toList))

/-- `_recover_fields`. -/
def recoverFields (F : JsonFloats) (rawText : String) : Option Fields :=
  match braceSpan rawText with
  | none => none
  | some span =>
    match loads F span with
    | .error _ => none
    | .ok payload =>
      let found := model.collect payload .empty
      if found.isEmpty then none else model.validate (model.complete found).entries

end OutputModel

/-! ## The first value of a field -/

/-- The first value that is not null; without one, the first. -/
def preferred (values : List Json) : Option Json := (values.find? (!isNone ·)).or values.head?

/-- What a value makes of the one before it. -/
def merged : Option Json → Json → Json
  | none, value => value
  | some old, value => if isNone old && !isNone value then value else old

theorem preferred_append_singleton (values : List Json) (value : Json) :
    preferred (values ++ [value]) = some (merged (preferred values) value) := by
  cases values with
  | nil => cases h : isNone value <;> simp [preferred, merged, h]
  | cons first values =>
    unfold preferred
    rw [List.find?_append]
    cases hfind : (first :: values).find? (!isNone ·) with
    | some old =>
      have hold : isNone old = false := by simpa using List.find?_some hfind
      simp [merged, hold]
    | none =>
      have hfirst : isNone first = true := by simpa using List.find?_eq_none.mp hfind first
      cases hvalue : isNone value <;> simp [merged, hfirst, hvalue]

theorem get?_maybeSet (found : Found) (key other : String) (value : Json) :
    (maybeSet found key value).get? other =
      if other = key then some (merged (found.get? key) value) else found.get? other := by
  unfold maybeSet
  cases hold : found.get? key with
  | none => simp [merged]
  | some old =>
    cases hnew : isNone old && !isNone value with
    | true => simp [merged, hnew]
    | false =>
      by_cases hkey : other = key
      · simp [merged, hnew, hkey, hold]
      · simp [hnew, hkey]

/-- The values for a field, among values for fields. -/
def valuesFor (name : String) (mentions : List (String × Json)) : List Json :=
  (mentions.filter (·.1 = name)).map Prod.snd

/-- The values of a dictionary are those of a field so far. -/
def Holds (found : Found) (mentions : List (String × Json)) : Prop :=
  ∀ name, found.get? name = preferred (valuesFor name mentions)

theorem holds_empty : Holds .empty [] := by
  intro name
  simp [preferred, valuesFor]

theorem Holds.maybeSet {found : Found} {mentions : List (String × Json)} (h : Holds found mentions)
    (key : String) (value : Json) :
    Holds (maybeSet found key value) (mentions ++ [(key, value)]) := by
  intro name
  rw [get?_maybeSet]
  by_cases hname : name = key
  · subst hname
    have hvalues : valuesFor name (mentions ++ [(name, value)]) =
        valuesFor name mentions ++ [value] := by
      simp [valuesFor]
    rw [if_pos rfl, hvalues, preferred_append_singleton, ← h name]
  · have hvalues : valuesFor name (mentions ++ [(key, value)]) = valuesFor name mentions := by
      simp [valuesFor, Ne.symm hname]
    rw [if_neg hname, hvalues, h name]

namespace OutputModel

variable (model : OutputModel)

/-! ## The values of an answer -/

/-- A key with its value, if it is for a field. -/
def mention (key : String) (value : Json) : List (String × Json) :=
  ((model.target key).map fun name => (name, value)).toList

mutual

/-- The values for fields in a JSON value, in the order of the text. -/
def mentions : Json → List (String × Json)
  | .obj fields => fieldMentions fields
  | .arr items => itemMentions items
  | _ => []

def fieldMentions : List (String × Json) → List (String × Json)
  | [] => []
  | (key, value) :: fields => model.mention key value ++ mentions value ++ fieldMentions fields

def itemMentions : List Json → List (String × Json)
  | [] => []
  | item :: items => mentions item ++ itemMentions items

end

variable {model} {found : Found} {before : List (String × Json)}

theorem holds_collectKey (h : Holds found before) (key : String) (value : Json) :
    Holds (model.collectKey key value found) (before ++ model.mention key value) := by
  unfold collectKey mention
  cases model.target key with
  | none => simpa using h
  | some name => exact h.maybeSet name value

mutual

theorem holds_collect (value : Json) {found : Found} {before : List (String × Json)}
    (h : Holds found before) : Holds (model.collect value found) (before ++ model.mentions value) := by
  cases value with
  | obj fields => exact holds_collectFields fields h
  | arr items => exact holds_collectItems items h
  | _ => simpa [collect, mentions] using h

theorem holds_collectFields (fields : List (String × Json)) {found : Found}
    {before : List (String × Json)} (h : Holds found before) :
    Holds (model.collectFields fields found) (before ++ model.fieldMentions fields) := by
  match fields with
  | [] => simpa [collectFields, fieldMentions] using h
  | (key, value) :: fields =>
    have hkey : Holds (model.collectKey key value found) (before ++ model.mention key value) :=
      holds_collectKey h key value
    have hrest := holds_collectFields fields (holds_collect value hkey)
    simpa [collectFields, fieldMentions] using hrest

theorem holds_collectItems (items : List Json) {found : Found} {before : List (String × Json)}
    (h : Holds found before) :
    Holds (model.collectItems items found) (before ++ model.itemMentions items) := by
  match items with
  | [] => simpa [collectItems, itemMentions] using h
  | item :: items =>
    have hrest := holds_collectItems items (holds_collect item h)
    simpa [collectItems, itemMentions] using hrest

end

/-! ## What is validated -/

/-- The required field of a name. -/
def isRequiredAs (name : String) (field : ModelField) : Bool :=
  field.isRequired && field.name = name

variable (model) in
/-- What the validator is given for a field. -/
def given (payload : Json) (name : String) : Option Json :=
  let found := preferred (valuesFor name (model.mentions payload))
  match model.fields.find? (isRequiredAs name) with
  | none => found
  | some field => some ((found.filter (!isNone ·)).getD field.fieldType.default)

theorem get?_foldl_dropNull (fields : List ModelField) (found : Found) (name : String) :
    (fields.foldl dropNull found).get? name =
      if fields.any (isRequiredAs name) then
        (found.get? name).filter (!isNone ·)
      else found.get? name := by
  induction fields generalizing found with
  | nil => simp
  | cons field fields ih =>
    have hstep : (dropNull found field).get? name =
        if isRequiredAs name field then (found.get? name).filter (!isNone ·)
        else found.get? name := by
      unfold dropNull
      by_cases hname : field.name = name
      · subst hname
        cases hrequired : field.isRequired with
        | false => simp [isRequiredAs, hrequired]
        | true =>
          cases hfound : found.get? field.name with
          | none => simp [isNone, isRequiredAs, hrequired]
          | some value =>
            cases hnone : isNone value <;>
              simp [isRequiredAs, hrequired, hfound, hnone, Option.filter]
      · split <;> simp [isRequiredAs, hname, Ne.symm hname]
    rw [List.foldl_cons, ih, hstep, List.any_cons]
    cases isRequiredAs name field with
    | false => simp
    | true =>
      cases found.get? name with
      | none => simp [Option.filter]
      | some value => cases hnone : isNone value <;> simp [Option.filter, hnone]

theorem get?_foldl_fillMissing (fields : List ModelField) (found : Found) (name : String) :
    (fields.foldl fillMissing found).get? name =
      (found.get? name).or
        ((fields.find? (isRequiredAs name)).map
          (·.fieldType.default)) := by
  induction fields generalizing found with
  | nil => simp
  | cons field fields ih =>
    rw [List.foldl_cons, ih, List.find?_cons]
    unfold fillMissing
    cases hfield : isRequiredAs name field with
    | false =>
      split
      · rename_i hmissing
        have hname : name ≠ field.name := by
          rintro rfl
          simp_all [isRequiredAs]
        simp [hname]
      · simp
    | true =>
      obtain ⟨hrequired, rfl⟩ : field.isRequired = true ∧ field.name = name := by
        simpa [isRequiredAs] using hfield
      cases hfound : found.get? field.name <;> simp [hrequired, hfound]

theorem get?_complete (payload : Json) (name : String) :
    (model.complete (model.collect payload .empty)).get? name = model.given payload name := by
  have hfound : (model.collect payload .empty).get? name = _ := holds_collect payload holds_empty name
  unfold complete given
  rw [get?_foldl_fillMissing, get?_foldl_dropNull, hfound, List.nil_append]
  cases hfind : model.fields.find? (isRequiredAs name) with
  | none =>
    have hany : model.fields.any (isRequiredAs name) = false := by
      simpa using hfind
    simp [hany]
  | some field =>
    have hany : model.fields.any (isRequiredAs name) = true := by
      rw [List.any_eq_true]
      exact ⟨field, List.mem_of_find?_eq_some hfind, List.find?_some hfind⟩
    simp only [hany, if_true, Option.map_some]
    cases Option.filter _ _ <;> rfl

theorem isEmpty_collect (payload : Json) :
    (model.collect payload .empty).isEmpty = true ↔ model.mentions payload = [] := by
  have hfound : Holds (model.collect payload .empty) ([] ++ model.mentions payload) :=
    holds_collect payload holds_empty
  rw [OrderedDict.isEmpty_iff]
  constructor
  · intro hnone
    rw [List.eq_nil_iff_forall_not_mem]
    intro mention hmention
    have hvalues := (hfound mention.1).symm.trans (hnone mention.1)
    rw [List.nil_append] at hvalues
    have hmem : mention.2 ∈ valuesFor mention.1 (model.mentions payload) :=
      List.mem_map.mpr ⟨mention, by simp [hmention], rfl⟩
    cases hcase : valuesFor mention.1 (model.mentions payload) with
    | nil => rw [hcase] at hmem; exact absurd hmem List.not_mem_nil
    | cons first values => simp [preferred, hcase] at hvalues
  · intro hnil name
    rw [hfound name, hnil]
    simp [preferred, valuesFor]

/-! ## The text of an answer -/

/-- The span of a text from its first opening brace to its last closing one. -/
def Spans (text span : List Char) : Prop :=
  ∃ before body after, text = before ++ ('{' :: body ++ ['}']) ++ after ∧ '{' ∉ before ∧
    '}' ∉ after ∧ span = '{' :: body ++ ['}']

theorem dropWhile_ne {c : Char} (text : List Char) :
    text.dropWhile (· ≠ c) = [] ∧ c ∉ text ∨
      ∃ before rest, text = before ++ c :: rest ∧ c ∉ before ∧
        text.dropWhile (· ≠ c) = c :: rest := by
  induction text with
  | nil => simp
  | cons d text ih =>
    by_cases hd : d = c
    · subst hd
      exact .inr ⟨[], text, rfl, List.not_mem_nil, by simp⟩
    · rcases ih with ⟨hnil, hmem⟩ | ⟨before, rest, rfl, hmem, hdrop⟩
      · refine .inl ⟨?_, ?_⟩
        · rw [List.dropWhile_cons_of_pos (by simpa using hd), hnil]
        · simp [hmem, Ne.symm hd]
      · refine .inr ⟨d :: before, rest, rfl, ?_, ?_⟩
        · simp [hmem, Ne.symm hd]
        · rw [List.dropWhile_cons_of_pos (by simpa using hd), hdrop]

theorem dropWhile_ne_append {c : Char} {before rest : List Char} (h : c ∉ before) :
    (before ++ c :: rest).dropWhile (· ≠ c) = c :: rest := by
  rw [List.dropWhile_append_of_pos]
  · simp
  · intro d hd
    have hne : d ≠ c := fun heq => h (heq ▸ hd)
    simpa using hne

theorem spanOf_eq_iff {text span : List Char} (hspan : span ≠ []) :
    spanOf text = span ↔ Spans text span := by
  unfold spanOf
  constructor
  · intro h
    rcases dropWhile_ne (c := '{') text with ⟨hnil, -⟩ | ⟨before, rest, htext, hbefore, hdrop⟩
    · rw [hnil] at h
      exact absurd h.symm hspan
    rw [hdrop] at h
    rcases dropWhile_ne (c := '}') ('{' :: rest).reverse with
      ⟨hnil, -⟩ | ⟨after, body, hrest, hafter, hlast⟩
    · rw [hnil] at h
      exact absurd h.symm hspan
    rw [hlast, List.reverse_cons] at h
    have hopened : '{' :: rest = body.reverse ++ ['}'] ++ after.reverse := by
      have hreverse := congrArg List.reverse hrest
      simpa using hreverse
    cases hbody : body.reverse with
    | nil => simp [hbody] at hopened
    | cons first inner =>
      rw [hbody] at hopened h
      obtain ⟨hfirst, hrest⟩ := List.cons.inj hopened
      subst hfirst
      refine ⟨before, inner, after.reverse, ?_, hbefore, by simpa using hafter, h.symm⟩
      rw [htext, hopened, ← List.append_assoc]
  · rintro ⟨before, body, after, htext, hbefore, hafter, rfl⟩
    have hdrop : text.dropWhile (· ≠ '{') = '{' :: (body ++ ['}'] ++ after) := by
      rw [htext]
      have hopen : (before ++ '{' :: (body ++ '}' :: after)).dropWhile (· ≠ '{') =
          '{' :: (body ++ '}' :: after) := dropWhile_ne_append hbefore
      simpa using hopen
    have hlast : ('{' :: (body ++ ['}'] ++ after)).reverse.dropWhile (· ≠ '}') =
        '}' :: ('{' :: body).reverse := by
      have hreverse : '}' ∉ after.reverse := by simpa using hafter
      have hclose : (after.reverse ++ '}' :: ('{' :: body).reverse).dropWhile (· ≠ '}') =
          '}' :: ('{' :: body).reverse := dropWhile_ne_append hreverse
      simpa using hclose
    rw [hdrop, hlast]
    simp

theorem Spans.ne_nil {text span : List Char} (h : Spans text span) : span ≠ [] := by
  obtain ⟨before, body, after, -, -, -, rfl⟩ := h
  simp

theorem braceSpan_eq_some_iff {text span : String} :
    braceSpan text = some span ↔ Spans text.toList span.toList := by
  unfold braceSpan
  constructor
  · intro h
    cases hspan : spanOf text.toList with
    | nil => simp [hspan] at h
    | cons first rest =>
      have hne : first :: rest ≠ [] := List.cons_ne_nil _ _
      simp only [hspan, List.isEmpty_cons, Bool.false_eq_true, if_false, Option.some.injEq] at h
      rw [← h, String.toList_ofList]
      exact (spanOf_eq_iff hne).mp hspan
  · intro h
    rw [(spanOf_eq_iff h.ne_nil).mpr h, if_neg (by simpa using h.ne_nil), String.ofList_toList]

/-- An answer is recovered from the text between its first and its last brace, if
that is JSON which mentions a field; each field is given its first value that is
not null, and a required one without such a value its default. -/
theorem recoverFields_eq_some_iff (model : OutputModel) (F : JsonFloats) (rawText : String)
    (answer : Fields) :
    model.recoverFields F rawText = some answer ↔
      ∃ (span : String) (payload : Json) (given : Fields),
        Spans rawText.toList span.toList ∧ loads F span = .ok payload ∧
          model.mentions payload ≠ [] ∧ (given.map Prod.fst).Nodup ∧
            (∀ name, given.lookup name = model.given payload name) ∧
              model.validate given = some answer := by
  unfold recoverFields
  constructor
  · intro h
    cases hspan : braceSpan rawText with
    | none => simp [hspan] at h
    | some span =>
      cases hloads : loads F span with
      | error error => simp [hspan, hloads] at h
      | ok payload =>
        simp only [hspan, hloads] at h
        by_cases hempty : (model.collect payload .empty).isEmpty = true
        · simp [hempty] at h
        · rw [if_neg hempty] at h
          rw [isEmpty_collect] at hempty
          exact ⟨span, payload, _, braceSpan_eq_some_iff.mp hspan, hloads, hempty,
            OrderedDict.nodup _, get?_complete payload, h⟩
  · rintro ⟨span, payload, fields, hspan, hloads, hmentions, hnodup, hgiven, hvalid⟩
    have hperm : (model.complete (model.collect payload .empty)).entries.Perm fields :=
      perm_of_lookup_eq (OrderedDict.nodup _) hnodup fun name =>
        (get?_complete payload name).trans (hgiven name).symm
    simp only [braceSpan_eq_some_iff.mpr hspan, hloads]
    rw [if_neg (mt (isEmpty_collect payload).mp hmentions), model.validate_perm hperm, hvalid]

end OutputModel

end VirtualContributor.Graph
