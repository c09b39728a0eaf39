import VirtualContributor.Evaluation.RunRecord
import VirtualContributor.Lib.JsonLines

/-!
# The golden test set

`evaluation/dataset.py`: a test set is a file of JSON lines, one case in each.
`load_test_set` reads it, `validate_test_set` reports what is wrong with it and
`write_test_cases` writes it.

A file that was written is read as the cases that were written
(`loadTestSet_writeTestCases`), and the two readers agree on every file
(`validateTestSet_eq_nil_iff`).  Logging is left out, and a file is its text.
-/

namespace VirtualContributor.Evaluation

open Lib

/-! ## Cases -/

inductive Category where
  | documentation
  | buildingAlkemio
  | designThinker
deriving DecidableEq

def Category.text : Category → String
  | documentation => "documentation"
  | buildingAlkemio => "building-alkemio"
  | designThinker => "design-thinker"

def Category.ofJson? : Json → Option Category
  | .str "documentation" => some .documentation
  | .str "building-alkemio" => some .buildingAlkemio
  | .str "design-thinker" => some .designThinker
  | _ => none

def AssertionKind.text : AssertionKind → String
  | contains => "contains"
  | containsAll => "contains_all"

def AssertionKind.ofJson? : Json → Option AssertionKind
  | .str "contains" => some .contains
  | .str "contains_all" => some .containsAll
  | _ => none

/-- A text of at least one character. -/
abbrev NonEmptyText := {text : String // text ≠ ""}

/-- An assertion with at least one value. -/
abbrev CheckedAssertion := {assertion : Assertion // assertion.values ≠ []}

/-- A `TestCase`, with its bounds and its category. -/
structure GoldenCase where
  question : NonEmptyText
  expectedAnswer : NonEmptyText
  relevantDocuments : List String := []
  category : Option Category := none
  assertions : List CheckedAssertion := []
deriving DecidableEq

/-- The part of a case that the evaluation reads. -/
def GoldenCase.testCase (case : GoldenCase) : TestCase where
  question := case.question
  expectedAnswer := case.expectedAnswer
  relevantDocuments := case.relevantDocuments
  assertions := case.assertions.map Subtype.val

section Codecs

variable (F : JsonFloats)

def kindCodec : JsonCodec F AssertionKind :=
  .plain (fun kind => .str kind.text) AssertionKind.ofJson? (fun _ => True)
    (by
      intro kind
      cases kind <;> rfl)
    fun kind _ => .str kind.text

def categoryCodec : JsonCodec F Category :=
  .plain (fun category => .str category.text) Category.ofJson? (fun _ => True)
    (by
      intro category
      cases category <;> rfl)
    fun category _ => .str category.text

def categoryOrNone : JsonCodec F (Option Category) := (categoryCodec F).nullable nofun

def nonEmptyText : JsonCodec F NonEmptyText :=
  JsonCodec.text.checked (· ≠ "") "String should have at least 1 character"

variable {F} in
theorem eq_str_of_read {value : Json} {text : NonEmptyText}
    (h : (nonEmptyText F).read value = .ok text) : value = .str text := by
  obtain ⟨found, hfound, hchecked⟩ := bind_eq_ok.mp h
  cases value with
  | str content =>
    cases hfound
    split at hchecked
    · cases hchecked
      rfl
    · cases hchecked
  | _ => cases hfound

def valuesCodec : JsonCodec F {values : List String // values ≠ []} :=
  JsonCodec.text.list.checked (· ≠ []) "List should have at least 1 item after validation"

namespace CheckedAssertion

def modelDump (assertion : CheckedAssertion) : Fields :=
  [("kind", (kindCodec F).write assertion.val.kind),
    ("values", (valuesCodec F).write ⟨assertion.val.values, assertion.property⟩)]

def ofFields (fields : Fields) : Except ReadError CheckedAssertion := do
  let kind ← (kindCodec F).field fields "kind" none
  let values ← (valuesCodec F).field fields "values" none
  return ⟨⟨kind, values.val⟩, values.property⟩

def codec : JsonCodec F CheckedAssertion :=
  .record (modelDump F) (ofFields F) (fun _ => True)
    (by
      intro assertion
      unfold ofFields
      rw [JsonCodec.field_write (a := assertion.val.kind) _ rfl,
        JsonCodec.field_write (a := ⟨assertion.val.values, assertion.property⟩) _ rfl]
      rfl)
    (fun _ => by
      show ["kind", "values"].Nodup
      decide)
    (by
      intro assertion _
      simp only [modelDump, List.forall_mem_cons]
      refine ⟨(kindCodec F).printable _ trivial,
        (valuesCodec F).printable _ fun _ _ => trivial, nofun⟩)

end CheckedAssertion

namespace GoldenCase

def relevantCodec : JsonCodec F (List String) := JsonCodec.text.list

def assertionsCodec : JsonCodec F (List CheckedAssertion) := (CheckedAssertion.codec F).list

/-- `model_dump(exclude_defaults=True)`. -/
def modelDump (case : GoldenCase) : Fields :=
  ("question", (nonEmptyText F).write case.question) ::
    ("expected_answer", (nonEmptyText F).write case.expectedAnswer) ::
    ((relevantCodec F).unlessDefault "relevant_documents" [] case.relevantDocuments ++
      ((categoryOrNone F).unlessDefault "category" none case.category ++
        (assertionsCodec F).unlessDefault "assertions" [] case.assertions))

def ofFields (fields : Fields) : Except ReadError GoldenCase := do
  let question ← (nonEmptyText F).field fields "question" none
  let expectedAnswer ← (nonEmptyText F).field fields "expected_answer" none
  let relevantDocuments ← (relevantCodec F).field fields "relevant_documents" (some [])
  let category ← (categoryOrNone F).field fields "category" (some none)
  let assertions ← (assertionsCodec F).field fields "assertions" (some [])
  return { question, expectedAnswer, relevantDocuments, category, assertions }

section Lookups

variable (case : GoldenCase)

theorem lookup_relevant : (modelDump F case).lookup "relevant_documents" =
    ((relevantCodec F).unlessDefault "relevant_documents" [] case.relevantDocuments).lookup
      "relevant_documents" := by
  simp [modelDump, List.lookup_cons, List.lookup_append, JsonCodec.lookup_unlessDefault]

theorem lookup_category : (modelDump F case).lookup "category" =
    ((categoryOrNone F).unlessDefault "category" none case.category).lookup "category" := by
  simp [modelDump, List.lookup_cons, List.lookup_append, JsonCodec.lookup_unlessDefault]

theorem lookup_assertions : (modelDump F case).lookup "assertions" =
    ((assertionsCodec F).unlessDefault "assertions" [] case.assertions).lookup "assertions" := by
  simp [modelDump, List.lookup_cons, List.lookup_append, JsonCodec.lookup_unlessDefault]

/-- The fields that are written are the fields that are read. -/
theorem ofFields_modelDump : ofFields F (modelDump F case) = .ok case := by
  unfold ofFields
  rw [JsonCodec.field_write (a := case.question) _ rfl,
    JsonCodec.field_write (a := case.expectedAnswer) _ rfl,
    JsonCodec.field_unlessDefault (relevantCodec F) (lookup_relevant F case),
    JsonCodec.field_unlessDefault (categoryOrNone F) (lookup_category F case),
    JsonCodec.field_unlessDefault (assertionsCodec F) (lookup_assertions F case)]
  rfl

theorem nodup_modelDump : ((modelDump F case).map Prod.fst).Nodup := by
  simp only [modelDump, JsonCodec.unlessDefault, List.map_cons, List.map_append]
  split_ifs <;> simp

theorem printable_modelDump : ∀ field ∈ modelDump F case, F.Printable field.2 := by
  simp only [modelDump, List.forall_mem_cons, List.forall_mem_append]
  refine ⟨(nonEmptyText F).printable _ trivial, (nonEmptyText F).printable _ trivial, ?_, ?_, ?_⟩
  · exact JsonCodec.printable_unlessDefault _ fun _ _ => trivial
  · exact JsonCodec.printable_unlessDefault _ fun _ _ => trivial
  · exact JsonCodec.printable_unlessDefault _ fun _ _ => trivial

end Lookups

variable {F} in
/-- A case that was read has the question of the object. -/
theorem lookup_question {fields : Fields} {case : GoldenCase} (h : ofFields F fields = .ok case) :
    fields.lookup "question" = some (.str case.question) := by
  unfold ofFields at h
  obtain ⟨question, hquestion, h⟩ := bind_eq_ok.mp h
  obtain ⟨_, _, h⟩ := bind_eq_ok.mp h
  obtain ⟨_, _, h⟩ := bind_eq_ok.mp h
  obtain ⟨_, _, h⟩ := bind_eq_ok.mp h
  obtain ⟨_, _, h⟩ := bind_eq_ok.mp h
  cases h
  unfold JsonCodec.field at hquestion
  split at hquestion
  · cases hquestion
  · next value hvalue =>
    split at hquestion
    · next a ha =>
      cases hquestion
      rw [hvalue, eq_str_of_read ha]
    · cases hquestion

def codec : JsonCodec F GoldenCase :=
  .record (modelDump F) (ofFields F) (fun _ => True) (ofFields_modelDump F) (nodup_modelDump F)
    fun case _ => printable_modelDump F case

end GoldenCase

end Codecs

/-! ## Reading and writing -/

/-- How `load_test_set` raises. -/
inductive DatasetError where
  | fileNotFound (message : String)
  | value (message : String)
deriving DecidableEq

/-- Why a line is no case. -/
inductive LineError where
  | load (error : LoadError)
  | validation (error : ReadError)
deriving DecidableEq

/-- The libraries: floats, and `str(exc)` of what `json.loads` and
`model_validate` raise on a line. -/
structure DatasetHost where
  floats : JsonFloats
  loadText : String → LoadError → String
  validationText : ReadError → String

variable (D : DatasetHost)

/-- `json.loads` and `TestCase.model_validate`. -/
def readLine (line : String) : Except LineError (Json × GoldenCase) :=
  match loads D.floats line with
  | .error exc => .error (.load exc)
  | .ok data =>
    match (GoldenCase.codec D.floats).read data with
    | .error exc => .error (.validation exc)
    | .ok case => .ok (data, case)

/-- `str(exc)`. -/
def LineError.text (line : String) : LineError → String
  | load exc => D.loadText line exc
  | validation exc => D.validationText exc

/-- One line of the loop of `load_test_set`: the cases and the errors so far. -/
def loadLine (acc : List GoldenCase × List String) (line : String × Nat) :
    List GoldenCase × List String :=
  match readLine D line.1 with
  | .error exc => (acc.1, acc.2 ++ [s!"Line {line.2}: {exc.text D line.1}"])
  | .ok (_, case) => (acc.1 ++ [case], acc.2)

/-- `load_test_set`, of the file at the path if there is one. -/
def loadTestSet (path : String) (file : Option String) : Except DatasetError (List GoldenCase) :=
  match file with
  | none => .error (.fileNotFound s!"Test set not found: {path}")
  | some file =>
    let (cases, errors) := (contentLines file).foldl (loadLine D) ([], [])
    if errors ≠ [] then
      .error (.value ("Test set validation errors:\n" ++ "\n".intercalate errors))
    else if cases = [] then .error (.value s!"Test set is empty: {path}")
    else .ok cases

/-- `data.get("question", "")`, of data that is a case. -/
def questionOf (data : Json) : String :=
  match data.get? "question" with
  | some (.str question) => question
  | _ => ""

/-- One line of the loop of `validate_test_set`: the questions seen and the
issues so far. -/
def validateLine (acc : List String × List String) (line : String × Nat) :
    List String × List String :=
  match readLine D line.1 with
  | .error (.load .decode) =>
    (acc.1, acc.2 ++ [s!"Line {line.2}: invalid JSON — {D.loadText line.1 .decode}"])
  | .error exc => (acc.1, acc.2 ++ [s!"Line {line.2}: validation error — {exc.text D line.1}"])
  | .ok (data, _) =>
    let q := questionOf data
    (acc.1 ++ [q], if q ∈ acc.1 then
      acc.2 ++ [s!"Line {line.2}: duplicate question — {String.ofList (q.toList.take 60)}"]
      else acc.2)

/-- `validate_test_set`. -/
def validateTestSet (path : String) (file : Option String) : List String :=
  match file with
  | none => [s!"File not found: {path}"]
  | some file => ((contentLines file).foldl (validateLine D) ([], [])).2

/-- `model_dump_json`. -/
def compactStyle : JsonStyle where
  ensureAscii := false
  itemBlanks := 0
  keyBlanks := 0

def modelDumpJson (case : GoldenCase) : String :=
  compactStyle.dumps D.floats (.obj (GoldenCase.modelDump D.floats case))

/-- The file that `write_test_cases` writes. -/
def writeTestCases (cases : List GoldenCase) : String := linesOf (cases.map (modelDumpJson D))

/-- `filter_by_category`. -/
def filterByCategory (cases : List GoldenCase) (category : Category) : List GoldenCase :=
  cases.filter fun case => case.category = some category

/-! ## The two readers -/

section Readers

variable {D} {path file : String} {lines : List (String × Nat)} {cases : List GoldenCase}

/-- The lines hold the cases. -/
def Hold (D : DatasetHost) (lines : List (String × Nat)) (cases : List GoldenCase) : Prop :=
  List.Forall₂ (fun line case => ∃ data, readLine D line.1 = .ok (data, case)) lines cases

theorem hold_cons_iff {line : String × Nat} :
    Hold D (line :: lines) cases ↔ ∃ data case rest, readLine D line.1 = .ok (data, case) ∧
      Hold D lines rest ∧ cases = case :: rest := by
  unfold Hold
  rw [List.forall₂_cons_left_iff]
  constructor
  · intro h
    obtain ⟨case, rest, ⟨data, hline⟩, hrest, rfl⟩ := h
    exact ⟨data, case, rest, hline, hrest, rfl⟩
  · intro h
    obtain ⟨data, case, rest, hline, hrest, rfl⟩ := h
    exact ⟨case, rest, ⟨data, hline⟩, hrest, rfl⟩

/-- A fold whose second part only grows. -/
theorem snd_eq_nil_of_foldl {β γ : Type} {f : List β × List String → γ → List β × List String}
    (hf : ∀ acc x, (f acc x).2 = [] → acc.2 = []) {xs : List γ} {acc : List β × List String}
    (h : (xs.foldl f acc).2 = []) : acc.2 = [] := by
  induction xs generalizing acc with
  | nil => exact h
  | cons x xs ih => exact hf acc x (ih h)

/-! ### `load_test_set` -/

theorem loadLine_ok {acc : List GoldenCase × List String} {line : String × Nat} {data : Json}
    {case : GoldenCase} (h : readLine D line.1 = .ok (data, case)) :
    loadLine D acc line = (acc.1 ++ [case], acc.2) := by
  simp only [loadLine, h]

theorem loadLine_grows (acc : List GoldenCase × List String) (line : String × Nat)
    (h : (loadLine D acc line).2 = []) :
    acc.2 = [] ∧ ∃ data case, readLine D line.1 = .ok (data, case) := by
  unfold loadLine at h
  split at h
  · simp at h
  · next data case hline => exact ⟨h, data, case, hline⟩

theorem hold_of_load {acc : List GoldenCase × List String}
    (h : (lines.foldl (loadLine D) acc).2 = []) :
    ∃ cases, Hold D lines cases ∧ (lines.foldl (loadLine D) acc).1 = acc.1 ++ cases := by
  induction lines generalizing acc with
  | nil => exact ⟨[], .nil, (List.append_nil _).symm⟩
  | cons line lines ih =>
    obtain ⟨cases, hcases, hresult⟩ := ih h
    have hgrows : (loadLine D acc line).2 = [] :=
      snd_eq_nil_of_foldl (fun acc line h => (loadLine_grows acc line h).1) h
    obtain ⟨_, data, case, hline⟩ := loadLine_grows acc line hgrows
    refine ⟨case :: cases, hold_cons_iff.mpr ⟨data, case, cases, hline, hcases, rfl⟩, ?_⟩
    rw [List.foldl_cons, hresult, loadLine_ok hline, List.append_assoc, List.singleton_append]

theorem load_of_hold (h : Hold D lines cases) (acc : List GoldenCase × List String) :
    lines.foldl (loadLine D) acc = (acc.1 ++ cases, acc.2) := by
  induction lines generalizing acc cases with
  | nil =>
    cases h
    simp
  | cons line lines ih =>
    obtain ⟨data, case, rest, hline, hrest, rfl⟩ := hold_cons_iff.mp h
    rw [List.foldl_cons, loadLine_ok hline, ih hrest, List.append_assoc, List.singleton_append]

/-- The loader returns the cases of the lines, if each line is a case and there
is one. -/
theorem loadTestSet_eq_ok_iff :
    loadTestSet D path (some file) = .ok cases ↔ Hold D (contentLines file) cases ∧ cases ≠ [] := by
  unfold loadTestSet
  constructor
  · intro h
    simp only at h
    split_ifs at h with herrors hempty
    obtain ⟨found, hfound, hresult⟩ := hold_of_load (not_ne_iff.mp herrors)
    rw [hresult] at h hempty
    cases h
    exact ⟨hfound, hempty⟩
  · intro h
    obtain ⟨hhold, hne⟩ := h
    simp [load_of_hold hhold, hne]

/-! ### `validate_test_set` -/

/-- The question of a case is what `data.get` finds. -/
theorem questionOf_readLine {line : String} {data : Json} {case : GoldenCase}
    (h : readLine D line = .ok (data, case)) : questionOf data = case.question := by
  unfold readLine at h
  split at h
  · cases h
  · split at h
    · cases h
    · next read hread =>
      cases h
      cases data with
      | obj fields =>
        have hlookup := GoldenCase.lookup_question hread
        simp only [questionOf, Json.get?, hlookup]
      | _ => cases hread

theorem validateLine_ok {acc : List String × List String} {line : String × Nat} {data : Json}
    {case : GoldenCase} (h : readLine D line.1 = .ok (data, case))
    (hnew : case.question.val ∉ acc.1) :
    validateLine D acc line = (acc.1 ++ [case.question.val], acc.2) := by
  simp only [validateLine, h, questionOf_readLine h, if_neg hnew]

theorem validateLine_grows (acc : List String × List String) (line : String × Nat)
    (h : (validateLine D acc line).2 = []) :
    acc.2 = [] ∧ ∃ data case, readLine D line.1 = .ok (data, case) ∧
      case.question.val ∉ acc.1 := by
  unfold validateLine at h
  split at h
  · simp at h
  · simp at h
  · next data case hline =>
    simp only [questionOf_readLine hline] at h
    split at h
    · simp at h
    · next hnew => exact ⟨h, data, case, hline, hnew⟩

theorem hold_of_validate {acc : List String × List String}
    (h : (lines.foldl (validateLine D) acc).2 = []) :
    ∃ cases : List GoldenCase, Hold D lines cases ∧
      (cases.map fun case => case.question.val).Nodup ∧
      ∀ case ∈ cases, case.question.val ∉ acc.1 := by
  induction lines generalizing acc with
  | nil => exact ⟨[], .nil, List.nodup_nil, by simp⟩
  | cons line lines ih =>
    obtain ⟨cases, hcases, hnodup, hnew⟩ := ih h
    have hgrows : (validateLine D acc line).2 = [] :=
      snd_eq_nil_of_foldl (fun acc line h => (validateLine_grows acc line h).1) h
    obtain ⟨_, data, case, hline, hfirst⟩ := validateLine_grows acc line hgrows
    rw [validateLine_ok hline hfirst] at hnew
    refine ⟨case :: cases, hold_cons_iff.mpr ⟨data, case, cases, hline, hcases, rfl⟩, ?_, ?_⟩
    · rw [List.map_cons, List.nodup_cons, List.mem_map]
      refine ⟨?_, hnodup⟩
      intro hmem
      obtain ⟨other, hother, heq⟩ := hmem
      exact hnew other hother (by simp [heq])
    · intro other hother
      rcases List.mem_cons.mp hother with rfl | hother
      · exact hfirst
      · intro hmem
        exact hnew other hother (List.mem_append_left _ hmem)

theorem validate_of_hold (h : Hold D lines cases) {acc : List String × List String}
    (hnodup : (cases.map fun case => case.question.val).Nodup)
    (hnew : ∀ case ∈ cases, case.question.val ∉ acc.1) :
    (lines.foldl (validateLine D) acc).2 = acc.2 := by
  induction lines generalizing acc cases with
  | nil => rfl
  | cons line lines ih =>
    obtain ⟨data, case, rest, hline, hrest, rfl⟩ := hold_cons_iff.mp h
    obtain ⟨hfirst, hnew⟩ := List.forall_mem_cons.mp hnew
    rw [List.map_cons, List.nodup_cons] at hnodup
    rw [List.foldl_cons, validateLine_ok hline hfirst]
    refine ih hrest hnodup.2 ?_
    intro other hother hmem
    rcases List.mem_append.mp hmem with hmem | hmem
    · exact hnew other hother hmem
    · exact hnodup.1 (List.mem_map.mpr ⟨other, hother, List.mem_singleton.mp hmem⟩)

theorem Hold.unique {cases' : List GoldenCase} (h : Hold D lines cases)
    (h' : Hold D lines cases') : cases = cases' := by
  have hload := (load_of_hold h ([], [])).symm.trans (load_of_hold h' ([], []))
  simpa using hload

/-- The validator accepts lines that hold cases if their questions differ. -/
theorem Hold.validate_iff (h : Hold D (contentLines file) cases) :
    validateTestSet D path (some file) = [] ↔
      (cases.map fun case => case.question.val).Nodup := by
  constructor
  · intro hvalid
    obtain ⟨found, hfound, hnodup, _⟩ := hold_of_validate hvalid
    rw [h.unique hfound]
    exact hnodup
  · intro hnodup
    exact validate_of_hold h hnodup (by simp)

/-- The validator accepts a file if it is blank or the loader reads it as cases
with different questions. -/
theorem validateTestSet_eq_nil_iff :
    validateTestSet D path (some file) = [] ↔ contentLines file = [] ∨
      ∃ cases, loadTestSet D path (some file) = .ok cases ∧
        (cases.map fun case => case.question.val).Nodup := by
  constructor
  · intro h
    obtain ⟨cases, hhold, hnodup, _⟩ := hold_of_validate h
    by_cases hcases : cases = []
    · subst hcases
      exact Or.inl (List.forall₂_nil_right_iff.mp hhold)
    · exact Or.inr ⟨cases, loadTestSet_eq_ok_iff.mpr ⟨hhold, hcases⟩, hnodup⟩
  · intro h
    rcases h with hblank | ⟨cases, hload, hnodup⟩
    · simp [validateTestSet, hblank]
    · exact (loadTestSet_eq_ok_iff.mp hload).1.validate_iff.mpr hnodup

end Readers

/-! ## Round trip -/

section RoundTrip

variable {D} {path : String} {cases : List GoldenCase}

theorem printable_case (case : GoldenCase) :
    D.floats.Printable (.obj (GoldenCase.modelDump D.floats case)) :=
  (GoldenCase.codec D.floats).printable case trivial

/-- The line of a case holds the case. -/
theorem readLine_modelDumpJson (case : GoldenCase) :
    readLine D (modelDumpJson D case) =
      .ok (.obj (GoldenCase.modelDump D.floats case), case) := by
  have hread : (GoldenCase.codec D.floats).read (.obj (GoldenCase.modelDump D.floats case)) =
      .ok case := (GoldenCase.codec D.floats).read_write case
  simp only [readLine, modelDumpJson, JsonStyle.loads_dumps compactStyle (printable_case case),
    hread]

theorem contentLines_writeTestCases :
    contentLines (writeTestCases D cases) = (cases.map (modelDumpJson D)).zipIdx 1 := by
  refine contentLines_linesOf ?_
  intro line hline
  obtain ⟨case, _, rfl⟩ := List.mem_map.mp hline
  exact JsonStyle.plainLine_dumps rfl (printable_case case)

theorem hold_writeTestCases (n : Nat) :
    Hold D ((cases.map (modelDumpJson D)).zipIdx n) cases := by
  induction cases generalizing n with
  | nil => exact .nil
  | cons case cases ih => exact .cons ⟨_, readLine_modelDumpJson case⟩ (ih (n + 1))

/-- A file that was written is read as the cases that were written, and is valid
if their questions differ. -/
theorem loadTestSet_writeTestCases (D : DatasetHost) (path : String) (cases : List GoldenCase) :
    loadTestSet D path (some (writeTestCases D cases)) =
        (if cases = [] then .error (.value s!"Test set is empty: {path}") else .ok cases) ∧
      (validateTestSet D path (some (writeTestCases D cases)) = [] ↔
        (cases.map fun case => case.question.val).Nodup) := by
  have hhold : Hold D (contentLines (writeTestCases D cases)) cases := by
    rw [contentLines_writeTestCases]
    exact hold_writeTestCases 1
  refine ⟨?_, hhold.validate_iff⟩
  split
  · next hempty =>
    subst hempty
    rfl
  · next hne => exact loadTestSet_eq_ok_iff.mpr ⟨hhold, hne⟩

end RoundTrip

end VirtualContributor.Evaluation
