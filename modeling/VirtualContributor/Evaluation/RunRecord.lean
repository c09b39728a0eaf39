import VirtualContributor.Evaluation.CaseIdentity
import VirtualContributor.Lib.JsonCodec

/-!
# Evaluation runs and their files

The records of `evaluation/report.py`: an `EvaluationRun` with its cases, the
JSON file it is written to and the strict reading of such a file.
-/

namespace VirtualContributor.Evaluation

open Lib

/-- How the code fails: a `ValueError` of its own, pydantic's `ValidationError`, or the
`ValueError` of an integer with too many digits. -/
inductive EvaluationError where
  | value (message : String)
  | validation (error : ReadError)
  | tooManyDigits
deriving DecidableEq

/-! ## Plain fields -/

section

variable (E : EvaluationHost)

def intCodec : JsonCodec E.floats.toJsonFloats Int :=
  .plain .int E.pydantic.int? (fun n => (Nat.toDigits 10 n.natAbs).length ≤ MAX_STR_DIGITS)
    E.pydantic.int?_int .int

def floatCodec : JsonCodec E.floats.toJsonFloats E.floats.Float :=
  .plain (fun x => .float x.val) E.pydantic.float? (fun _ => True) E.pydantic.float?_float
    fun x _ => .float _ x.property

def boolCodec : JsonCodec E.floats.toJsonFloats Bool :=
  .plain .bool E.pydantic.bool? (fun _ => True) E.pydantic.bool?_bool fun b _ => .bool b

def textCodec : JsonCodec E.floats.toJsonFloats String := .text

/-- `str | None` -/
def textOrNone : JsonCodec E.floats.toJsonFloats (Option String) :=
  JsonCodec.text.nullable nofun

/-- `list[str]` -/
def texts : JsonCodec E.floats.toJsonFloats (List String) := JsonCodec.text.list

end

/-! ## The parts of a case -/

variable {E : EvaluationHost}

structure SourceInfo (E : EvaluationHost) where
  uri : Option String
  title : Option String
  score : Option E.floats.Float
deriving DecidableEq

namespace SourceInfo

def scoreOrNone (E : EvaluationHost) :
    JsonCodec E.floats.toJsonFloats (Option E.floats.Float) :=
  (floatCodec E).nullable nofun

def modelDump (source : SourceInfo E) : Fields :=
  [("uri", (textOrNone E).write source.uri), ("title", (textOrNone E).write source.title),
    ("score", (scoreOrNone E).write source.score)]

def ofFields (E : EvaluationHost) (fields : Fields) : Except ReadError (SourceInfo E) := do
  let uri ← (textOrNone E).field fields "uri" (some none)
  let title ← (textOrNone E).field fields "title" (some none)
  let score ← (scoreOrNone E).field fields "score" (some none)
  return { uri, title, score }

def codec (E : EvaluationHost) : JsonCodec E.floats.toJsonFloats (SourceInfo E) :=
  .record modelDump (ofFields E) (fun _ => True)
    (by
      intro source
      unfold ofFields
      rw [JsonCodec.field_write (a := source.uri) _ rfl,
        JsonCodec.field_write (a := source.title) _ rfl,
        JsonCodec.field_write (a := source.score) _ rfl]
      rfl)
    (fun _ => by
      show ["uri", "title", "score"].Nodup
      decide)
    (by
      intro source _
      simp only [modelDump, List.forall_mem_cons]
      refine ⟨(textOrNone E).printable _ fun _ _ => trivial,
        (textOrNone E).printable _ fun _ _ => trivial,
        (scoreOrNone E).printable _ fun _ _ => trivial, nofun⟩)

end SourceInfo

def AssertionStatus.text : AssertionStatus → String
  | .passed => "passed"
  | .failed => "failed"
  | .notApplicable => "not_applicable"

def AssertionStatus.ofJson? : Json → Option AssertionStatus
  | .str "passed" => some .passed
  | .str "failed" => some .failed
  | .str "not_applicable" => some .notApplicable
  | _ => none

/-- `Literal["passed", "failed", "not_applicable"]` -/
def statusCodec (F : JsonFloats) : JsonCodec F AssertionStatus :=
  .plain (fun status => .str status.text) AssertionStatus.ofJson? (fun _ => True)
    (by
      intro status
      cases status <;> rfl)
    fun status _ => .str status.text

namespace AssertionOutcome

def modelDump (F : JsonFloats) (outcome : AssertionOutcome) : Fields :=
  [("status", (statusCodec F).write outcome.status),
    ("missing", (@JsonCodec.text F).list.write outcome.missing)]

def ofFields (F : JsonFloats) (fields : Fields) : Except ReadError AssertionOutcome := do
  let status ← (statusCodec F).field fields "status" none
  let missing ← (@JsonCodec.text F).list.field fields "missing" (some [])
  return { status, missing }

def codec (F : JsonFloats) : JsonCodec F AssertionOutcome :=
  .record (modelDump F) (ofFields F) (fun _ => True)
    (by
      intro outcome
      unfold ofFields
      rw [JsonCodec.field_write (a := outcome.status) _ rfl,
        JsonCodec.field_write (a := outcome.missing) _ rfl]
      rfl)
    (fun _ => by
      show ["status", "missing"].Nodup
      decide)
    (by
      intro outcome _
      simp only [modelDump, List.forall_mem_cons]
      refine ⟨(statusCodec F).printable _ trivial,
        (@JsonCodec.text F).list.printable _ fun _ _ => trivial, nofun⟩)

end AssertionOutcome

/-! ## Cases -/

/-- The fields of a case. -/
structure CaseRecord (E : EvaluationHost) where
  index : Int
  question : String
  expectedAnswer : String
  relevantDocuments : List String
  pipelineAnswer : Option String := none
  retrievedContexts : List String := []
  retrievedSources : List (SourceInfo E) := []
  scores : Option (MetricScores E.floats) := none
  assertionOutcome : Option AssertionOutcome := none
  durationSeconds : E.floats.Float
  error : Option String := none
deriving DecidableEq

/-- A case without an error has its scores, all four of them. -/
def CaseRecord.Complete (record : CaseRecord E) : Prop :=
  record.error = none → ∃ scores, record.scores = some scores ∧
    ∃ canonical, canonicalMetricScores E.floats scores.modelDump = .ok canonical

/-- A completed evaluation of a single test case. -/
structure EvaluationCase (E : EvaluationHost) extends CaseRecord E where
  complete : toCaseRecord.Complete
deriving DecidableEq

namespace EvaluationCase

/-- `_successful_case_has_complete_scores` -/
def validate (record : CaseRecord E) : Except String (EvaluationCase E) :=
  match herror : record.error with
  | some _ => .ok ⟨record, fun h => absurd (herror.symm.trans h) nofun⟩
  | none =>
    match hscores : record.scores with
    | none => .error "Successful evaluation case requires metric scores"
    | some scores =>
      match hcanonical : canonicalMetricScores E.floats scores.modelDump with
      | .error message => .error message
      | .ok canonical => .ok ⟨record, fun _ => ⟨scores, hscores, canonical, hcanonical⟩⟩

theorem validate_toCaseRecord (case : EvaluationCase E) :
    validate case.toCaseRecord = .ok case := by
  unfold validate
  split
  · rfl
  · next herror =>
    obtain ⟨scores, hscores, canonical, hcanonical⟩ := case.complete herror
    split
    · next hnone =>
      rw [hnone] at hscores
      cases hscores
    · next scores' hscores' =>
      obtain rfl : scores = scores' := Option.some.inj (hscores.symm.trans hscores')
      split
      · next hfails =>
        rw [hfails] at hcanonical
        cases hcanonical
      · rfl

theorem toCaseRecord_of_validate {record : CaseRecord E} {case : EvaluationCase E}
    (h : validate record = .ok case) : case.toCaseRecord = record := by
  unfold validate at h
  split at h
  · cases h
    rfl
  · split at h
    · cases h
    · split at h
      · cases h
      · cases h
        rfl

def scoresOrNone (E : EvaluationHost) :
    JsonCodec E.floats.toJsonFloats (Option (MetricScores E.floats)) :=
  (MetricScores.codec E.floats).nullable nofun

def outcomeOrNone (E : EvaluationHost) :
    JsonCodec E.floats.toJsonFloats (Option AssertionOutcome) :=
  (AssertionOutcome.codec E.floats.toJsonFloats).nullable nofun

def modelDump (case : EvaluationCase E) : Fields :=
  [("index", (intCodec E).write case.index), ("question", .str case.question),
    ("expected_answer", .str case.expectedAnswer),
    ("relevant_documents", (texts E).write case.relevantDocuments),
    ("pipeline_answer", (textOrNone E).write case.pipelineAnswer),
    ("retrieved_contexts", (texts E).write case.retrievedContexts),
    ("retrieved_sources", (SourceInfo.codec E).list.write case.retrievedSources),
    ("scores", (scoresOrNone E).write case.scores),
    ("assertion_outcome", (outcomeOrNone E).write case.assertionOutcome),
    ("duration_seconds", (floatCodec E).write case.durationSeconds),
    ("error", (textOrNone E).write case.error)]

/-- `EvaluationCase.model_fields` -/
def MODEL_FIELDS : List String :=
  ["index", "question", "expected_answer", "relevant_documents", "pipeline_answer",
    "retrieved_contexts", "retrieved_sources", "scores", "assertion_outcome", "duration_seconds",
    "error"]

def ofFields (E : EvaluationHost) (fields : Fields) : Except ReadError (EvaluationCase E) := do
  let index ← (intCodec E).field fields "index" none
  let question ← (textCodec E).field fields "question" none
  let expectedAnswer ← (textCodec E).field fields "expected_answer" none
  let relevantDocuments ← (texts E).field fields "relevant_documents" none
  let pipelineAnswer ← (textOrNone E).field fields "pipeline_answer" (some none)
  let retrievedContexts ← (texts E).field fields "retrieved_contexts" (some [])
  let retrievedSources ← (SourceInfo.codec E).list.field fields "retrieved_sources" (some [])
  let scores ← (scoresOrNone E).field fields "scores" (some none)
  let assertionOutcome ← (outcomeOrNone E).field fields "assertion_outcome" (some none)
  let durationSeconds ← (floatCodec E).field fields "duration_seconds" none
  let error ← (textOrNone E).field fields "error" (some none)
  let record : CaseRecord E :=
    { index, question, expectedAnswer, relevantDocuments, pipelineAnswer, retrievedContexts,
      retrievedSources, scores, assertionOutcome, durationSeconds, error }
  (validate record).mapError fun message => ⟨[], .refused message⟩

theorem ofFields_modelDump (case : EvaluationCase E) : ofFields E case.modelDump = .ok case := by
  unfold ofFields
  rw [JsonCodec.field_write (a := case.index) _ rfl,
    JsonCodec.field_write (a := case.question) _ rfl,
    JsonCodec.field_write (a := case.expectedAnswer) _ rfl,
    JsonCodec.field_write (a := case.relevantDocuments) _ rfl,
    JsonCodec.field_write (a := case.pipelineAnswer) _ rfl,
    JsonCodec.field_write (a := case.retrievedContexts) _ rfl,
    JsonCodec.field_write (a := case.retrievedSources) _ rfl,
    JsonCodec.field_write (a := case.scores) _ rfl,
    JsonCodec.field_write (a := case.assertionOutcome) _ rfl,
    JsonCodec.field_write (a := case.durationSeconds) _ rfl,
    JsonCodec.field_write (a := case.error) _ rfl]
  show (validate case.toCaseRecord).mapError _ = _
  rw [validate_toCaseRecord]
  rfl

def codec (E : EvaluationHost) : JsonCodec E.floats.toJsonFloats (EvaluationCase E) :=
  .record modelDump (ofFields E) (fun case => (intCodec E).fits case.index) ofFields_modelDump
    (fun _ => by
      show MODEL_FIELDS.Nodup
      decide)
    (by
      intro case h
      simp only [modelDump, List.forall_mem_cons]
      refine ⟨(intCodec E).printable _ h, .str _, .str _,
        (texts E).printable _ fun _ _ => trivial, (textOrNone E).printable _ fun _ _ => trivial,
        (texts E).printable _ fun _ _ => trivial,
        (SourceInfo.codec E).list.printable _ fun _ _ => trivial,
        (scoresOrNone E).printable _ fun _ _ => trivial,
        (outcomeOrNone E).printable _ fun _ _ => trivial,
        (floatCodec E).printable _ trivial, (textOrNone E).printable _ fun _ _ => trivial, nofun⟩)

end EvaluationCase

/-! ## Runs -/

/-- A complete evaluation run persisted as JSON. -/
structure EvaluationRun (E : EvaluationHost) where
  id : String
  timestamp : String
  label : Option String
  pluginType : String
  compositionFingerprint : Option String
  compositionIdentityVersion : Option Int
  caseIdentityVersion : Option String
  hierarchyMode : Option String
  testSetDigest : Option String
  bodyOfKnowledgeDigest : Option String
  corpusRevision : Option String
  successfulCaseDigests : Option (List String)
  invariantCompositionFingerprint : Option String
  fullCompositionFingerprint : Option String
  testSetPath : String
  testCaseCount : Int
  successCount : Int
  failureCount : Int
  durationSeconds : E.floats.Float
  aggregate : List (String × AggregateMetrics E.floats)
  cases : List (EvaluationCase E)
  categoryScope : Option String
  categoryScopeMissingBodyOfKnowledge : Bool
deriving DecidableEq

namespace EvaluationRun

def intOrNone (E : EvaluationHost) : JsonCodec E.floats.toJsonFloats (Option Int) :=
  (intCodec E).nullable nofun

def textsOrNone (E : EvaluationHost) : JsonCodec E.floats.toJsonFloats (Option (List String)) :=
  (texts E).nullable nofun

def aggregates (E : EvaluationHost) :
    JsonCodec E.floats.toJsonFloats (List (String × AggregateMetrics E.floats)) :=
  (AggregateMetrics.codec E.floats).dict

def modelDump (run : EvaluationRun E) : Fields :=
  [("id", .str run.id), ("timestamp", .str run.timestamp),
    ("label", (textOrNone E).write run.label), ("plugin_type", .str run.pluginType),
    ("composition_fingerprint", (textOrNone E).write run.compositionFingerprint),
    ("composition_identity_version", (intOrNone E).write run.compositionIdentityVersion),
    ("case_identity_version", (textOrNone E).write run.caseIdentityVersion),
    ("hierarchy_mode", (textOrNone E).write run.hierarchyMode),
    ("test_set_digest", (textOrNone E).write run.testSetDigest),
    ("body_of_knowledge_digest", (textOrNone E).write run.bodyOfKnowledgeDigest),
    ("corpus_revision", (textOrNone E).write run.corpusRevision),
    ("successful_case_digests", (textsOrNone E).write run.successfulCaseDigests),
    ("invariant_composition_fingerprint",
      (textOrNone E).write run.invariantCompositionFingerprint),
    ("full_composition_fingerprint", (textOrNone E).write run.fullCompositionFingerprint),
    ("test_set_path", .str run.testSetPath),
    ("test_case_count", (intCodec E).write run.testCaseCount),
    ("success_count", (intCodec E).write run.successCount),
    ("failure_count", (intCodec E).write run.failureCount),
    ("duration_seconds", (floatCodec E).write run.durationSeconds),
    ("aggregate", (aggregates E).write run.aggregate),
    ("cases", (EvaluationCase.codec E).list.write run.cases),
    ("category_scope", (textOrNone E).write run.categoryScope),
    ("category_scope_missing_body_of_knowledge",
      (boolCodec E).write run.categoryScopeMissingBodyOfKnowledge)]

/-- `EvaluationRun.model_fields` -/
def MODEL_FIELDS : List String :=
  ["id", "timestamp", "label", "plugin_type", "composition_fingerprint",
    "composition_identity_version", "case_identity_version", "hierarchy_mode", "test_set_digest",
    "body_of_knowledge_digest", "corpus_revision", "successful_case_digests",
    "invariant_composition_fingerprint", "full_composition_fingerprint", "test_set_path",
    "test_case_count", "success_count", "failure_count", "duration_seconds", "aggregate", "cases",
    "category_scope", "category_scope_missing_body_of_knowledge"]

def ofFields (E : EvaluationHost) (fields : Fields) : Except ReadError (EvaluationRun E) := do
  let id ← (textCodec E).field fields "id" none
  let timestamp ← (textCodec E).field fields "timestamp" none
  let label ← (textOrNone E).field fields "label" (some none)
  let pluginType ← (textCodec E).field fields "plugin_type" none
  let compositionFingerprint ← (textOrNone E).field fields "composition_fingerprint" (some none)
  let compositionIdentityVersion ←
    (intOrNone E).field fields "composition_identity_version" (some none)
  let caseIdentityVersion ← (textOrNone E).field fields "case_identity_version" (some none)
  let hierarchyMode ← (textOrNone E).field fields "hierarchy_mode" (some none)
  let testSetDigest ← (textOrNone E).field fields "test_set_digest" (some none)
  let bodyOfKnowledgeDigest ← (textOrNone E).field fields "body_of_knowledge_digest" (some none)
  let corpusRevision ← (textOrNone E).field fields "corpus_revision" (some none)
  let successfulCaseDigests ← (textsOrNone E).field fields "successful_case_digests" (some none)
  let invariantCompositionFingerprint ←
    (textOrNone E).field fields "invariant_composition_fingerprint" (some none)
  let fullCompositionFingerprint ←
    (textOrNone E).field fields "full_composition_fingerprint" (some none)
  let testSetPath ← (textCodec E).field fields "test_set_path" none
  let testCaseCount ← (intCodec E).field fields "test_case_count" none
  let successCount ← (intCodec E).field fields "success_count" none
  let failureCount ← (intCodec E).field fields "failure_count" none
  let durationSeconds ← (floatCodec E).field fields "duration_seconds" none
  let aggregate ← (aggregates E).field fields "aggregate" none
  let cases ← (EvaluationCase.codec E).list.field fields "cases" none
  let categoryScope ← (textOrNone E).field fields "category_scope" (some none)
  let categoryScopeMissingBodyOfKnowledge ←
    (boolCodec E).field fields "category_scope_missing_body_of_knowledge" (some false)
  return { id, timestamp, label, pluginType, compositionFingerprint, compositionIdentityVersion,
           caseIdentityVersion, hierarchyMode, testSetDigest, bodyOfKnowledgeDigest,
           corpusRevision, successfulCaseDigests, invariantCompositionFingerprint,
           fullCompositionFingerprint, testSetPath, testCaseCount, successCount, failureCount,
           durationSeconds, aggregate, cases, categoryScope,
           categoryScopeMissingBodyOfKnowledge }

theorem ofFields_modelDump (run : EvaluationRun E) : ofFields E run.modelDump = .ok run := by
  unfold ofFields
  rw [JsonCodec.field_write (a := run.id) _ rfl,
    JsonCodec.field_write (a := run.timestamp) _ rfl,
    JsonCodec.field_write (a := run.label) _ rfl,
    JsonCodec.field_write (a := run.pluginType) _ rfl,
    JsonCodec.field_write (a := run.compositionFingerprint) _ rfl,
    JsonCodec.field_write (a := run.compositionIdentityVersion) _ rfl,
    JsonCodec.field_write (a := run.caseIdentityVersion) _ rfl,
    JsonCodec.field_write (a := run.hierarchyMode) _ rfl,
    JsonCodec.field_write (a := run.testSetDigest) _ rfl,
    JsonCodec.field_write (a := run.bodyOfKnowledgeDigest) _ rfl,
    JsonCodec.field_write (a := run.corpusRevision) _ rfl,
    JsonCodec.field_write (a := run.successfulCaseDigests) _ rfl,
    JsonCodec.field_write (a := run.invariantCompositionFingerprint) _ rfl,
    JsonCodec.field_write (a := run.fullCompositionFingerprint) _ rfl,
    JsonCodec.field_write (a := run.testSetPath) _ rfl,
    JsonCodec.field_write (a := run.testCaseCount) _ rfl,
    JsonCodec.field_write (a := run.successCount) _ rfl,
    JsonCodec.field_write (a := run.failureCount) _ rfl,
    JsonCodec.field_write (a := run.durationSeconds) _ rfl,
    JsonCodec.field_write (a := run.aggregate) _ rfl,
    JsonCodec.field_write (a := run.cases) _ rfl,
    JsonCodec.field_write (a := run.categoryScope) _ rfl,
    JsonCodec.field_write (a := run.categoryScopeMissingBodyOfKnowledge) _ rfl]
  rfl

def codec (E : EvaluationHost) : JsonCodec E.floats.toJsonFloats (EvaluationRun E) :=
  .record modelDump (ofFields E)
    (fun run =>
      (intOrNone E).fits run.compositionIdentityVersion ∧ (intCodec E).fits run.testCaseCount ∧
        (intCodec E).fits run.successCount ∧ (intCodec E).fits run.failureCount ∧
        (run.aggregate.map Prod.fst).Nodup ∧ (EvaluationCase.codec E).list.fits run.cases)
    ofFields_modelDump
    (fun _ => by
      show MODEL_FIELDS.Nodup
      decide)
    (by
      intro run h
      obtain ⟨hversion, hcount, hsuccess, hfailure, hkeys, hcases⟩ := h
      have htext : ∀ value, E.floats.Printable ((textOrNone E).write value) :=
        fun value => (textOrNone E).printable value fun _ _ => trivial
      simp only [modelDump, List.forall_mem_cons]
      refine ⟨.str _, .str _, htext _, .str _, htext _, (intOrNone E).printable _ hversion,
        htext _, htext _, htext _, htext _, htext _,
        (textsOrNone E).printable _ fun _ _ _ _ => trivial, htext _, htext _, .str _,
        (intCodec E).printable _ hcount, (intCodec E).printable _ hsuccess,
        (intCodec E).printable _ hfailure, (floatCodec E).printable _ trivial,
        (aggregates E).printable _ ⟨hkeys, fun _ _ => trivial⟩,
        (EvaluationCase.codec E).list.printable _ hcases, htext _,
        (boolCodec E).printable _ trivial, nofun⟩)

end EvaluationRun

/-! ## The file of a run -/

/-- The text of the file that a run is written to: `json.dumps(…, indent=2)`. -/
def persistedText (run : EvaluationRun E) : String :=
  JsonStyle.dumps { indent := some 2, itemBlanks := 0 } E.floats.toJsonFloats
    (.obj run.modelDump)

/-- Whether an object has keys that are no fields of a model. -/
def hasUnknown (fields : Fields) (known : List String) : Bool :=
  fields.any fun field => field.1 ∉ known

/-- `MetricScores.model_fields` -/
def SCORE_FIELDS : List String := METRIC_NAMES.map MetricName.text

/-- What the strict reading asks of a case. -/
def checkCase : Json → Except EvaluationError PUnit
  | .obj case =>
    if hasUnknown case EvaluationCase.MODEL_FIELDS then
      .error (.value "Comparison run case contains unknown fields")
    else
      match case.lookup "scores" with
      | some (.obj scores) =>
        if hasUnknown scores SCORE_FIELDS then
          .error (.value "Comparison run case scores contain unknown fields")
        else .ok ()
      | _ => .ok ()
  | _ => .error (.value "Comparison run case must be an object")

/-- `json.loads(raw_json)` -/
def readJson (E : EvaluationHost) (rawJson : String) : Except EvaluationError Json :=
  match loads E.floats.toJsonFloats rawJson with
  | .ok raw => .ok raw
  | .error .decode => .error (.value "Comparison run JSON is malformed")
  | .error .tooManyDigits => .error .tooManyDigits

/-- Strictly import an untrusted comparison artifact. -/
def loadComparisonRun (E : EvaluationHost) (rawJson : String) :
    Except EvaluationError (EvaluationRun E) := do
  let raw ← readJson E rawJson
  match raw with
  | .obj fields =>
    if hasUnknown fields EvaluationRun.MODEL_FIELDS then
      .error (.value "Comparison run contains unknown fields")
    else
      match fields.lookup "cases" with
      | some (.arr cases) => do
        cases.forM checkCase
        let run ← ((EvaluationRun.codec E).read raw).mapError .validation
        if run.compositionIdentityVersion ≠ some 7 then
          .error (.value "Comparison runs require v7 composition identity")
        else .ok run
      | _ => .error (.value "Comparison run cases must be a list")
  | _ => .error (.value "Comparison run JSON must be an object")

theorem checkCase_write (case : EvaluationCase E) :
    checkCase ((EvaluationCase.codec E).write case) = .ok () := by
  have hknown : hasUnknown case.modelDump EvaluationCase.MODEL_FIELDS = false := rfl
  have hscores : case.modelDump.lookup "scores" =
      some ((EvaluationCase.scoresOrNone E).write case.scores) := rfl
  show checkCase (.obj case.modelDump) = .ok ()
  simp only [checkCase, hknown, hscores]
  cases case.scores with
  | none => rfl
  | some scores =>
    have hnames : hasUnknown scores.modelDump SCORE_FIELDS = false := rfl
    show (if hasUnknown scores.modelDump SCORE_FIELDS then _ else _) = _
    rw [hnames]
    rfl

/-- The strict reading takes a run of the current identity from its file as it was. -/
theorem loadComparisonRun_persistedText {run : EvaluationRun E}
    (h : (EvaluationRun.codec E).fits run) (hversion : run.compositionIdentityVersion = some 7) :
    loadComparisonRun E (persistedText run) = .ok run := by
  have hprint : E.floats.Printable (.obj run.modelDump) := (EvaluationRun.codec E).printable run h
  have hloads := JsonStyle.loads_dumps { indent := some 2, itemBlanks := 0 } hprint
  have hread : readJson E (persistedText run) = .ok (.obj run.modelDump) := by
    unfold readJson persistedText
    rw [hloads]
  have hknown : hasUnknown run.modelDump EvaluationRun.MODEL_FIELDS = false := rfl
  have hcases : run.modelDump.lookup "cases" =
      some (.arr (run.cases.map (EvaluationCase.codec E).write)) := rfl
  have hchecks : (run.cases.map (EvaluationCase.codec E).write).forM checkCase = .ok () := by
    rw [forM_eq_ok]
    intro value hvalue
    obtain ⟨case, _, rfl⟩ := List.mem_map.mp hvalue
    exact checkCase_write case
  have hrun : (EvaluationRun.codec E).read (.obj run.modelDump) = .ok run :=
    (EvaluationRun.codec E).read_write run
  unfold loadComparisonRun
  rw [hread]
  simp [bind, Except.bind, hknown, hcases, hchecks, hrun, Except.mapError, hversion]

end VirtualContributor.Evaluation
