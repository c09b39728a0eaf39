import VirtualContributor.Evaluation.Comparison

/-!
# The evaluation runner

`EvaluationRunner.run` of `evaluation/runner.py`: the cases of a test set are
evaluated one after the other, and the run is written to a file.

What the pipeline and the scorer return for each case, or the text of what
they raise, is part of the request, as are the clock and the identity of the
pipeline.
-/

namespace VirtualContributor.Evaluation

open Lib

/-! ## One case -/

/-- What the pipeline returns for a question. -/
structure Invocation (E : EvaluationHost) where
  answer : String
  contexts : List String
  sources : List (SourceInfo E)

/-- What happens when a case is evaluated; an exception is its text. -/
structure Attempt (E : EvaluationHost) where
  invoked : Except String (Invocation E)
  scored : Except String Fields
  duration : E.floats.Float

variable {E : EvaluationHost}

namespace EvaluationCase

/-- A case with an error. -/
def failed (record : CaseRecord E) (message : String) : EvaluationCase E where
  toCaseRecord := { record with error := some message }
  complete := nofun

end EvaluationCase

/-- The fields of a case before its evaluation. -/
def newRecord (idx : Nat) (tc : TestCase) (attempt : Attempt E) : CaseRecord E :=
  { index := idx
    question := tc.question
    expectedAnswer := tc.expectedAnswer
    relevantDocuments := tc.relevantDocuments
    durationSeconds := attempt.duration }

/-- The fields of a case after the pipeline has answered. -/
def answeredRecord (idx : Nat) (tc : TestCase) (attempt : Attempt E) (invocation : Invocation E) :
    CaseRecord E :=
  { newRecord idx tc attempt with
    pipelineAnswer := some invocation.answer
    retrievedContexts := invocation.contexts
    retrievedSources := invocation.sources
    assertionOutcome := some (evaluateAssertions E.unicode invocation.answer tc.assertions) }

/-- The case with the scores of the scorer, or the text of the exception. -/
def scoredCase (record : CaseRecord E) (scored : Except String Fields) :
    Except String (EvaluationCase E) := do
  let values ← scored
  let scores ← (MetricScores.ofFields E.floats values).mapError E.validationText
  (EvaluationCase.validate { record with scores := some scores }).mapError fun message =>
    E.validationText ⟨[], .refused message⟩

/-- A case, and whether it counts as a success. -/
def evaluateCase (idx : Nat) (tc : TestCase) (attempt : Attempt E) : EvaluationCase E × Bool :=
  match attempt.invoked with
  | .error message => (.failed (newRecord idx tc attempt) message, false)
  | .ok invocation =>
    let record := answeredRecord idx tc attempt invocation
    match scoredCase record attempt.scored with
    | .ok case => (case, true)
    | .error message => (.failed record message, false)

/-! ## All cases -/

structure Progress (E : EvaluationHost) where
  cases : List (EvaluationCase E) := []
  successCount : Nat := 0
  failureCount : Nat := 0

def Progress.add (progress : Progress E) (result : EvaluationCase E × Bool) : Progress E :=
  { cases := progress.cases ++ [result.1]
    successCount := if result.2 then progress.successCount + 1 else progress.successCount
    failureCount := if result.2 then progress.failureCount else progress.failureCount + 1 }

def evaluateCases (testCases : List TestCase) (attempts : Nat → Attempt E) : Progress E :=
  testCases.zipIdx.foldl
    (fun progress (tc, idx) => progress.add (evaluateCase idx tc (attempts idx))) {}

/-- The statistics of one metric, unless no case has it. -/
def aggregateEntry (cases : List (EvaluationCase E)) (metric : MetricName) :
    Except String (Option (String × AggregateMetrics E.floats)) :=
  match cases.filterMap (·.score metric) with
  | [] => .ok none
  | first :: rest => do
    let aggregate ← AggregateMetrics.ofValues first rest
    return some (metric.text, aggregate)

/-- Compute per-metric aggregate statistics from successful cases. -/
def computeAggregate (cases : List (EvaluationCase E)) :
    Except String (List (String × AggregateMetrics E.floats)) := do
  let entries ← METRIC_NAMES.mapM (aggregateEntry cases)
  return entries.reduceOption

/-! ## The run -/

/-- The identity that the pipeline shows; a field that is missing or no text is `none`. -/
structure InvokerIdentity where
  compositionFingerprint : Option String
  hierarchyMode : Option String
  invariant : Option String
  full : Option String

structure RunRequest (E : EvaluationHost) where
  testCases : List TestCase
  pluginType : String
  label : Option String
  testSetPath : String
  bodyOfKnowledgeId : Option String
  corpusRevision : Option String
  categoryScope : Option String
  identity : InvokerIdentity
  attempts : Nat → Attempt E
  /-- The start in the two formats of the run, and the duration. -/
  startText : String
  timestamp : String
  duration : E.floats.Float

structure SavedFile where
  name : String
  text : String
deriving DecidableEq

def isLabelChar (c : Char) : Bool := c.isAlphanum || c ∈ ['.', '_', '-']

/-- `re.sub(r"[^A-Za-z0-9._-]+", "-", label)`, inside or outside of a match. -/
def dashed : Bool → List Char → List Char
  | _, [] => []
  | inside, c :: rest =>
    if isLabelChar c then c :: dashed false rest
    else if inside then dashed true rest
    else '-' :: dashed true rest

/-- The label in the name of a run. -/
def safeLabel (label : Option String) : String :=
  let letters := dashed false (label.getD "").toList
  String.ofList (((letters.dropWhile (· = '-')).reverse.dropWhile (· = '-')).reverse)

def runId (request : RunRequest E) : String :=
  if safeLabel request.label = "" then request.startText
  else request.startText ++ "_" ++ safeLabel request.label

/-- `plugin_type.lower().replace("-", "_")` -/
def normalizedPlugin (request : RunRequest E) : String :=
  String.ofList ((E.unicode.lower request.pluginType).toList.map fun c =>
    if c = '-' then '_' else c)

/-- Whether a category is scoped to a body of knowledge and none was given. -/
def scopeMissingBodyOfKnowledge (request : RunRequest E) : Bool :=
  request.categoryScope.any (· ∈ ["building-alkemio", "design-thinker"]) &&
    (request.bodyOfKnowledgeId = none || request.bodyOfKnowledgeId = some "")

/-- The identity of an Expert run. -/
structure ExpertIdentity where
  mode : String
  invariant : String
  full : String

def contradictory : EvaluationError :=
  .value "Expert evaluation identity is incomplete or contradictory"

/-- The public identity, checked before any case is evaluated. -/
def checkIdentity (E : EvaluationHost) (identity : InvokerIdentity) :
    Except EvaluationError ExpertIdentity :=
  match identity.hierarchyMode, identity.invariant, identity.full with
  | some mode, some invariant, some full =>
    if mode ∉ HIERARCHY_MODES ∨ identity.compositionFingerprint ≠ some invariant then
      .error contradictory
    else do
      let expected ← (expertFullCompositionFingerprint E invariant mode).mapError .value
      if full ≠ expected then .error contradictory else .ok ⟨mode, invariant, full⟩
  | _, _, _ => .error contradictory

/-- The run of a request, with the identity of an Expert run. -/
def finishRun (request : RunRequest E) (expert : Option ExpertIdentity) :
    Except EvaluationError (EvaluationRun E) := do
  let progress := evaluateCases request.testCases request.attempts
  let aggregate ← (computeAggregate progress.cases).mapError fun message =>
    .validation ⟨[], .refused message⟩
  let digests := (progress.cases.filter (·.error = none)).filterMap fun case =>
    (request.testCases[case.index.toNat]?).map (successfulCaseDigest E)
  return {
    id := runId request
    timestamp := request.timestamp
    label := request.label
    pluginType := if expert.isSome then "expert" else request.pluginType
    compositionFingerprint := expert.map ExpertIdentity.invariant
    compositionIdentityVersion := expert.map fun _ => 7
    caseIdentityVersion := expert.map fun _ => CASE_IDENTITY_VERSION
    hierarchyMode := expert.map ExpertIdentity.mode
    testSetDigest := expert.map fun _ => canonicalTestSetDigest E request.testCases
    bodyOfKnowledgeDigest := expert.map fun _ => E.sha256 (request.bodyOfKnowledgeId.getD "")
    corpusRevision := expert.bind fun _ => request.corpusRevision
    successfulCaseDigests := expert.map fun _ => digests
    invariantCompositionFingerprint := expert.map ExpertIdentity.invariant
    fullCompositionFingerprint := expert.map ExpertIdentity.full
    testSetPath := request.testSetPath
    testCaseCount := request.testCases.length
    successCount := progress.successCount
    failureCount := progress.failureCount
    durationSeconds := request.duration
    aggregate := aggregate
    cases := progress.cases
    categoryScope := request.categoryScope
    categoryScopeMissingBodyOfKnowledge := scopeMissingBodyOfKnowledge request }

/-- `EvaluationRunner.run`: the run and the file it is written to. -/
def run (request : RunRequest E) : Except EvaluationError (EvaluationRun E × SavedFile) := do
  let expert := normalizedPlugin request = "expert"
  refuseIf (expert ∧ request.corpusRevision.any isSafeRevision = false)
    "Expert evaluation requires a safe corpus revision"
  let identity ←
    if expert then some <$> checkIdentity E request.identity else .ok none
  let finished ← finishRun request identity
  return (finished, ⟨finished.id ++ ".json", persistedText finished⟩)

end VirtualContributor.Evaluation
