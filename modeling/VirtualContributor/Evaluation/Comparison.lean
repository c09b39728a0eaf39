import VirtualContributor.Evaluation.RunRecord

/-!
# Comparing two runs

`compute_comparison` of `evaluation/report.py`: two runs are compared only when
the persisted evidence shows a paired experiment, and the aggregates, digests
and fingerprints are recomputed for it.
-/

namespace VirtualContributor.Evaluation

open Lib

variable {E : EvaluationHost}

/-- `if …: raise ValueError(message)` -/
def refuseIf (refused : Prop) [Decidable refused] (message : String) :
    Except EvaluationError PUnit :=
  if refused then .error (.value message) else .ok ()

@[simp] theorem refuseIf_eq_ok {refused : Prop} [Decidable refused] {message : String} :
    refuseIf refused message = .ok () ↔ ¬ refused := by
  unfold refuseIf
  split <;> simp_all

theorem refuseIf_of_not {refused : Prop} [Decidable refused] (h : ¬ refused) (message : String) :
    refuseIf refused message = .ok () := if_neg h

theorem refuseIf_of {refused : Prop} [Decidable refused] (h : refused) (message : String) :
    refuseIf refused message = .error (.value message) := if_pos h

/-! ## Persisted evidence -/

def EvaluationCase.identity (case : EvaluationCase E) : CaseIdentity :=
  ⟨case.question, case.expectedAnswer, case.relevantDocuments⟩

/-- `getattr(case.scores, metric)` -/
def EvaluationCase.score (case : EvaluationCase E) (metric : MetricName) :
    Option (UnitMetric E.floats) :=
  case.scores.bind (·.get metric)

/-- `not case.pipeline_answer` is false. -/
def EvaluationCase.Answered (case : EvaluationCase E) : Prop :=
  ∃ answer, case.pipelineAnswer = some answer ∧ answer ≠ ""

instance (case : EvaluationCase E) : Decidable case.Answered :=
  match h : case.pipelineAnswer with
  | none => .isFalse fun ⟨_, hanswer, _⟩ => nomatch h.symm.trans hanswer
  | some answer =>
    if hempty : answer = "" then
      .isFalse fun ⟨_, hanswer, hne⟩ => hne (Option.some.inj (hanswer.symm.trans h) ▸ hempty)
    else .isTrue ⟨answer, h, hempty⟩

/-- Whether a dictionary has the metrics for its keys. -/
def hasMetricNames (keys : List String) : Bool :=
  keys.all (· ∈ METRIC_NAMES.map MetricName.text) &&
    METRIC_NAMES.all fun metric => metric.text ∈ keys

/-- The recomputation of one aggregate. -/
def checkAggregate (run : EvaluationRun E) (metric : MetricName) :
    Except EvaluationError PUnit := do
  refuseIf (∃ case ∈ run.cases, case.score metric = none)
    "Evaluation cases must include every required metric score"
  match run.cases.filterMap (·.score metric), run.aggregate.lookup metric.text with
  | first :: rest, some aggregate =>
    refuseIf (aggregate.Matches first rest = false)
      "Evaluation aggregate metrics do not match cases"
  | _, _ => .error (.value "Evaluation aggregate metrics do not match cases")

/-- Fail closed when persisted evidence is not a coherent experiment. -/
def validatePersistedRun (run : EvaluationRun E) : Except EvaluationError PUnit := do
  refuseIf (run.caseIdentityVersion ≠ some CASE_IDENTITY_VERSION)
    "Evaluation run case identity version is invalid"
  refuseIf (run.testCaseCount < 0 ∨ run.successCount < 0 ∨ run.failureCount < 0)
    "Evaluation counts must be nonnegative"
  refuseIf (run.testCaseCount ≠ run.cases.length ∨
      run.successCount + run.failureCount ≠ run.testCaseCount)
    "Evaluation case and count inventory is incoherent"
  refuseIf (run.cases.map (·.index) ≠ (List.range run.testCaseCount.toNat).map Int.ofNat)
    "Evaluation cases must be complete and ordered"
  refuseIf (∃ case ∈ run.cases, case.error ≠ none ∨ case.scores = none ∨ ¬ case.Answered)
    "Evaluation comparison requires complete successful cases"
  let identities :=
    [run.testSetDigest, run.bodyOfKnowledgeDigest, run.invariantCompositionFingerprint,
      run.fullCompositionFingerprint] ++ (run.successfulCaseDigests.getD []).map some
  refuseIf (∃ value ∈ identities, value.any isSha256 = false)
    "Evaluation identities must be lowercase SHA-256 digests"
  refuseIf (run.successfulCaseDigests ≠
      some (run.cases.map fun case => evaluationCaseDigest E case.identity))
    "Evaluation successful case digests do not match cases"
  refuseIf (run.testSetDigest ≠
      some (orderedEvaluationCaseDigest E (run.cases.map EvaluationCase.identity)))
    "Evaluation test-set digest does not match cases"
  refuseIf (hasMetricNames (run.aggregate.map Prod.fst) = false)
    "Evaluation aggregate metrics must include exactly the required metrics"
  METRIC_NAMES.forM (checkAggregate run)

/-! ## Reports -/

/-- Comparison between two runs for a single metric. -/
structure MetricDelta where
  baseline : JsonFloat
  current : JsonFloat
  absoluteDelta : JsonFloat
  percentageChange : JsonFloat
deriving DecidableEq

def metricDelta (P : PythonFloats) (baseline current : UnitMetric P) : MetricDelta :=
  let absolute := P.round (current.value - baseline.value)
  { baseline := .finite baseline.value
    current := .finite current.value
    absoluteDelta := absolute
    percentageChange :=
      if baseline.value ≠ 0 then
        mapFinite (fun share => P.round (share * 100))
          (mapFinite (fun delta => P.round (delta / baseline.value)) absolute)
      else .finite 0 }

/-- Aggregate deterministic assertion outcome across one run. -/
structure ExactMatchSummary where
  passed : Nat := 0
  failed : Nat := 0
  notApplicable : Nat := 0
deriving DecidableEq

namespace ExactMatchSummary

def checked (summary : ExactMatchSummary) : Nat := summary.passed + summary.failed

def passRate (P : PythonFloats) (summary : ExactMatchSummary) : Option JsonFloat :=
  if summary.checked = 0 then none else some (P.round (summary.passed / summary.checked))

/-- The summary with one more case. -/
def add (summary : ExactMatchSummary) (case : EvaluationCase E) : ExactMatchSummary :=
  match case.assertionOutcome.map AssertionOutcome.status with
  | none => summary
  | some .passed => { summary with passed := summary.passed + 1 }
  | some .failed => { summary with failed := summary.failed + 1 }
  | some .notApplicable => { summary with notApplicable := summary.notApplicable + 1 }

end ExactMatchSummary

def computeExactMatchSummary (cases : List (EvaluationCase E)) : ExactMatchSummary :=
  cases.foldl ExactMatchSummary.add {}

/-- Before/after comparison of the exact-match pass rate. -/
structure ExactMatchDelta where
  baselinePassRate : Option JsonFloat
  currentPassRate : Option JsonFloat
  baselineChecked : Nat
  baselineNotApplicable : Nat
  currentChecked : Nat
  currentNotApplicable : Nat
deriving DecidableEq

structure ComparisonReport where
  baselineId : String
  currentId : String
  deltas : List (String × MetricDelta)
  exactMatch : ExactMatchDelta
deriving DecidableEq

/-- The report on two runs that may be compared. -/
def comparisonReport (baseline current : EvaluationRun E) : ComparisonReport :=
  let baselineMatch := computeExactMatchSummary baseline.cases
  let currentMatch := computeExactMatchSummary current.cases
  { baselineId := baseline.id
    currentId := current.id
    deltas := METRIC_NAMES.filterMap fun name =>
      match baseline.aggregate.lookup name.text, current.aggregate.lookup name.text with
      | some b, some c => some (name.text, metricDelta E.floats b.mean c.mean)
      | _, _ => none
    exactMatch :=
      { baselinePassRate := baselineMatch.passRate E.floats
        currentPassRate := currentMatch.passRate E.floats
        baselineChecked := baselineMatch.checked
        baselineNotApplicable := baselineMatch.notApplicable
        currentChecked := currentMatch.checked
        currentNotApplicable := currentMatch.notApplicable } }

/-! ## Pairing -/

/-- Whether a field of the pairing identity is `None` or empty. -/
def lacksIdentity (run : EvaluationRun E) : Bool :=
  [run.hierarchyMode, run.testSetDigest, run.bodyOfKnowledgeDigest, run.corpusRevision,
    run.invariantCompositionFingerprint, run.fullCompositionFingerprint].any
      (fun value => value = none || value = some "") ||
    run.successfulCaseDigests = none

/-- The fields in which paired runs agree, and whether two runs differ there. -/
def pairedFields (baseline current : EvaluationRun E) : List (String × Bool) :=
  [("test_set_digest", baseline.testSetDigest ≠ current.testSetDigest),
    ("body_of_knowledge_digest", baseline.bodyOfKnowledgeDigest ≠ current.bodyOfKnowledgeDigest),
    ("corpus_revision", baseline.corpusRevision ≠ current.corpusRevision),
    ("successful_case_digests", baseline.successfulCaseDigests ≠ current.successfulCaseDigests),
    ("invariant_composition_fingerprint",
      baseline.invariantCompositionFingerprint ≠ current.invariantCompositionFingerprint)]

/-- The full fingerprint of a run is that of its invariant fingerprint and its mode. -/
def checkFullFingerprint (run : EvaluationRun E) : Except EvaluationError PUnit := do
  let expected ← (expertFullCompositionFingerprint E
    (run.invariantCompositionFingerprint.getD "") (run.hierarchyMode.getD "")).mapError .value
  refuseIf (run.fullCompositionFingerprint ≠ some expected)
    "Evaluation full fingerprint is not bound to its mode"

/-- Compute per-metric deltas between two runs. -/
def computeComparison (baseline current : EvaluationRun E) :
    Except EvaluationError ComparisonReport := do
  let runs := [baseline, current]
  refuseIf (∃ run ∈ runs, lacksIdentity run = true)
    "Evaluation runs lack complete v7 pairing identity"
  refuseIf (∃ run ∈ runs, run.compositionIdentityVersion ≠ some 7)
    "Evaluation runs require v7 composition identity"
  refuseIf (∃ run ∈ runs, run.caseIdentityVersion ≠ some CASE_IDENTITY_VERSION)
    s!"Evaluation runs require {CASE_IDENTITY_VERSION}"
  refuseIf (baseline.pluginType ≠ "expert" ∨ current.pluginType ≠ "expert")
    "Only Expert evaluation runs are comparable"
  refuseIf (baseline.hierarchyMode ≠ some "flat" ∨ current.hierarchyMode ≠ some "hierarchical")
    "Evaluation comparison requires Expert flat-to-hierarchical ordering"
  refuseIf (baseline.failureCount ≠ 0 ∨ current.failureCount ≠ 0)
    "Evaluation comparison requires failure-free runs"
  runs.forM validatePersistedRun
  refuseIf (∃ run ∈ runs, isSafeRevision (run.corpusRevision.getD "") = false)
    "Evaluation corpus revision is invalid"
  (pairedFields baseline current).forM fun (field, differs) =>
    refuseIf (differs = true)
      s!"Evaluation {field} differs; comparison is not a paired experiment"
  refuseIf (baseline.fullCompositionFingerprint = current.fullCompositionFingerprint)
    "Evaluation full fingerprints must differ by mode"
  runs.forM checkFullFingerprint
  return comparisonReport baseline current

end VirtualContributor.Evaluation
