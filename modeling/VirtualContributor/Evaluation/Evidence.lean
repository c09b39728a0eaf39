import Mathlib.Data.List.ReduceOption
import Mathlib.Data.Nat.Digits.Defs
import VirtualContributor.Evaluation.Runner

/-!
# What a run shows

`Evidence` is what an Expert run without failures shows: its counts, its
digests, its fingerprints and its aggregates are those of its cases
(`evidence_of_finishRun`).  Such a run comes out of its file as it went in, and
passes the checks of persisted evidence exactly when its cases have answers
(`Evidence.validatePersistedRun_iff`).
-/

namespace VirtualContributor.Evaluation

open Lib

variable {E : EvaluationHost}

/-! ## One case -/

theorem toCaseRecord_of_scoredCase {record : CaseRecord E} {scored : Except String Fields}
    {case : EvaluationCase E} (h : scoredCase record scored = .ok case) :
    ∃ scores, case.toCaseRecord = { record with scores := some scores } := by
  unfold scoredCase at h
  simp only [bind_eq_ok] at h
  obtain ⟨values, _, scores, _, h⟩ := h
  refine ⟨scores, EvaluationCase.toCaseRecord_of_validate ?_⟩
  cases hvalidate : EvaluationCase.validate { record with scores := some scores } with
  | error message =>
    rw [hvalidate] at h
    cases h
  | ok validated =>
    rw [hvalidate] at h
    exact h

/-- What becomes of a case: the pipeline fails, the scores fail, or the case has its scores. -/
theorem evaluateCase_cases (idx : Nat) (tc : TestCase) (attempt : Attempt E) :
    (∃ message, evaluateCase idx tc attempt = (.failed (newRecord idx tc attempt) message, false)) ∨
      ∃ invocation, attempt.invoked = .ok invocation ∧
        ((∃ message, evaluateCase idx tc attempt =
            (.failed (answeredRecord idx tc attempt invocation) message, false)) ∨
          ∃ case scores, evaluateCase idx tc attempt = (case, true) ∧ case.toCaseRecord =
            { answeredRecord idx tc attempt invocation with scores := some scores }) := by
  unfold evaluateCase
  cases hinvoked : attempt.invoked with
  | error message => exact .inl ⟨message, rfl⟩
  | ok invocation =>
    refine .inr ⟨invocation, rfl, ?_⟩
    cases hcase : scoredCase (answeredRecord idx tc attempt invocation) attempt.scored with
    | error message => exact .inl ⟨message, by simp only [hcase]⟩
    | ok case =>
      obtain ⟨scores, hrecord⟩ := toCaseRecord_of_scoredCase hcase
      exact .inr ⟨case, scores, by simp only [hcase], hrecord⟩

/-- Every case keeps its place and its input. -/
theorem evaluateCase_input (idx : Nat) (tc : TestCase) (attempt : Attempt E) :
    (evaluateCase idx tc attempt).1.index = idx ∧
      (evaluateCase idx tc attempt).1.identity = tc.identity := by
  obtain ⟨message, h⟩ | ⟨invocation, _, ⟨message, h⟩ | ⟨case, scores, h, hrecord⟩⟩ :=
    evaluateCase_cases idx tc attempt
  · rw [h]
    exact ⟨rfl, rfl⟩
  · rw [h]
    exact ⟨rfl, rfl⟩
  · rw [h]
    simp only [EvaluationCase.identity, hrecord]
    exact ⟨rfl, rfl⟩

/-- A success has no error and the answer of the pipeline. -/
theorem evaluateCase_success {idx : Nat} {tc : TestCase} {attempt : Attempt E}
    (hsuccess : (evaluateCase idx tc attempt).2 = true) :
    (evaluateCase idx tc attempt).1.error = none ∧
      ∃ invocation, attempt.invoked = .ok invocation ∧
        (evaluateCase idx tc attempt).1.pipelineAnswer = some invocation.answer := by
  obtain ⟨message, h⟩ | ⟨invocation, hinvoked, ⟨message, h⟩ | ⟨case, scores, h, hrecord⟩⟩ :=
    evaluateCase_cases idx tc attempt
  · rw [h] at hsuccess
    cases hsuccess
  · rw [h] at hsuccess
    cases hsuccess
  · rw [h]
    simp only [hrecord]
    exact ⟨rfl, invocation, hinvoked, rfl⟩

/-! ## All cases -/

/-- The cases of a test set and what they count as. -/
def caseResults (testCases : List TestCase) (attempts : Nat → Attempt E) :
    List (EvaluationCase E × Bool) :=
  testCases.zipIdx.map fun (tc, idx) => evaluateCase idx tc (attempts idx)

theorem foldl_add (results : List (EvaluationCase E × Bool)) (progress : Progress E) :
    results.foldl Progress.add progress =
      { cases := progress.cases ++ results.map Prod.fst
        successCount := progress.successCount + results.countP (·.2)
        failureCount := progress.failureCount + results.countP (fun result => !result.2) } := by
  induction results generalizing progress with
  | nil => simp
  | cons result results ih =>
    rw [List.foldl_cons, ih]
    cases hresult : result.2 <;> simp [Progress.add, hresult] <;> omega

theorem evaluateCases_eq (testCases : List TestCase) (attempts : Nat → Attempt E) :
    evaluateCases testCases attempts =
      { cases := (caseResults testCases attempts).map Prod.fst
        successCount := (caseResults testCases attempts).countP (·.2)
        failureCount := (caseResults testCases attempts).countP (fun result => !result.2) } := by
  have hfold := foldl_add (caseResults testCases attempts) {}
  rw [caseResults, List.foldl_map] at hfold
  unfold evaluateCases
  rw [hfold]
  simp [caseResults]

theorem length_caseResults (testCases : List TestCase) (attempts : Nat → Attempt E) :
    (caseResults testCases attempts).length = testCases.length := by
  simp [caseResults]

theorem map_index_caseResults (testCases : List TestCase) (attempts : Nat → Attempt E) :
    (caseResults testCases attempts).map (fun result => result.1.index) =
      (List.range testCases.length).map Int.ofNat := by
  rw [caseResults, List.map_map, List.range_eq_range', ← List.zipIdx_map_snd 0 testCases,
    List.map_map]
  apply List.map_congr_left
  intro entry _
  exact (evaluateCase_input _ _ _).1

theorem map_identity_caseResults (testCases : List TestCase) (attempts : Nat → Attempt E) :
    (caseResults testCases attempts).map (fun result => result.1.identity) =
      testCases.map TestCase.identity := by
  rw [caseResults, List.map_map]
  conv_rhs => rw [← List.zipIdx_map_fst 0 testCases, List.map_map]
  apply List.map_congr_left
  intro entry _
  exact (evaluateCase_input _ _ _).2

/-! ## Identities -/

theorem expertFullCompositionFingerprint_eq_ok {invariant mode full : String} :
    expertFullCompositionFingerprint E invariant mode = .ok full ↔
      mode ∈ HIERARCHY_MODES ∧ isSha256 invariant = true ∧
        E.sha256 (fullCompositionPayload E invariant mode) = full := by
  unfold expertFullCompositionFingerprint
  split
  · next hmode => simp [hmode]
  · next hmode =>
    rw [not_not] at hmode
    split
    · next hinvariant => simp_all
    · next hinvariant => simp_all

/-- What the check of the identity has found out. -/
theorem checkIdentity_eq_ok {identity : InvokerIdentity} {expert : ExpertIdentity}
    (h : checkIdentity E identity = .ok expert) :
    identity.hierarchyMode = some expert.mode ∧ identity.invariant = some expert.invariant ∧
      expertFullCompositionFingerprint E expert.invariant expert.mode = .ok expert.full := by
  unfold checkIdentity at h
  split at h
  · next mode invariant full hmode hinvariant hfull =>
    split at h
    · cases h
    · rw [bind_eq_ok] at h
      obtain ⟨expected, hexpected, h⟩ := h
      split at h
      · cases h
      · next hne =>
        obtain rfl : full = expected := not_not.mp hne
        obtain rfl := Except.ok.inj h
        refine ⟨hmode, hinvariant, ?_⟩
        cases hfingerprint : expertFullCompositionFingerprint E invariant mode with
        | error message =>
          rw [hfingerprint] at hexpected
          cases hexpected
        | ok computed =>
          rw [hfingerprint] at hexpected
          obtain rfl := Except.ok.inj hexpected
          rfl
  · cases h

/-! ## The run of a request -/

/-- The cases of a request and what they count as. -/
def RunRequest.results (request : RunRequest E) : List (EvaluationCase E × Bool) :=
  caseResults request.testCases request.attempts

theorem run_eq_ok {request : RunRequest E} {finished : EvaluationRun E} {file : SavedFile}
    (h : run request = .ok (finished, file)) (hexpert : normalizedPlugin request = "expert") :
    ∃ expert, checkIdentity E request.identity = .ok expert ∧
      request.corpusRevision.any isSafeRevision = true ∧
      finishRun request (some expert) = .ok finished ∧ file.text = persistedText finished := by
  unfold run at h
  rw [check_bind_eq_ok, refuseIf_eq_ok, not_and, Bool.not_eq_false, if_pos hexpert] at h
  obtain ⟨hrevision, h⟩ := h
  rw [bind_eq_ok] at h
  obtain ⟨identity, hidentity, h⟩ := h
  rw [bind_eq_ok] at h
  obtain ⟨made, hmade, h⟩ := h
  cases hcheck : checkIdentity E request.identity with
  | error e =>
    rw [hcheck] at hidentity
    cases hidentity
  | ok expert =>
    rw [hcheck] at hidentity
    obtain rfl := Except.ok.inj hidentity
    obtain ⟨rfl, rfl⟩ := Prod.mk.inj (Except.ok.inj h)
    exact ⟨expert, rfl, hrevision hexpert, hmade, rfl⟩

/-! ## Aggregates -/

theorem MetricName.text_injective : Function.Injective MetricName.text := by
  intro a b h
  cases a <;> cases b <;> first | rfl | exact absurd h (by decide)

theorem fst_of_aggregateEntry {cases : List (EvaluationCase E)} {metric : MetricName}
    {entry : String × AggregateMetrics E.floats}
    (h : aggregateEntry cases metric = .ok (some entry)) : entry.1 = metric.text := by
  unfold aggregateEntry at h
  split at h
  · cases h
  · rw [bind_eq_ok] at h
    obtain ⟨aggregate, _, h⟩ := h
    cases h
    rfl

/-- The keys of the aggregates are names of metrics, in their order. -/
theorem sublist_of_mapM {cases : List (EvaluationCase E)} {metrics : List MetricName}
    {entries : List (Option (String × AggregateMetrics E.floats))}
    (h : metrics.mapM (aggregateEntry cases) = .ok entries) :
    (entries.reduceOption.map Prod.fst).Sublist (metrics.map MetricName.text) := by
  rw [mapM_eq_ok] at h
  induction h with
  | nil => exact .slnil
  | @cons metric entry metrics entries hentry _ ih =>
    cases entry with
    | none => exact ih.cons _
    | some entry =>
      rw [List.reduceOption_cons_of_some, List.map_cons, List.map_cons,
        fst_of_aggregateEntry hentry]
      exact ih.cons_cons _

theorem lookup_of_mapM {cases : List (EvaluationCase E)} {metrics : List MetricName}
    {entries : List (Option (String × AggregateMetrics E.floats))}
    (h : metrics.mapM (aggregateEntry cases) = .ok entries) {metric : MetricName}
    (hmetric : metric ∈ metrics) {first : UnitMetric E.floats}
    {rest : List (UnitMetric E.floats)}
    (hvalues : cases.filterMap (·.score metric) = first :: rest) :
    ∃ aggregate, entries.reduceOption.lookup metric.text = some aggregate ∧
      AggregateMetrics.ofValues first rest = .ok aggregate := by
  rw [mapM_eq_ok] at h
  induction h with
  | nil => cases hmetric
  | @cons other entry metrics entries hentry _ ih =>
    by_cases heq : metric = other
    · subst heq
      unfold aggregateEntry at hentry
      rw [hvalues] at hentry
      change (AggregateMetrics.ofValues first rest >>= fun aggregate => _) = _ at hentry
      rw [bind_eq_ok] at hentry
      obtain ⟨aggregate, haggregate, hentry⟩ := hentry
      obtain rfl := Except.ok.inj hentry
      exact ⟨aggregate, by simp, haggregate⟩
    · obtain ⟨aggregate, hlookup, haggregate⟩ :=
        ih ((List.mem_cons.mp hmetric).resolve_left heq)
      refine ⟨aggregate, ?_, haggregate⟩
      cases entry with
      | none => exact hlookup
      | some entry =>
        have hkey : (metric.text == entry.1) = false := by
          rw [fst_of_aggregateEntry hentry, beq_eq_false_iff_ne]
          exact fun htext => heq (MetricName.text_injective htext)
        rw [List.reduceOption_cons_of_some, List.lookup_cons, hkey]
        exact hlookup

theorem sublist_computeAggregate {cases : List (EvaluationCase E)}
    {aggregate : List (String × AggregateMetrics E.floats)}
    (h : computeAggregate cases = .ok aggregate) :
    (aggregate.map Prod.fst).Sublist (METRIC_NAMES.map MetricName.text) := by
  unfold computeAggregate at h
  rw [bind_eq_ok] at h
  obtain ⟨entries, hentries, h⟩ := h
  obtain rfl := Except.ok.inj h
  exact sublist_of_mapM hentries

theorem nodup_computeAggregate {cases : List (EvaluationCase E)}
    {aggregate : List (String × AggregateMetrics E.floats)}
    (h : computeAggregate cases = .ok aggregate) : (aggregate.map Prod.fst).Nodup := by
  have hnames : (METRIC_NAMES.map MetricName.text).Nodup := by decide
  exact hnames.sublist (sublist_computeAggregate h)

theorem lookup_computeAggregate {cases : List (EvaluationCase E)}
    {aggregate : List (String × AggregateMetrics E.floats)}
    (h : computeAggregate cases = .ok aggregate) {metric : MetricName}
    {first : UnitMetric E.floats} {rest : List (UnitMetric E.floats)}
    (hvalues : cases.filterMap (·.score metric) = first :: rest) :
    ∃ entry, aggregate.lookup metric.text = some entry ∧
      AggregateMetrics.ofValues first rest = .ok entry := by
  unfold computeAggregate at h
  rw [bind_eq_ok] at h
  obtain ⟨entries, hentries, h⟩ := h
  obtain rfl := Except.ok.inj h
  exact lookup_of_mapM hentries (mem_METRIC_NAMES metric) hvalues

/-! ## Evidence -/

/-- No answer of the pipeline is empty. -/
def RunRequest.Answered (request : RunRequest E) : Prop :=
  ∀ idx < request.testCases.length, ∀ invocation,
    (request.attempts idx).invoked = .ok invocation → invocation.answer ≠ ""

/-- What an Expert run without failures shows. -/
structure Evidence (request : RunRequest E) (expert : ExpertIdentity)
    (finished : EvaluationRun E) : Prop where
  version : finished.compositionIdentityVersion = some 7
  caseVersion : finished.caseIdentityVersion = some CASE_IDENTITY_VERSION
  plugin : finished.pluginType = "expert"
  mode : finished.hierarchyMode = some expert.mode
  invariant : finished.invariantCompositionFingerprint = some expert.invariant
  full : finished.fullCompositionFingerprint = some expert.full
  fingerprint : expertFullCompositionFingerprint E expert.invariant expert.mode = .ok expert.full
  testSet : finished.testSetDigest =
    some (orderedEvaluationCaseDigest E (finished.cases.map EvaluationCase.identity))
  bodyOfKnowledge : finished.bodyOfKnowledgeDigest =
    some (E.sha256 (request.bodyOfKnowledgeId.getD ""))
  corpusRevision : finished.corpusRevision = request.corpusRevision
  revisionSafe : request.corpusRevision.any isSafeRevision = true
  caseDigests : finished.successfulCaseDigests =
    some (finished.cases.map fun case => evaluationCaseDigest E case.identity)
  testCaseCount : finished.testCaseCount = finished.cases.length
  successCount : finished.successCount = finished.cases.length
  failureCount : finished.failureCount = 0
  ordered : finished.cases.map (·.index) = (List.range finished.cases.length).map Int.ofNat
  identities : finished.cases.map EvaluationCase.identity = request.testCases.map TestCase.identity
  noError : ∀ case ∈ finished.cases, case.error = none
  answered : (∀ case ∈ finished.cases, case.Answered) ↔ request.Answered
  aggregate : computeAggregate finished.cases = .ok finished.aggregate

theorem RunRequest.map_index_results (request : RunRequest E) :
    (request.results.map Prod.fst).map (·.index) =
      (List.range (request.results.map Prod.fst).length).map Int.ofNat := by
  have h := map_index_caseResults request.testCases request.attempts
  rw [List.map_map, List.length_map, results, length_caseResults]
  exact h

theorem RunRequest.map_identity_results (request : RunRequest E) :
    (request.results.map Prod.fst).map EvaluationCase.identity =
      request.testCases.map TestCase.identity := by
  have h := map_identity_caseResults request.testCases request.attempts
  rw [List.map_map]
  exact h

/-- The results of a request, each with the test case at its place. -/
theorem RunRequest.mem_results {request : RunRequest E} {result : EvaluationCase E × Bool}
    (h : result ∈ request.results) :
    ∃ idx tc, request.testCases[idx]? = some tc ∧
      result = evaluateCase idx tc (request.attempts idx) := by
  obtain ⟨⟨tc, idx⟩, hentry, rfl⟩ := List.mem_map.mp h
  exact ⟨idx, tc, List.mem_zipIdx_iff_getElem?.mp hentry, rfl⟩

/-- The digest that the runner takes from the test set is that of the case. -/
theorem digest_of_mem_results {request : RunRequest E} {result : EvaluationCase E × Bool}
    (h : result ∈ request.results) :
    (request.testCases[result.1.index.toNat]?).map (successfulCaseDigest E) =
      some (evaluationCaseDigest E result.1.identity) := by
  obtain ⟨idx, tc, htc, rfl⟩ := RunRequest.mem_results h
  obtain ⟨hindex, hidentity⟩ := evaluateCase_input idx tc (request.attempts idx)
  rw [hindex, hidentity, Int.toNat_natCast, htc]
  rfl

/-- In a run of successes the cases are answered when the pipeline has answered. -/
theorem RunRequest.answered_iff {request : RunRequest E}
    (h : ∀ result ∈ request.results, result.2 = true) :
    (∀ case ∈ request.results.map Prod.fst, case.Answered) ↔ request.Answered := by
  constructor
  · intro hcases idx hidx invocation hinvoked
    obtain ⟨tc, htc⟩ : ∃ tc, request.testCases[idx]? = some tc :=
      ⟨_, List.getElem?_eq_getElem hidx⟩
    have hresult : evaluateCase idx tc (request.attempts idx) ∈ request.results :=
      List.mem_map.mpr ⟨(tc, idx), List.mem_zipIdx_iff_getElem?.mpr htc, rfl⟩
    obtain ⟨_, other, hother, hanswer⟩ := evaluateCase_success (h _ hresult)
    obtain rfl : other = invocation := Except.ok.inj (hother.symm.trans hinvoked)
    obtain ⟨answer, hsome, hne⟩ := hcases _ (List.mem_map_of_mem hresult)
    obtain rfl : other.answer = answer := Option.some.inj (hanswer.symm.trans hsome)
    exact hne
  · intro hrequest case hcase
    obtain ⟨result, hresult, rfl⟩ := List.mem_map.mp hcase
    have hsuccess := h result hresult
    obtain ⟨idx, tc, htc, rfl⟩ := RunRequest.mem_results hresult
    obtain ⟨_, invocation, hinvoked, hanswer⟩ := evaluateCase_success hsuccess
    obtain ⟨hidx, _⟩ := List.getElem?_eq_some_iff.mp htc
    exact ⟨invocation.answer, hanswer, hrequest idx hidx invocation hinvoked⟩

theorem evidence_of_finishRun {request : RunRequest E} {expert : ExpertIdentity}
    {finished : EvaluationRun E} (hfinished : finishRun request (some expert) = .ok finished)
    (hidentity : checkIdentity E request.identity = .ok expert)
    (hrevision : request.corpusRevision.any isSafeRevision = true)
    (hfailures : finished.failureCount = 0) : Evidence request expert finished := by
  have hcases : evaluateCases request.testCases request.attempts =
      { cases := request.results.map Prod.fst
        successCount := request.results.countP (·.2)
        failureCount := request.results.countP (fun result => !result.2) } :=
    evaluateCases_eq request.testCases request.attempts
  unfold finishRun at hfinished
  simp only [hcases] at hfinished
  rw [bind_eq_ok] at hfinished
  obtain ⟨aggregate, haggregate, hfinished⟩ := hfinished
  obtain rfl := Except.ok.inj hfinished
  have haggregate' : computeAggregate (request.results.map Prod.fst) = .ok aggregate := by
    cases hcompute : computeAggregate (request.results.map Prod.fst) with
    | error message =>
      rw [hcompute] at haggregate
      cases haggregate
    | ok computed =>
      rw [hcompute] at haggregate
      obtain rfl := Except.ok.inj haggregate
      rfl
  have hnone : request.results.countP (fun result => !result.2) = 0 := Int.ofNat.inj hfailures
  have hall : ∀ result ∈ request.results, result.2 = true := by
    intro result hresult
    have h := List.countP_eq_zero.mp hnone result hresult
    simpa using h
  have hnoError : ∀ case ∈ request.results.map Prod.fst, case.error = none := by
    intro case hcase
    obtain ⟨result, hresult, rfl⟩ := List.mem_map.mp hcase
    have hsuccess := hall result hresult
    obtain ⟨idx, tc, _, rfl⟩ := RunRequest.mem_results hresult
    exact (evaluateCase_success hsuccess).1
  have hcount : request.results.length = request.testCases.length := length_caseResults _ _
  refine
    { version := rfl
      caseVersion := rfl
      plugin := rfl
      mode := rfl
      invariant := rfl
      full := rfl
      fingerprint := (checkIdentity_eq_ok hidentity).2.2
      testSet := ?_
      bodyOfKnowledge := rfl
      corpusRevision := rfl
      revisionSafe := hrevision
      caseDigests := ?_
      testCaseCount := ?_
      successCount := ?_
      failureCount := hfailures
      ordered := request.map_index_results
      identities := request.map_identity_results
      noError := hnoError
      answered := RunRequest.answered_iff hall
      aggregate := haggregate' }
  · show some (canonicalTestSetDigest E request.testCases) = _
    rw [request.map_identity_results]
    rfl
  · have hfilter : (request.results.map Prod.fst).filter (·.error = none) =
        request.results.map Prod.fst := by
      rw [List.filter_eq_self]
      intro case hcase
      exact decide_eq_true (hnoError case hcase)
    show some (((request.results.map Prod.fst).filter (·.error = none)).filterMap fun case =>
      (request.testCases[case.index.toNat]?).map (successfulCaseDigest E)) = _
    rw [hfilter, List.filterMap_map, List.map_map, ← List.filterMap_eq_map]
    congr 1
    apply List.filterMap_congr
    intro result hresult
    exact digest_of_mem_results hresult
  · show (request.testCases.length : Int) = ((request.results.map Prod.fst).length : Nat)
    rw [List.length_map, hcount]
  · show ((request.results.countP (·.2) : Nat) : Int) =
      ((request.results.map Prod.fst).length : Nat)
    rw [List.length_map, List.countP_eq_length.mpr hall]

/-! ## The file -/

theorem ne_empty_of_isSha256 {value : String} (h : isSha256 value = true) : value ≠ "" := by
  rintro rfl
  exact absurd h (by decide)

theorem ne_empty_of_isSafeRevision {value : String} (h : isSafeRevision value = true) :
    value ≠ "" := by
  rintro rfl
  exact absurd h (by decide)

theorem intCodec_fits {n : Nat} (h : n < 10 ^ MAX_STR_DIGITS) : (intCodec E).fits n :=
  Nat.toDigits_length 10 n MAX_STR_DIGITS (by decide) h

namespace Evidence

variable {request : RunRequest E} {expert : ExpertIdentity} {finished : EvaluationRun E}

theorem length_cases (h : Evidence request expert finished) :
    finished.cases.length = request.testCases.length := by
  have hlength := congrArg List.length h.identities
  rwa [List.length_map, List.length_map] at hlength

/-- The strict reading takes the run from its file. -/
theorem loads (h : Evidence request expert finished)
    (hcases : request.testCases.length < 10 ^ MAX_STR_DIGITS) :
    loadComparisonRun E (persistedText finished) = .ok finished := by
  have hlength := h.length_cases
  rw [← hlength] at hcases
  refine loadComparisonRun_persistedText ?_ h.version
  refine ⟨?_, ?_, ?_, ?_, nodup_computeAggregate h.aggregate, ?_⟩
  · rw [h.version]
    intro version hversion
    obtain rfl := Option.some.inj hversion
    show (Nat.toDigits 10 7).length ≤ MAX_STR_DIGITS
    decide
  · rw [h.testCaseCount]
    exact intCodec_fits hcases
  · rw [h.successCount]
    exact intCodec_fits hcases
  · rw [h.failureCount]
    show (Nat.toDigits 10 0).length ≤ MAX_STR_DIGITS
    decide
  · intro case hcase
    have hindex : case.index ∈ finished.cases.map (·.index) := List.mem_map_of_mem hcase
    rw [h.ordered] at hindex
    obtain ⟨idx, hidx, hcaseIndex⟩ := List.mem_map.mp hindex
    show (intCodec E).fits case.index
    rw [← hcaseIndex]
    exact intCodec_fits ((List.mem_range.mp hidx).trans hcases)

/-! ## The comparison -/

theorem exists_score (h : Evidence request expert finished) {case : EvaluationCase E}
    (hcase : case ∈ finished.cases) (metric : MetricName) :
    ∃ score, case.score metric = some score := by
  obtain ⟨scores, hscores, hcanonical⟩ := case.complete (h.noError case hcase)
  have hsome := (exists_canonicalMetricScores_iff scores).mp hcanonical metric
  rw [EvaluationCase.score, hscores]
  exact Option.isSome_iff_exists.mp hsome

theorem exists_values (h : Evidence request expert finished) (hne : request.testCases ≠ [])
    (metric : MetricName) :
    ∃ first rest, finished.cases.filterMap (·.score metric) = first :: rest := by
  cases hcases : finished.cases with
  | nil =>
    have hlength := h.length_cases
    rw [hcases, List.length_nil] at hlength
    exact absurd (List.length_eq_zero_iff.mp hlength.symm) hne
  | cons case cases =>
    have hmem : case ∈ finished.cases := by
      rw [hcases]
      exact List.mem_cons_self
    obtain ⟨score, hscore⟩ := h.exists_score hmem metric
    exact ⟨score, _, List.filterMap_cons_some hscore⟩

theorem checkAggregate (h : Evidence request expert finished) (hne : request.testCases ≠ [])
    (metric : MetricName) : checkAggregate finished metric = .ok () := by
  obtain ⟨first, rest, hvalues⟩ := h.exists_values hne metric
  obtain ⟨aggregate, hlookup, haggregate⟩ := lookup_computeAggregate h.aggregate hvalues
  have hscores : ¬ ∃ case ∈ finished.cases, case.score metric = none := by
    intro hmissing
    obtain ⟨case, hcase, hnone⟩ := hmissing
    obtain ⟨score, hscore⟩ := h.exists_score hcase metric
    rw [hnone] at hscore
    cases hscore
  unfold Evaluation.checkAggregate
  rw [check_bind_eq_ok, refuseIf_eq_ok, hvalues, hlookup]
  refine ⟨hscores, ?_⟩
  show refuseIf (aggregate.Matches first rest = false) _ = _
  rw [refuseIf_eq_ok, Bool.not_eq_false]
  exact AggregateMetrics.matches_of_ofValues haggregate

theorem hasMetricNames (h : Evidence request expert finished) (hne : request.testCases ≠ []) :
    hasMetricNames (finished.aggregate.map Prod.fst) = true := by
  unfold Evaluation.hasMetricNames
  rw [Bool.and_eq_true, List.all_eq_true, List.all_eq_true]
  constructor
  · intro key hkey
    exact decide_eq_true ((sublist_computeAggregate h.aggregate).subset hkey)
  · intro metric _
    obtain ⟨first, rest, hvalues⟩ := h.exists_values hne metric
    obtain ⟨aggregate, hlookup, _⟩ := lookup_computeAggregate h.aggregate hvalues
    obtain ⟨before, after, heq, _⟩ := List.lookup_eq_some_iff.mp hlookup
    apply decide_eq_true
    rw [heq, List.map_append]
    exact List.mem_append_right _ List.mem_cons_self

theorem isSha256_full (h : Evidence request expert finished) : isSha256 expert.full = true := by
  obtain ⟨_, _, hfull⟩ := expertFullCompositionFingerprint_eq_ok.mp h.fingerprint
  rw [← hfull]
  exact E.isSha256_sha256 _

theorem isSha256_invariant (h : Evidence request expert finished) :
    isSha256 expert.invariant = true :=
  (expertFullCompositionFingerprint_eq_ok.mp h.fingerprint).2.1

theorem isSha256_identities (h : Evidence request expert finished) :
    ¬ ∃ value ∈ [finished.testSetDigest, finished.bodyOfKnowledgeDigest,
        finished.invariantCompositionFingerprint, finished.fullCompositionFingerprint] ++
        (finished.successfulCaseDigests.getD []).map some, value.any isSha256 = false := by
  intro hexists
  obtain ⟨value, hvalue, hfails⟩ := hexists
  have hholds : value.any isSha256 = true := by
    rw [h.testSet, h.bodyOfKnowledge, h.invariant, h.full, h.caseDigests] at hvalue
    simp only [List.mem_append, List.mem_cons, List.not_mem_nil, or_false, Option.getD_some,
      List.mem_map] at hvalue
    obtain (rfl | rfl | rfl | rfl) | ⟨digest, ⟨case, _, rfl⟩, rfl⟩ := hvalue
    · exact E.isSha256_sha256 _
    · exact E.isSha256_sha256 _
    · exact h.isSha256_invariant
    · exact h.isSha256_full
    · exact E.isSha256_sha256 _
  rw [hfails] at hholds
  cases hholds

theorem counts_nonneg (h : Evidence request expert finished) :
    ¬ (finished.testCaseCount < 0 ∨ finished.successCount < 0 ∨ finished.failureCount < 0) := by
  rw [h.testCaseCount, h.successCount, h.failureCount]
  omega

theorem inventory (h : Evidence request expert finished) :
    ¬ (finished.testCaseCount ≠ finished.cases.length ∨
      finished.successCount + finished.failureCount ≠ finished.testCaseCount) := by
  rw [h.testCaseCount, h.successCount, h.failureCount]
  omega

theorem ordered_by_count (h : Evidence request expert finished) :
    finished.cases.map (·.index) =
      (List.range finished.testCaseCount.toNat).map Int.ofNat := by
  rw [h.testCaseCount, Int.toNat_natCast]
  exact h.ordered

/-- What the check of successful cases finds is a case without an answer. -/
theorem exists_incomplete_iff (h : Evidence request expert finished) :
    (∃ case ∈ finished.cases, case.error ≠ none ∨ case.scores = none ∨ ¬ case.Answered) ↔
      ¬ ∀ case ∈ finished.cases, case.Answered := by
  constructor
  · intro hexists hall
    obtain ⟨case, hcase, herror | hscores | hanswered⟩ := hexists
    · exact herror (h.noError case hcase)
    · obtain ⟨scores, hsome, _⟩ := case.complete (h.noError case hcase)
      rw [hscores] at hsome
      cases hsome
    · exact hanswered (hall case hcase)
  · intro hall
    by_contra hexists
    apply hall
    intro case hcase
    by_contra hanswered
    exact hexists ⟨case, hcase, .inr (.inr hanswered)⟩

/-- The evidence of a run without failures is in order when its cases have answers. -/
theorem validatePersistedRun_iff (h : Evidence request expert finished)
    (hne : request.testCases ≠ []) :
    validatePersistedRun finished = .ok () ↔ ∀ case ∈ finished.cases, case.Answered := by
  unfold validatePersistedRun
  simp only [check_bind_eq_ok, refuseIf_eq_ok, forM_eq_ok, not_not, h.exists_incomplete_iff]
  constructor
  · intro hall
    exact hall.2.2.2.2.1
  · intro hall
    refine ⟨h.caseVersion, h.counts_nonneg, h.inventory, h.ordered_by_count, hall,
      h.isSha256_identities, h.caseDigests, h.testSet, ?_,
      fun metric _ => h.checkAggregate hne metric⟩
    rw [Bool.not_eq_false]
    exact h.hasMetricNames hne

/-- A run with an empty answer is refused as if one of its cases had failed. -/
theorem validatePersistedRun_of_not_answered (h : Evidence request expert finished)
    (hanswered : ¬ ∀ case ∈ finished.cases, case.Answered) :
    validatePersistedRun finished =
      .error (.value "Evaluation comparison requires complete successful cases") := by
  unfold validatePersistedRun
  rw [refuseIf_of_not (not_not.mpr h.caseVersion), refuseIf_of_not h.counts_nonneg,
    refuseIf_of_not h.inventory, refuseIf_of_not (not_not.mpr h.ordered_by_count),
    refuseIf_of (h.exists_incomplete_iff.mpr hanswered)]
  rfl

theorem lacksIdentity (h : Evidence request expert finished) : lacksIdentity finished = false := by
  have hmode : expert.mode ≠ "" := by
    obtain ⟨hmode, _, _⟩ := expertFullCompositionFingerprint_eq_ok.mp h.fingerprint
    intro hempty
    rw [hempty] at hmode
    exact absurd hmode (by decide)
  have hrevision := h.revisionSafe
  rw [Option.any_eq_true] at hrevision
  obtain ⟨revision, hsome, hsafe⟩ := hrevision
  have hsha : ∀ text, E.sha256 text ≠ "" := fun text =>
    ne_empty_of_isSha256 (E.isSha256_sha256 text)
  have hinvariant := ne_empty_of_isSha256 h.isSha256_invariant
  have hfull := ne_empty_of_isSha256 h.isSha256_full
  have hsafe := ne_empty_of_isSafeRevision hsafe
  simp [Evaluation.lacksIdentity, h.mode, h.testSet, h.bodyOfKnowledge, h.corpusRevision, hsome,
    h.invariant, h.full, h.caseDigests, hmode, orderedEvaluationCaseDigest, hsha, hinvariant,
    hfull, hsafe]

theorem isSafeRevision (h : Evidence request expert finished) :
    isSafeRevision (finished.corpusRevision.getD "") = true := by
  have hrevision := h.revisionSafe
  rw [Option.any_eq_true] at hrevision
  obtain ⟨revision, hsome, hsafe⟩ := hrevision
  rw [h.corpusRevision, hsome]
  exact hsafe

theorem checkFullFingerprint (h : Evidence request expert finished) :
    checkFullFingerprint finished = .ok () := by
  unfold Evaluation.checkFullFingerprint
  rw [h.invariant, h.mode, h.full]
  show ((expertFullCompositionFingerprint E expert.invariant expert.mode).mapError _ >>= _) = _
  rw [h.fingerprint]
  show refuseIf (some expert.full ≠ some expert.full) _ = _
  rw [refuseIf_eq_ok, not_not]

end Evidence

end VirtualContributor.Evaluation
