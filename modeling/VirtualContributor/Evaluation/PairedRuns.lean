import VirtualContributor.Evaluation.Evidence

/-!
# Paired runs

The runner and the comparison each decide for themselves what a successful case
is.  They agree but for one kind of case: the runner counts an empty answer as
a success, and the comparison refuses it (`comparison_accepts_iff`).
-/

namespace VirtualContributor.Evaluation

open Lib

variable {E : EvaluationHost}

/-! ## Pairs -/

/-- Evidence of a flat and of a hierarchical run of one experiment. -/
structure PairedEvidence (flat hierarchical : RunRequest E) (b c : ExpertIdentity)
    (baseline current : EvaluationRun E) : Prop where
  baseline : Evidence flat b baseline
  current : Evidence hierarchical c current
  nonempty : flat.testCases ≠ []
  testCases : hierarchical.testCases = flat.testCases
  flatMode : b.mode = "flat"
  hierarchicalMode : c.mode = "hierarchical"
  invariant : c.invariant = b.invariant
  bodyOfKnowledge : hierarchical.bodyOfKnowledgeId = flat.bodyOfKnowledgeId
  corpusRevision : hierarchical.corpusRevision = flat.corpusRevision
  full : b.full ≠ c.full

namespace PairedEvidence

variable {flat hierarchical : RunRequest E} {b c : ExpertIdentity}
  {baseline current : EvaluationRun E}

theorem identities (h : PairedEvidence flat hierarchical b c baseline current) :
    current.cases.map EvaluationCase.identity = baseline.cases.map EvaluationCase.identity := by
  rw [h.current.identities, h.baseline.identities, h.testCases]

theorem pairedFields (h : PairedEvidence flat hierarchical b c baseline current) :
    ∀ entry ∈ pairedFields baseline current, entry.2 = false := by
  have hdigests : ∀ cases : List (EvaluationCase E),
      (cases.map fun case => evaluationCaseDigest E case.identity) =
        (cases.map EvaluationCase.identity).map (evaluationCaseDigest E) := by
    intro cases
    rw [List.map_map]
    rfl
  simp [Evaluation.pairedFields, h.baseline.testSet, h.current.testSet,
    h.baseline.bodyOfKnowledge, h.current.bodyOfKnowledge, h.baseline.corpusRevision,
    h.current.corpusRevision, h.baseline.caseDigests, h.current.caseDigests,
    h.baseline.invariant, h.current.invariant, hdigests, h.identities, h.bodyOfKnowledge,
    h.corpusRevision, h.invariant]

/-- A check of both runs. -/
theorem not_exists_pair {p : EvaluationRun E → Prop} :
    (¬ ∃ finished ∈ [baseline, current], p finished) ↔ ¬ p baseline ∧ ¬ p current := by
  simp

theorem not_lacksIdentity (h : PairedEvidence flat hierarchical b c baseline current) :
    ¬ ∃ finished ∈ [baseline, current], lacksIdentity finished = true := by
  rw [not_exists_pair, h.baseline.lacksIdentity, h.current.lacksIdentity]
  decide

theorem versions (h : PairedEvidence flat hierarchical b c baseline current) :
    ¬ ∃ finished ∈ [baseline, current], finished.compositionIdentityVersion ≠ some 7 :=
  not_exists_pair.mpr ⟨not_not.mpr h.baseline.version, not_not.mpr h.current.version⟩

theorem caseVersions (h : PairedEvidence flat hierarchical b c baseline current) :
    ¬ ∃ finished ∈ [baseline, current],
      finished.caseIdentityVersion ≠ some CASE_IDENTITY_VERSION :=
  not_exists_pair.mpr ⟨not_not.mpr h.baseline.caseVersion, not_not.mpr h.current.caseVersion⟩

theorem plugins (h : PairedEvidence flat hierarchical b c baseline current) :
    ¬ (baseline.pluginType ≠ "expert" ∨ current.pluginType ≠ "expert") := by
  rw [h.baseline.plugin, h.current.plugin]
  decide

theorem modes (h : PairedEvidence flat hierarchical b c baseline current) :
    ¬ (baseline.hierarchyMode ≠ some "flat" ∨ current.hierarchyMode ≠ some "hierarchical") := by
  rw [h.baseline.mode, h.current.mode, h.flatMode, h.hierarchicalMode]
  decide

theorem failures (h : PairedEvidence flat hierarchical b c baseline current) :
    ¬ (baseline.failureCount ≠ 0 ∨ current.failureCount ≠ 0) := by
  rw [h.baseline.failureCount, h.current.failureCount]
  decide

theorem revisions (h : PairedEvidence flat hierarchical b c baseline current) :
    ¬ ∃ finished ∈ [baseline, current],
      isSafeRevision (finished.corpusRevision.getD "") = false := by
  rw [not_exists_pair, h.baseline.isSafeRevision, h.current.isSafeRevision]
  decide

theorem fingerprints (h : PairedEvidence flat hierarchical b c baseline current) :
    ¬ baseline.fullCompositionFingerprint = current.fullCompositionFingerprint := by
  rw [h.baseline.full, h.current.full]
  exact fun heq => h.full (Option.some.inj heq)

/-- Two runs of one experiment are compared when all their cases have answers. -/
theorem exists_computeComparison_iff (h : PairedEvidence flat hierarchical b c baseline current) :
    (∃ report, computeComparison baseline current = .ok report) ↔
      (∀ case ∈ baseline.cases, case.Answered) ∧ ∀ case ∈ current.cases, case.Answered := by
  have hne : hierarchical.testCases ≠ [] := by
    rw [h.testCases]
    exact h.nonempty
  rw [← h.baseline.validatePersistedRun_iff h.nonempty,
    ← h.current.validatePersistedRun_iff hne]
  unfold computeComparison
  simp only [check_bind_eq_ok, refuseIf_eq_ok, forM_eq_ok]
  constructor
  · intro hreport
    obtain ⟨report, _, _, _, _, _, _, hvalid, _⟩ := hreport
    exact ⟨hvalid baseline List.mem_cons_self,
      hvalid current (List.mem_cons_of_mem _ List.mem_cons_self)⟩
  · intro hvalid
    refine ⟨comparisonReport baseline current, h.not_lacksIdentity, h.versions, h.caseVersions,
      h.plugins, h.modes, h.failures, ?_, h.revisions, ?_, h.fingerprints, ?_, rfl⟩
    · simpa using hvalid
    · intro entry hentry
      rw [h.pairedFields entry hentry]
      exact Bool.false_ne_true
    · simpa using ⟨h.baseline.checkFullFingerprint, h.current.checkFullFingerprint⟩

/-- A flat run with an empty answer is not compared. -/
theorem computeComparison_of_not_answered
    (h : PairedEvidence flat hierarchical b c baseline current)
    (hanswered : ¬ ∀ case ∈ baseline.cases, case.Answered) :
    computeComparison baseline current =
      .error (.value "Evaluation comparison requires complete successful cases") := by
  have hvalidate := h.baseline.validatePersistedRun_of_not_answered hanswered
  unfold computeComparison
  dsimp only
  rw [refuseIf_of_not h.not_lacksIdentity, refuseIf_of_not h.versions,
    refuseIf_of_not h.caseVersions, refuseIf_of_not h.plugins, refuseIf_of_not h.modes,
    refuseIf_of_not h.failures]
  show (validatePersistedRun baseline >>= _) >>= _ = _
  rw [hvalidate]
  rfl

end PairedEvidence

/-! ## Runs of the runner -/

/-- Two Expert runs of one test set that the runner has produced without failures, the first flat
and the second hierarchical, for one body of knowledge, corpus revision and invariant
fingerprint. -/
structure PairedRuns (flat hierarchical : RunRequest E)
    (baseline current : EvaluationRun E × SavedFile) : Prop where
  flatRun : run flat = .ok baseline
  hierarchicalRun : run hierarchical = .ok current
  flatExpert : normalizedPlugin flat = "expert"
  hierarchicalExpert : normalizedPlugin hierarchical = "expert"
  flatMode : flat.identity.hierarchyMode = some "flat"
  hierarchicalMode : hierarchical.identity.hierarchyMode = some "hierarchical"
  nonempty : flat.testCases ≠ []
  testCases : hierarchical.testCases = flat.testCases
  bodyOfKnowledge : hierarchical.bodyOfKnowledgeId = flat.bodyOfKnowledgeId
  corpusRevision : hierarchical.corpusRevision = flat.corpusRevision
  invariant : hierarchical.identity.invariant = flat.identity.invariant
  baselineFailures : baseline.1.failureCount = 0
  currentFailures : current.1.failureCount = 0

/-- SHA-256 tells the two modes of a composition apart. -/
def TellsModes (request : RunRequest E) : Prop :=
  ∀ invariant, request.identity.invariant = some invariant →
    E.sha256 (fullCompositionPayload E invariant "flat") ≠
      E.sha256 (fullCompositionPayload E invariant "hierarchical")

namespace PairedRuns

variable {flat hierarchical : RunRequest E} {baseline current : EvaluationRun E × SavedFile}

theorem evidence (h : PairedRuns flat hierarchical baseline current) (hmodes : TellsModes flat) :
    ∃ b c, PairedEvidence flat hierarchical b c baseline.1 current.1 ∧
      baseline.2.text = persistedText baseline.1 ∧ current.2.text = persistedText current.1 := by
  obtain ⟨b, hb, hbrevision, hbrun, hbfile⟩ := run_eq_ok h.flatRun h.flatExpert
  obtain ⟨c, hc, hcrevision, hcrun, hcfile⟩ := run_eq_ok h.hierarchicalRun h.hierarchicalExpert
  obtain ⟨hbmode, hbinvariant, hbfull⟩ := checkIdentity_eq_ok hb
  obtain ⟨hcmode, hcinvariant, hcfull⟩ := checkIdentity_eq_ok hc
  have hflat : b.mode = "flat" := Option.some.inj (hbmode.symm.trans h.flatMode)
  have hhierarchical : c.mode = "hierarchical" :=
    Option.some.inj (hcmode.symm.trans h.hierarchicalMode)
  have hinvariant : c.invariant = b.invariant := by
    apply Option.some.inj
    rw [← hcinvariant, ← hbinvariant, h.invariant]
  have hdiffer : b.full ≠ c.full := by
    rw [expertFullCompositionFingerprint_eq_ok] at hbfull hcfull
    rw [← hbfull.2.2, ← hcfull.2.2, hflat, hhierarchical, hinvariant]
    exact hmodes b.invariant hbinvariant
  refine ⟨b, c, ?_, hbfile, hcfile⟩
  exact
    { baseline := evidence_of_finishRun hbrun hb hbrevision h.baselineFailures
      current := evidence_of_finishRun hcrun hc hcrevision h.currentFailures
      nonempty := h.nonempty
      testCases := h.testCases
      flatMode := hflat
      hierarchicalMode := hhierarchical
      invariant := hinvariant
      bodyOfKnowledge := h.bodyOfKnowledge
      corpusRevision := h.corpusRevision
      full := hdiffer }

end PairedRuns

/-- The comparison accepts the files of two paired runs without failures exactly when no answer
of the pipeline was empty. -/
theorem comparison_accepts_iff {flat hierarchical : RunRequest E}
    {baseline current : EvaluationRun E × SavedFile}
    (h : PairedRuns flat hierarchical baseline current) (hmodes : TellsModes flat)
    (hdigits : flat.testCases.length < 10 ^ MAX_STR_DIGITS) :
    (∃ b c report, loadComparisonRun E baseline.2.text = .ok b ∧
        loadComparisonRun E current.2.text = .ok c ∧ computeComparison b c = .ok report) ↔
      flat.Answered ∧ hierarchical.Answered := by
  obtain ⟨b, c, hpaired, hbfile, hcfile⟩ := h.evidence hmodes
  have hcdigits : hierarchical.testCases.length < 10 ^ MAX_STR_DIGITS := by
    rw [h.testCases]
    exact hdigits
  rw [hbfile, hcfile, hpaired.baseline.loads hdigits, hpaired.current.loads hcdigits,
    ← hpaired.baseline.answered, ← hpaired.current.answered, ← hpaired.exists_computeComparison_iff]
  constructor
  · intro haccepts
    obtain ⟨b, c, report, hb, hc, hreport⟩ := haccepts
    obtain rfl := Except.ok.inj hb
    obtain rfl := Except.ok.inj hc
    exact ⟨report, hreport⟩
  · intro haccepts
    obtain ⟨report, hreport⟩ := haccepts
    exact ⟨_, _, report, rfl, rfl, hreport⟩

/-! ## Two runs of one case -/

/-- The floats `0.0` and `1.0`. -/
def unitFloats : PythonFloats where
  float text := if text = "1.0" then .finite 1 else .finite 0
  repr value := if value = .finite 1 then "1.0" else "0.0"
  isFloat value := value = .finite 0 || value = .finite 1
  float_repr := by
    intro value h
    simp only [Bool.or_eq_true, decide_eq_true_eq] at h
    obtain rfl | rfl := h <;> decide
  repr_literal := by
    intro value h
    simp only [Bool.or_eq_true, decide_eq_true_eq] at h
    obtain rfl | rfl := h <;> exact .inr (.inr ⟨.fraction, by decide, rfl⟩)
  round q := if q = 1 then .finite 1 else .finite 0
  round_isFloat := by
    intro q
    split <;> decide

def unitFloat : unitFloats.Float := ⟨.finite 1, by decide⟩

/-- Fields that hold a value of their type. -/
def plainFields : Coercions unitFloats where
  int?
    | .int n => some n
    | _ => none
  float?
    | .float x => if h : unitFloats.isFloat x = true then some ⟨x, h⟩ else none
    | _ => none
  bool?
    | .bool b => some b
    | _ => none
  int?_int _ := rfl
  float?_float x := dif_pos x.property
  bool?_bool _ := rfl

/-- An invariant fingerprint. -/
def INVARIANT : String := "aaaaaaaaaaaaaaaaaaaaaaaaaaaaaaaaaaaaaaaaaaaaaaaaaaaaaaaaaaaaaaaa"

/-- The digests of the two compositions, of the case, of the test set and of the empty text. -/
def DIGESTS : List (String × String) :=
  [("\x7b\"invariant\":\"" ++ INVARIANT ++
        "\",\"mode\":\"flat\",\"schema\":\"expert-composition/v7\"\x7d",
      "6214ec17d339a342d78da062fe25128078c2bcf5f7f2fca2555f739e7802e513"),
    ("\x7b\"invariant\":\"" ++ INVARIANT ++
        "\",\"mode\":\"hierarchical\",\"schema\":\"expert-composition/v7\"\x7d",
      "75d8bd886dc0ec191e6892b28660c1447baadab9d56155c5f8b42ac82466d214"),
    ("\x7b\"expected_answer\":\"A platform.\",\"question\":\"What is Alkemio?\"," ++
        "\"relevant_documents\":[],\"schema\":\"evaluation-case-identity/v1\"\x7d",
      "d33a5041d3177551ad15cbb98190e8734afebafa55ead4f0b2665562affa4d2b"),
    ("[\x7b\"expected_answer\":\"A platform.\",\"question\":\"What is Alkemio?\"," ++
        "\"relevant_documents\":[],\"schema\":\"evaluation-case-identity/v1\"\x7d]",
      "b667ef81df337030cad08a9baec9572c9e56049ce3ecd88a7d1766baf3e5d62c"),
    ("", "e3b0c44298fc1c149afbf4c8996fb92427ae41e4649b934ca495991b7852b855")]

def sampleHost : EvaluationHost where
  unicode := { toUnicodeText := asciiUnicode, nfc := id, isDecimal := Char.isDigit }
  floats := unitFloats
  pydantic := plainFields
  sha256 text := (DIGESTS.lookup text).getD
    "0000000000000000000000000000000000000000000000000000000000000000"
  isSha256_sha256 := by
    intro text
    cases h : DIGESTS.lookup text with
    | none => decide +kernel
    | some digest =>
      obtain ⟨before, after, heq, _⟩ := List.lookup_eq_some_iff.mp h
      have hall : ∀ entry ∈ DIGESTS, isSha256 entry.2 = true := by decide +kernel
      exact hall (text, digest) (by simp [heq])
  validationText _ := "validation error"

/-- A run of one case, with the answer of the pipeline. -/
def sampleRequest (mode full answer : String) : RunRequest sampleHost where
  testCases := [⟨"What is Alkemio?", "A platform.", [], []⟩]
  pluginType := "expert"
  label := some mode
  testSetPath := "evaluation/golden/test_set.jsonl"
  bodyOfKnowledgeId := none
  corpusRevision := some "r1"
  categoryScope := none
  identity :=
    { compositionFingerprint := some INVARIANT
      hierarchyMode := some mode
      invariant := some INVARIANT
      full := some full }
  attempts _ :=
    { invoked := .ok ⟨answer, [], []⟩
      scored := .ok (METRIC_NAMES.map fun metric => (metric.text, .float (.finite 1)))
      duration := unitFloat }
  startText := "20260101T000000"
  timestamp := "2026-01-01T00:00:00+00:00"
  duration := unitFloat

def flatRequest (answer : String) : RunRequest sampleHost :=
  sampleRequest "flat" "6214ec17d339a342d78da062fe25128078c2bcf5f7f2fca2555f739e7802e513" answer

def hierarchicalRequest (answer : String) : RunRequest sampleHost :=
  sampleRequest "hierarchical" "75d8bd886dc0ec191e6892b28660c1447baadab9d56155c5f8b42ac82466d214"
    answer

theorem normalizedPlugin_sample (mode full answer : String) :
    normalizedPlugin (sampleRequest mode full answer) = "expert" := by
  show String.ofList ((sampleHost.unicode.lower "expert").toList.map _) = "expert"
  decide +kernel

theorem length_sample (mode full answer : String) :
    (sampleRequest mode full answer).testCases.length < 10 ^ MAX_STR_DIGITS :=
  Nat.one_lt_pow (by decide) (by decide)

theorem exists_run {request : RunRequest E} {n : Int}
    (h : (run request).map (fun made => made.1.failureCount) = .ok n) :
    ∃ made, run request = .ok made ∧ made.1.failureCount = n := by
  cases hrun : run request with
  | error e =>
    rw [hrun] at h
    cases h
  | ok made =>
    rw [hrun] at h
    exact ⟨made, rfl, Except.ok.inj h⟩

theorem failureCount_flat :
    (run (flatRequest "A platform.")).map (fun made => made.1.failureCount) = .ok 0 := by
  decide +kernel

theorem failureCount_flat_empty :
    (run (flatRequest "")).map (fun made => made.1.failureCount) = .ok 0 := by
  decide +kernel

theorem failureCount_hierarchical :
    (run (hierarchicalRequest "A platform.")).map (fun made => made.1.failureCount) = .ok 0 := by
  decide +kernel

theorem exists_pairedRuns {answer : String}
    (h : (run (flatRequest answer)).map (fun made => made.1.failureCount) = .ok 0) :
    ∃ baseline current,
      PairedRuns (flatRequest answer) (hierarchicalRequest "A platform.") baseline current := by
  obtain ⟨baseline, hbaseline, hbfailures⟩ := exists_run h
  obtain ⟨current, hcurrent, hcfailures⟩ := exists_run failureCount_hierarchical
  refine ⟨baseline, current, ?_⟩
  exact
    { flatRun := hbaseline
      hierarchicalRun := hcurrent
      flatExpert := normalizedPlugin_sample _ _ _
      hierarchicalExpert := normalizedPlugin_sample _ _ _
      flatMode := rfl
      hierarchicalMode := rfl
      nonempty := List.cons_ne_nil _ _
      testCases := rfl
      bodyOfKnowledge := rfl
      corpusRevision := rfl
      invariant := rfl
      baselineFailures := hbfailures
      currentFailures := hcfailures }

theorem tellsModes_flat (answer : String) : TellsModes (flatRequest answer) := by
  intro invariant hinvariant
  obtain rfl := Option.some.inj hinvariant
  decide +kernel

theorem answered_sample {mode full answer : String} (h : answer ≠ "") :
    (sampleRequest mode full answer).Answered := by
  intro idx _ invocation hinvoked
  obtain rfl := Except.ok.inj hinvoked
  exact h

/-- The theorem for two runs in which the pipeline gives the expected answer. -/
theorem comparison_accepts_iff_platform :
    ∃ baseline current, run (flatRequest "A platform.") = .ok baseline ∧
      run (hierarchicalRequest "A platform.") = .ok current ∧
      ∃ b c report, loadComparisonRun sampleHost baseline.2.text = .ok b ∧
        loadComparisonRun sampleHost current.2.text = .ok c ∧
        computeComparison b c = .ok report := by
  obtain ⟨baseline, current, h⟩ := exists_pairedRuns failureCount_flat
  refine ⟨baseline, current, h.flatRun, h.hierarchicalRun, ?_⟩
  apply (comparison_accepts_iff h (tellsModes_flat _) (length_sample _ _ _)).mpr
  exact ⟨answered_sample (by decide), answered_sample (by decide)⟩

/-- The runner counts the empty answer of the flat run as a success, and the comparison refuses
the run. -/
theorem empty_answer_refused :
    ∃ baseline current,
      PairedRuns (flatRequest "") (hierarchicalRequest "A platform.") baseline current ∧
      loadComparisonRun sampleHost baseline.2.text = .ok baseline.1 ∧
      loadComparisonRun sampleHost current.2.text = .ok current.1 ∧
      computeComparison baseline.1 current.1 =
        .error (.value "Evaluation comparison requires complete successful cases") := by
  obtain ⟨baseline, current, h⟩ := exists_pairedRuns failureCount_flat_empty
  obtain ⟨b, c, hpaired, hbfile, hcfile⟩ := h.evidence (tellsModes_flat "")
  have hempty : ¬ ∀ case ∈ baseline.1.cases, case.Answered := by
    rw [hpaired.baseline.answered]
    intro hanswered
    exact hanswered 0 Nat.one_pos ⟨"", [], []⟩ rfl rfl
  refine ⟨baseline, current, h, ?_, ?_, hpaired.computeComparison_of_not_answered hempty⟩
  · rw [hbfile]
    exact hpaired.baseline.loads (length_sample _ _ _)
  · rw [hcfile]
    exact hpaired.current.loads (length_sample _ _ _)

end VirtualContributor.Evaluation
