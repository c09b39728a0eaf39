import Mathlib.Algebra.Order.Field.Rat
import Mathlib.Data.List.Sort
import VirtualContributor.Lib.JsonCodec

/-!
# Metric scores and their aggregates

`evaluation/report.py`: the domain of a metric, the canonical inventory of the
scores of a case, and the statistics over the cases of a run.

A number that the code has let through as a metric is a `UnitMetric`: a float
between zero and one.  The arithmetic of floats computes exactly and rounds; the
rounding is a parameter, and the floats have no NaN.
-/

namespace VirtualContributor.Evaluation

open Lib

/-! ## Floats -/

/-- Floats with the rounding of a number to the nearest one; a number too large for a
float goes to an infinity. -/
structure PythonFloats extends JsonFloats where
  round : Rat → JsonFloat
  round_isFloat : ∀ q, isFloat (round q) = true

abbrev PythonFloats.Float (P : PythonFloats) : Type := { x : JsonFloat // P.isFloat x = true }

/-- An operation on a finite float; infinities stay what they are. -/
def mapFinite (f : Rat → JsonFloat) : JsonFloat → JsonFloat
  | .finite q => f q
  | .infinite negative => .infinite negative

variable (P : PythonFloats)

def PythonFloats.nearest (q : Rat) : P.Float := ⟨P.round q, P.round_isFloat q⟩

/-- `float(value)` of a real number that is no bool: `none` for other values and for an integer
that is too large. -/
def realOf : Json → Option P.Float
  | .int n =>
    match P.nearest n with
    | ⟨.finite q, h⟩ => some ⟨.finite q, h⟩
    | ⟨.infinite _, _⟩ => none
  | .float x => if h : P.isFloat x = true then some ⟨x, h⟩ else none
  | _ => none

/-! ## The domain of a metric -/

structure UnitMetric where
  value : Rat
  isFloat : P.isFloat (.finite value) = true
  nonneg : 0 ≤ value
  le_one : value ≤ 1
deriving DecidableEq

variable {P}

def UnitMetric.float (metric : UnitMetric P) : P.Float := ⟨.finite metric.value, metric.isFloat⟩

def UnitMetric.write (metric : UnitMetric P) : Json := .float (.finite metric.value)

variable (P)

def unitMetric : P.Float → Except String (UnitMetric P)
  | ⟨.finite q, hfloat⟩ =>
    if h : 0 ≤ q ∧ q ≤ 1 then .ok ⟨q, hfloat, h.1, h.2⟩
    else .error "Evaluation metric must be within inclusive [0, 1]"
  | ⟨.infinite _, _⟩ => .error "Evaluation metric must be within inclusive [0, 1]"

/-- Validate the public metric domain before it can become evidence. -/
def finiteUnitMetric (value : Json) : Except String (UnitMetric P) :=
  match realOf P value with
  | none => .error "Evaluation metric must be a finite real number"
  | some x => unitMetric P x

variable {P}

@[simp] theorem unitMetric_float (metric : UnitMetric P) :
    unitMetric P metric.float = .ok metric := by
  rw [UnitMetric.float, unitMetric, dif_pos ⟨metric.nonneg, metric.le_one⟩]

@[simp] theorem realOf_write (metric : UnitMetric P) :
    realOf P metric.write = some metric.float := by
  rw [UnitMetric.write, realOf, dif_pos metric.isFloat]
  rfl

@[simp] theorem finiteUnitMetric_write (metric : UnitMetric P) :
    finiteUnitMetric P metric.write = .ok metric := by
  simp only [finiteUnitMetric, realOf_write, unitMetric_float]

theorem eq_of_unitMetric {x : P.Float} {metric : UnitMetric P}
    (h : unitMetric P x = .ok metric) : x = metric.float := by
  obtain ⟨x, hx⟩ := x
  cases x with
  | finite q =>
    rw [unitMetric] at h
    split at h
    · cases h
      rfl
    · cases h
  | infinite negative => cases h

/-- A metric field of a record. -/
def metricCodec (P : PythonFloats) : JsonCodec P.toJsonFloats (UnitMetric P) where
  write := UnitMetric.write
  read value := (finiteUnitMetric P value).mapError fun message => ⟨[], .refused message⟩
  fits _ := True
  read_write metric := by
    rw [finiteUnitMetric_write]
    rfl
  printable metric _ := .float _ metric.isFloat

/-! ## The scores of a case -/

inductive MetricName where
  | faithfulness
  | answerRelevancy
  | contextPrecision
  | contextRecall
deriving DecidableEq

def MetricName.text : MetricName → String
  | .faithfulness => "faithfulness"
  | .answerRelevancy => "answer_relevancy"
  | .contextPrecision => "context_precision"
  | .contextRecall => "context_recall"

def METRIC_NAMES : List MetricName :=
  [.faithfulness, .answerRelevancy, .contextPrecision, .contextRecall]

def METRIC_ALIASES : List (String × MetricName) :=
  [("faithfulness", .faithfulness), ("answer_relevancy", .answerRelevancy),
    ("llm_context_precision_without_reference", .contextPrecision),
    ("context_precision", .contextPrecision), ("context_recall", .contextRecall)]

/-- The float `1e-9`. -/
def UNIT_CLAMP_TOLERANCE : Rat := 4835703278458517 / 2 ^ 82

/-- The float `1.0 + _UNIT_CLAMP_TOLERANCE`. -/
def UNIT_CLAMP_UPPER : Rat := 1 + 4503600 / 2 ^ 52

/-- Absorb float round-off at the producer boundary. -/
def clampUnitFloatError (P : PythonFloats) (value : Json) : Except String Json :=
  match value, realOf P value with
  | .int _, none => .error "int too large to convert to float"
  | _, some ⟨.finite numeric, _⟩ =>
    if 1 < numeric ∧ numeric ≤ UNIT_CLAMP_UPPER then .ok (.float (.finite 1))
    else if -UNIT_CLAMP_TOLERANCE ≤ numeric ∧ numeric < 0 then .ok (.float (.finite 0))
    else .ok value
  | _, _ => .ok value

/-- The scores that have been mapped, with one more. -/
def addScore (P : PythonFloats) (canonical : List (MetricName × UnitMetric P))
    (entry : String × Json) : Except String (List (MetricName × UnitMetric P)) :=
  match METRIC_ALIASES.lookup entry.1 with
  | none => .error "Evaluation metrics must use exactly the canonical inventory"
  | some mapped =>
    if mapped ∈ canonical.map Prod.fst then
      .error "Evaluation metrics must use exactly the canonical inventory"
    else do
      let value ← clampUnitFloatError P entry.2
      let metric ← finiteUnitMetric P value
      return canonical ++ [(mapped, metric)]

/-- Map the names of a score record once and require exactly four usable metrics. -/
def canonicalMetricScores (P : PythonFloats) (values : Fields) :
    Except String (List (MetricName × UnitMetric P)) := do
  let canonical ← values.foldlM (addScore P) []
  if METRIC_NAMES.all (· ∈ canonical.map Prod.fst) then .ok canonical
  else .error "Evaluation metrics must include every required metric"

structure MetricScores (P : PythonFloats) where
  faithfulness : Option (UnitMetric P)
  answerRelevancy : Option (UnitMetric P)
  contextPrecision : Option (UnitMetric P)
  contextRecall : Option (UnitMetric P)
deriving DecidableEq

namespace MetricScores

def get (scores : MetricScores P) : MetricName → Option (UnitMetric P)
  | .faithfulness => scores.faithfulness
  | .answerRelevancy => scores.answerRelevancy
  | .contextPrecision => scores.contextPrecision
  | .contextRecall => scores.contextRecall

/-- `metric: float | None` -/
def scoreCodec (P : PythonFloats) : JsonCodec P.toJsonFloats (Option (UnitMetric P)) :=
  (metricCodec P).nullable nofun

def modelDump (scores : MetricScores P) : Fields :=
  METRIC_NAMES.map fun name => (name.text, (scoreCodec P).write (scores.get name))

def ofFields (P : PythonFloats) (values : Fields) : Except ReadError (MetricScores P) := do
  let faithfulness ← (scoreCodec P).field values "faithfulness" (some none)
  let answerRelevancy ← (scoreCodec P).field values "answer_relevancy" (some none)
  let contextPrecision ← (scoreCodec P).field values "context_precision" (some none)
  let contextRecall ← (scoreCodec P).field values "context_recall" (some none)
  return { faithfulness, answerRelevancy, contextPrecision, contextRecall }

def codec (P : PythonFloats) : JsonCodec P.toJsonFloats (MetricScores P) :=
  .record modelDump (ofFields P) (fun _ => True)
    (by
      intro scores
      unfold ofFields
      rw [JsonCodec.field_write (a := scores.faithfulness) _ rfl,
        JsonCodec.field_write (a := scores.answerRelevancy) _ rfl,
        JsonCodec.field_write (a := scores.contextPrecision) _ rfl,
        JsonCodec.field_write (a := scores.contextRecall) _ rfl]
      rfl)
    (fun _ => by
      show (METRIC_NAMES.map MetricName.text).Nodup
      decide)
    (by
      intro scores _ field hfield
      obtain ⟨name, _, rfl⟩ := List.mem_map.mp hfield
      exact (scoreCodec P).printable _ fun _ _ => trivial)

end MetricScores

/-! ### Complete scores -/

theorem lookup_text (name : MetricName) : METRIC_ALIASES.lookup name.text = some name := by
  cases name <;> rfl

theorem clampUnitFloatError_write (metric : UnitMetric P) :
    clampUnitFloatError P metric.write = .ok metric.write := by
  have hnonneg := metric.nonneg
  have hle := metric.le_one
  have hupper : ¬ (1 < metric.value ∧ metric.value ≤ UNIT_CLAMP_UPPER) := by
    intro h
    exact absurd h.1 (not_lt.mpr hle)
  have hlower : ¬ (-UNIT_CLAMP_TOLERANCE ≤ metric.value ∧ metric.value < 0) := by
    intro h
    exact absurd h.2 (not_lt.mpr hnonneg)
  have hreal := realOf_write metric
  unfold UnitMetric.write at hreal ⊢
  unfold clampUnitFloatError
  rw [hreal]
  show (if 1 < metric.value ∧ metric.value ≤ UNIT_CLAMP_UPPER then _
    else if -UNIT_CLAMP_TOLERANCE ≤ metric.value ∧ metric.value < 0 then _ else _) = _
  rw [if_neg hupper, if_neg hlower]

/-- One score of a case. -/
def scoreOf (scores : MetricScores P) (name : MetricName) :
    Except String (MetricName × UnitMetric P) :=
  match scores.get name with
  | some metric => .ok (name, metric)
  | none => .error "Evaluation metric must be a finite real number"

theorem addScore_get (scores : MetricScores P) {name : MetricName}
    {canonical : List (MetricName × UnitMetric P)} (h : name ∉ canonical.map Prod.fst) :
    addScore P canonical (name.text, (MetricScores.scoreCodec P).write (scores.get name)) =
      (scoreOf scores name).map fun entry => canonical ++ [entry] := by
  unfold addScore scoreOf
  rw [lookup_text]
  cases scores.get name with
  | none => simp only [if_neg h]; rfl
  | some metric =>
    have hclamp := clampUnitFloatError_write metric
    have hfinite := finiteUnitMetric_write metric
    simp only [if_neg h]
    show (clampUnitFloatError P metric.write >>= fun value => _) = _
    rw [hclamp]
    show (finiteUnitMetric P metric.write >>= fun metric => _) = _
    rw [hfinite]
    rfl

theorem foldlM_addScore (scores : MetricScores P) {names : List MetricName}
    {canonical : List (MetricName × UnitMetric P)}
    (h : (canonical.map Prod.fst ++ names).Nodup) :
    (names.map fun name => (name.text, (MetricScores.scoreCodec P).write (scores.get name))).foldlM
        (addScore P) canonical =
      (names.mapM (scoreOf scores)).map (canonical ++ ·) := by
  induction names generalizing canonical with
  | nil =>
    rw [List.map_nil, List.foldlM_nil, List.mapM_nil]
    show Except.ok canonical = .ok (canonical ++ [])
    rw [List.append_nil]
  | cons name names ih =>
    have hname : name ∉ canonical.map Prod.fst := by
      intro hmem
      exact (List.nodup_append.mp h).2.2 name hmem name List.mem_cons_self rfl
    rw [List.map_cons, List.foldlM_cons, List.mapM_cons, addScore_get scores hname]
    cases hget : scores.get name with
    | none =>
      rw [scoreOf, hget]
      rfl
    | some metric =>
      have hscore : scoreOf scores name = .ok (name, metric) := by rw [scoreOf, hget]
      rw [hscore]
      have hmore : ((canonical ++ [(name, metric)]).map Prod.fst ++ names).Nodup := by
        rw [List.map_append, List.append_assoc]
        exact h
      show List.foldlM (addScore P) (canonical ++ [(name, metric)]) _ = _
      rw [ih hmore]
      show _ = Except.map (canonical ++ ·) (names.mapM (scoreOf scores) >>= fun rest =>
        .ok ((name, metric) :: rest))
      cases names.mapM (scoreOf scores) with
      | error e => rfl
      | ok rest =>
        show Except.ok (canonical ++ [(name, metric)] ++ rest) = _
        rw [List.append_assoc]
        rfl

theorem mem_METRIC_NAMES (name : MetricName) : name ∈ METRIC_NAMES := by
  cases name <;> decide

theorem exists_scoreOf_iff (scores : MetricScores P) (name : MetricName) :
    (∃ entry, scoreOf scores name = .ok entry) ↔ (scores.get name).isSome = true := by
  unfold scoreOf
  cases scores.get name <;> simp

theorem map_fst_of_mapM {scores : MetricScores P} {names : List MetricName}
    {entries : List (MetricName × UnitMetric P)} (h : names.mapM (scoreOf scores) = .ok entries) :
    entries.map Prod.fst = names := by
  rw [mapM_eq_ok] at h
  induction h with
  | nil => rfl
  | cons hentry _ ih =>
    rw [List.map_cons, ih]
    congr 1
    unfold scoreOf at hentry
    split at hentry
    · cases hentry
      rfl
    · cases hentry

/-- The scores of a case pass for canonical when none is missing. -/
theorem exists_canonicalMetricScores_iff (scores : MetricScores P) :
    (∃ canonical, canonicalMetricScores P scores.modelDump = .ok canonical) ↔
      ∀ name, (scores.get name).isSome = true := by
  have hnames : (([] : List (MetricName × UnitMetric P)).map Prod.fst ++ METRIC_NAMES).Nodup := by
    show METRIC_NAMES.Nodup
    decide
  have hfold := foldlM_addScore scores hnames
  have hall : (∃ entries, METRIC_NAMES.mapM (scoreOf scores) = .ok entries) ↔
      ∀ name, (scores.get name).isSome = true := by
    rw [exists_mapM_eq_ok]
    simp only [exists_scoreOf_iff]
    exact ⟨fun h name => h name (mem_METRIC_NAMES name), fun h name _ => h name⟩
  rw [← hall]
  unfold canonicalMetricScores MetricScores.modelDump
  rw [hfold]
  cases hentries : METRIC_NAMES.mapM (scoreOf scores) with
  | error e =>
    constructor
    · intro h
      obtain ⟨canonical, h⟩ := h
      cases h
    · intro h
      obtain ⟨entries, h⟩ := h
      cases h
  | ok entries =>
    refine ⟨fun _ => ⟨entries, rfl⟩, fun _ => ⟨entries, ?_⟩⟩
    have hfst := map_fst_of_mapM hentries
    show (if METRIC_NAMES.all (· ∈ entries.map Prod.fst) then _ else _) = _
    rw [hfst]
    rfl

/-! ## Aggregates -/

section

variable (P)

/-- `statistics.mean(values)` -/
def mean (values : List (UnitMetric P)) : P.Float :=
  P.nearest ((values.map UnitMetric.value).sum / values.length)

/-- `statistics.median(values)` of values of which one is the first. -/
def median (first : UnitMetric P) (values : List (UnitMetric P)) : P.Float :=
  let data := values.insertionSort fun a b => a.value ≤ b.value
  let upper := data.getD (data.length / 2) first
  if data.length % 2 = 1 then upper.float
  else
    match P.nearest ((data.getD (data.length / 2 - 1) first).value + upper.value) with
    | ⟨.finite total, _⟩ => P.nearest (total / 2)
    | total => total

end

/-- `min(values)` -/
def minimum (first : UnitMetric P) (rest : List (UnitMetric P)) : UnitMetric P :=
  rest.foldl (fun least metric => if metric.value < least.value then metric else least) first

/-- `max(values)` -/
def maximum (first : UnitMetric P) (rest : List (UnitMetric P)) : UnitMetric P :=
  rest.foldl (fun most metric => if most.value < metric.value then metric else most) first

/-- Summary statistics for a single metric across all cases. -/
structure AggregateMetrics (P : PythonFloats) where
  mean : UnitMetric P
  median : UnitMetric P
  min : UnitMetric P
  max : UnitMetric P
deriving DecidableEq

namespace AggregateMetrics

/-- The statistics of the values of a metric, if they are metrics again. -/
def ofValues (first : UnitMetric P) (rest : List (UnitMetric P)) :
    Except String (AggregateMetrics P) := do
  let mean ← unitMetric P (Evaluation.mean P (first :: rest))
  let median ← unitMetric P (Evaluation.median P first (first :: rest))
  let min ← unitMetric P (minimum first rest).float
  let max ← unitMetric P (maximum first rest).float
  return { mean, median, min, max }

def modelDump (aggregate : AggregateMetrics P) : Fields :=
  [("mean", aggregate.mean.write), ("median", aggregate.median.write),
    ("min", aggregate.min.write), ("max", aggregate.max.write)]

def ofFields (P : PythonFloats) (values : Fields) : Except ReadError (AggregateMetrics P) := do
  let mean ← (metricCodec P).field values "mean" none
  let median ← (metricCodec P).field values "median" none
  let min ← (metricCodec P).field values "min" none
  let max ← (metricCodec P).field values "max" none
  return { mean, median, min, max }

def codec (P : PythonFloats) : JsonCodec P.toJsonFloats (AggregateMetrics P) :=
  .record modelDump (ofFields P) (fun _ => True)
    (by
      intro aggregate
      unfold ofFields
      rw [JsonCodec.field_write (a := aggregate.mean) _ rfl,
        JsonCodec.field_write (a := aggregate.median) _ rfl,
        JsonCodec.field_write (a := aggregate.min) _ rfl,
        JsonCodec.field_write (a := aggregate.max) _ rfl]
      rfl)
    (fun _ => by
      show ["mean", "median", "min", "max"].Nodup
      decide)
    (by
      intro aggregate _
      simp only [modelDump, List.forall_mem_cons]
      refine ⟨(metricCodec P).printable _ trivial, (metricCodec P).printable _ trivial,
        (metricCodec P).printable _ trivial, (metricCodec P).printable _ trivial, nofun⟩)

/-- Whether the statistics are those of the values, as the comparison recomputes them. -/
def Matches (aggregate : AggregateMetrics P) (first : UnitMetric P)
    (rest : List (UnitMetric P)) : Bool :=
  aggregate.mean.float = Evaluation.mean P (first :: rest) &&
    aggregate.median.float = Evaluation.median P first (first :: rest) &&
    aggregate.min.float = (minimum first rest).float &&
    aggregate.max.float = (maximum first rest).float

theorem matches_of_ofValues {first : UnitMetric P} {rest : List (UnitMetric P)}
    {aggregate : AggregateMetrics P} (h : ofValues first rest = .ok aggregate) :
    aggregate.Matches first rest = true := by
  unfold ofValues at h
  simp only [unitMetric_float, bind_eq_ok] at h
  obtain ⟨mean, hmean, median, hmedian, min, hmin, max, hmax, h⟩ := h
  obtain rfl := Except.ok.inj h
  obtain rfl := Except.ok.inj hmin
  obtain rfl := Except.ok.inj hmax
  simp [Matches, eq_of_unitMetric hmean, eq_of_unitMetric hmedian]

end AggregateMetrics

end VirtualContributor.Evaluation
