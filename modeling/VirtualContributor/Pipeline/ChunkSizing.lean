import VirtualContributor.Lib.Checks
import VirtualContributor.Pipeline.Chunking

/-!
# Chunk sizing

The ingest sizing of `core/config.py`, as it is validated at startup, and what
`ChunkStep` hands to the splitter.

* `validate_eq_ok`: the sizings that are accepted.
* `overlap_bounded_iff`: the overlap that is handed over is at most half of the
  size, unless the kind of document replaces the size alone.
-/

namespace VirtualContributor.Pipeline

open Lib

/-! ## Configuration -/

/-- Ceiling for ingest chunk sizing. -/
def MAX_CHUNK_SIZE : Int := 100000

/-- The ingest sizing fields of `BaseConfig`. -/
structure IngestSizing where
  chunkSize : Int := 2000
  chunkOverlap : Int := 400
  summaryLength : Int := 2500

namespace IngestSizing

/-- The sizing of `IngestSpaceConfig`. -/
def ingestSpace : IngestSizing where
  chunkSize := 2500
  chunkOverlap := 300

/-- `if wrong: raise ValueError(text)`. -/
def reject (wrong : Prop) [Decidable wrong] (text : String) : Except String Unit :=
  if wrong then .error text else .ok ()

theorem reject_eq_ok {wrong : Prop} [Decidable wrong] {text : String} :
    reject wrong text = .ok () ↔ ¬wrong := by
  unfold reject
  split <;> simp_all

/-- The ingest sizing validation.  The other checks of `BaseConfig` read none
of these fields. -/
def validate (config : IngestSizing) : Except String Unit := do
  let half := config.chunkSize / 2
  reject (config.chunkSize ≤ 0) s!"CHUNK_SIZE must be greater than 0, got {config.chunkSize}"
  reject (config.chunkOverlap < 0)
    s!"CHUNK_OVERLAP must be greater than or equal to 0, got {config.chunkOverlap}"
  reject (half < config.chunkOverlap)
    (s!"CHUNK_OVERLAP must not exceed half of CHUNK_SIZE, got {config.chunkOverlap} > " ++
      s!"{half} (CHUNK_SIZE={config.chunkSize})")
  reject (MAX_CHUNK_SIZE < config.chunkSize)
    s!"CHUNK_SIZE must not exceed {MAX_CHUNK_SIZE}, got {config.chunkSize}"
  reject (config.summaryLength ≤ 0)
    s!"SUMMARY_LENGTH must be greater than 0, got {config.summaryLength}"

/-- The step that the ingest plugins build. -/
def chunkStep (config : IngestSizing) : ChunkStep where
  chunkSize := config.chunkSize.toNat
  chunkOverlap := config.chunkOverlap.toNat

/-- An accepted sizing. -/
structure Valid (config : IngestSizing) : Prop where
  chunkSize_pos : 0 < config.chunkSize
  chunkOverlap_nonneg : 0 ≤ config.chunkOverlap
  overlap_le_half : config.chunkOverlap ≤ config.chunkSize / 2
  chunkSize_le : config.chunkSize ≤ MAX_CHUNK_SIZE
  summaryLength_pos : 0 < config.summaryLength

theorem validate_eq_ok {config : IngestSizing} : config.validate = .ok () ↔ config.Valid := by
  unfold validate
  simp only [check_bind_eq_ok, reject_eq_ok, Int.not_le, Int.not_lt]
  constructor
  · intro h
    obtain ⟨hsize, hoverlap, hhalf, hmax, hlength⟩ := h
    exact ⟨hsize, hoverlap, hhalf, hmax, hlength⟩
  · intro h
    exact ⟨h.chunkSize_pos, h.chunkOverlap_nonneg, h.overlap_le_half, h.chunkSize_le,
      h.summaryLength_pos⟩

/-- The defaults of both configurations are accepted. -/
example : validate {} = .ok () ∧ ingestSpace.validate = .ok () := by decide

end IngestSizing

/-! ## The splitter -/

namespace ChunkStep

/-- The overlap that the step hands to the splitter is at most half of the size
that it hands over, for documents of this type. -/
def HalfOverlap (step : ChunkStep) (type : Option String) : Prop :=
  let splitter := step.splitterFor (resolveStrategy type)
  2 * splitter.2 ≤ splitter.1

/-- The sizes of a kind of documents: its own, those of the step, or its own
size with the overlap of the step. -/
theorem resolveStrategy_cases (type : Option String) :
    (resolveStrategy type).chunkOverlap = some 0 ∨
      (resolveStrategy type).chunkSize = none ∧ (resolveStrategy type).chunkOverlap = none ∧
        type ≠ some "post" ∨
      type = some "post" := by
  unfold resolveStrategy
  split <;> simp_all [defaultStrategy]

theorem splitterFor_zero {step : ChunkStep} {strategy : ChunkStrategy}
    (h : strategy.chunkOverlap = some 0) : (step.splitterFor strategy).2 = 0 := by
  unfold splitterFor
  simp only [h, Option.getD_some]
  split <;> rfl

theorem splitterFor_default {step : ChunkStep} {strategy : ChunkStrategy}
    (hsize : strategy.chunkSize = none) (hoverlap : strategy.chunkOverlap = none) :
    step.splitterFor strategy =
      if step.chunkSize ≤ step.chunkOverlap then (step.chunkSize, 0)
      else (step.chunkSize, step.chunkOverlap) := by
  unfold splitterFor
  rw [hsize, hoverlap]
  rfl

theorem splitterFor_post (step : ChunkStep) :
    step.splitterFor (resolveStrategy (some "post")) =
      if 2000 ≤ step.chunkOverlap then (2000, 0) else (2000, step.chunkOverlap) := rfl

end ChunkStep

/-- With a sizing that is accepted, the overlap is at most half of the size,
unless a post gets its own size with an overlap between the half of it and the
whole. -/
theorem overlap_bounded_iff (config : IngestSizing) (haccepted : config.validate = .ok ())
    (type : Option String) :
    config.chunkStep.HalfOverlap type ↔
      type ≠ some "post" ∨ config.chunkOverlap ≤ 1000 ∨ 2000 ≤ config.chunkOverlap := by
  obtain ⟨hsize, hoverlap, hhalf, -, -⟩ := IngestSizing.validate_eq_ok.mp haccepted
  unfold ChunkStep.HalfOverlap
  dsimp only
  obtain hzero | ⟨hnosize, hnooverlap, hpost⟩ | rfl := ChunkStep.resolveStrategy_cases type
  · have hpost : type ≠ some "post" := by
      rintro rfl
      exact absurd hzero nofun
    rw [ChunkStep.splitterFor_zero hzero]
    exact iff_of_true (Nat.zero_le _) (.inl hpost)
  · refine iff_of_true ?_ (.inl hpost)
    rw [ChunkStep.splitterFor_default hnosize hnooverlap]
    unfold IngestSizing.chunkStep
    dsimp only
    split
    · exact Nat.zero_le _
    · dsimp only
      omega
  · rw [ChunkStep.splitterFor_post]
    unfold IngestSizing.chunkStep
    dsimp only
    split
    · simp
      omega
    · simp
      omega

theorem overlap_bounded_iff_ingestSpace :
    IngestSizing.ingestSpace.chunkStep.HalfOverlap (some "post") :=
  (overlap_bounded_iff IngestSizing.ingestSpace (by decide) (some "post")).mpr
    (.inr (.inl (by decide)))

/-- Long chunks, with an overlap nearly as long as a chunk of a post. -/
def longOverlap : IngestSizing where
  chunkSize := 9000
  chunkOverlap := 1999

theorem post_overlap_exceeds_half :
    longOverlap.validate = .ok () ∧
      longOverlap.chunkStep.splitterFor (resolveStrategy (some "post")) = (2000, 1999) ∧
      ¬longOverlap.chunkStep.HalfOverlap (some "post") := by
  refine ⟨by decide, by decide, ?_⟩
  unfold ChunkStep.HalfOverlap
  decide

end VirtualContributor.Pipeline
