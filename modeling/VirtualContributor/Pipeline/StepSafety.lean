import VirtualContributor.Pipeline.DetectionFallback

/-!
# The gate of the destructive steps

The engine skips a destructive step once an error was recorded.  A run is
described by its turns: one for each step of each pass, with the context that
the step met and what became of it.

* `runSteps_pass` and `batches_pass`: every run has such a description, and its
  calls are those of the turns.
* `Turn.after_errors`: what one turn does to the errors.
* `step_safety`: the gate over whole runs, for arbitrary steps.
* `pluginSteps_appendsErrors`: the steps of the plugins are of this kind.
-/

namespace VirtualContributor.Pipeline

open Lib Program

/-! ## Turns -/

/-- What became of one step of a pass. -/
inductive Turn.Outcome
  | executed (after : PipelineContext) (raised : Option String)
      (calls : List (Event ingestSignature))
  | skipped

/-- One turn of the loop of `_run_steps`: the step and the context it met. -/
structure Turn where
  step : PipelineStep
  before : PipelineContext
  outcome : Turn.Outcome

namespace Turn

/-- The entry of a step that raised. -/
def raisedEntry (turn : Turn) (exc : String) : String := s!"{turn.step.name}: {exc}"

/-- The entry of a step that was skipped. -/
def skippedEntry (turn : Turn) : String :=
  s!"{turn.step.name}: skipped " ++
    s!"(destructive step gated by {turn.before.errors.length} prior error(s))"

/-- The context that the engine holds after the turn. -/
def after (turn : Turn) : PipelineContext :=
  match turn.outcome with
  | .executed ctx none _ => ctx
  | .executed ctx (some exc) _ => ctx.addError (turn.raisedEntry exc)
  | .skipped => turn.before.addError turn.skippedEntry

/-- The errors of the turn: those that the step recorded, then the one that it
raised, or the entry of a skipped step. -/
def recorded (turn : Turn) : List String :=
  match turn.outcome with
  | .executed ctx raised _ =>
    ctx.errors.drop turn.before.errors.length ++ raised.toList.map turn.raisedEntry
  | .skipped => [turn.skippedEntry]

def calls (turn : Turn) : List (Event ingestSignature) :=
  match turn.outcome with
  | .executed _ _ t => t
  | .skipped => []

/-- The step of the turn was executed. -/
def Executed (turn : Turn) : Prop := turn.outcome ≠ .skipped

/-- The turn took place: the step was executed and left what the turn says, or
it is destructive and met an error. -/
def Took {σ : Type} (W : World ingestSignature σ) (turn : Turn) (s s' : σ) : Prop :=
  match turn.outcome with
  | .executed ctx raised t =>
    (turn.step.destructive = true → turn.before.errors = []) ∧
      Runs W (turn.step.execute turn.before) s t (ctx, raised) s'
  | .skipped => turn.step.destructive = true ∧ turn.before.errors ≠ [] ∧ s' = s

end Turn

/-! ## Passes -/

section Passes

variable {σ : Type} {W : World ingestSignature σ} {s s' : σ} {t : List (Event ingestSignature)}
  {ctx ctx' : PipelineContext} {steps : List PipelineStep} {turns : List Turn}

/-- The turns of one pass over the steps. -/
inductive Pass (W : World ingestSignature σ) : List PipelineStep → PipelineContext → σ →
    List Turn → PipelineContext → σ → Prop
  | nil {ctx : PipelineContext} {s : σ} : Pass W [] ctx s [] ctx s
  | cons {steps : List PipelineStep} {turn : Turn} {turns : List Turn} {ctx' : PipelineContext}
      {s s₁ s' : σ} : turn.Took W s s₁ → Pass W steps turn.after s₁ turns ctx' s' →
      Pass W (turn.step :: steps) turn.before s (turn :: turns) ctx' s'

/-- The passes over the batches, one for each, merged in order. -/
inductive Batches (W : World ingestSignature σ) (steps : List PipelineStep)
    (documents : List Document) : List (List Document) → PipelineContext → σ →
    List (List Turn) → PipelineContext → σ → Prop
  | nil {acc : PipelineContext} {s : σ} : Batches W steps documents [] acc s [] acc s
  | cons {batch : List Document} {batches : List (List Document)} {acc acc' ctx : PipelineContext}
      {turns : List Turn} {passes : List (List Turn)} {s s₁ s' : σ} :
      Pass W steps (IngestEngine.batchContext documents batch) s turns ctx s₁ →
      Batches W steps documents batches (IngestEngine.merge acc ctx) s₁ passes acc' s' →
      Batches W steps documents (batch :: batches) acc s (turns :: passes) acc' s'

/-- Every turn of the engine takes place. -/
theorem runStep_took {step : PipelineStep}
    (h : Runs W (IngestEngine.runStep ctx step) s t ctx' s') :
    ∃ outcome, (Turn.mk step ctx outcome).Took W s s' ∧ (Turn.mk step ctx outcome).after = ctx' ∧
      t = (Turn.mk step ctx outcome).calls := by
  unfold IngestEngine.runStep at h
  split at h
  · rename_i hgate
    obtain ⟨rfl, rfl, rfl⟩ := runs_done_iff.mp h
    rw [Bool.and_eq_true, Bool.not_eq_true', List.isEmpty_eq_false_iff] at hgate
    exact ⟨.skipped, ⟨hgate.1, hgate.2, rfl⟩, rfl, rfl⟩
  · rename_i hgate
    obtain ⟨⟨ctx₁, raised⟩, s₁, t₁, t₂, rfl, hexecute, hdone⟩ := runs_bind_iff.mp h
    have hopen : step.destructive = true → ctx.errors = [] := by
      intro hdestructive
      simpa [hdestructive] using hgate
    refine ⟨.executed ctx₁ raised t₁, ?_⟩
    cases raised with
    | none =>
      obtain ⟨rfl, rfl, rfl⟩ := runs_done_iff.mp hdone
      exact ⟨⟨hopen, hexecute⟩, rfl, List.append_nil _⟩
    | some exc =>
      obtain ⟨rfl, rfl, rfl⟩ := runs_done_iff.mp hdone
      exact ⟨⟨hopen, hexecute⟩, rfl, List.append_nil _⟩

/-- A pass of the engine has turns. -/
theorem runSteps_pass (h : Runs W (IngestEngine.runSteps steps ctx) s t ctx' s') :
    ∃ turns, Pass W steps ctx s turns ctx' s' ∧ t = turns.flatMap Turn.calls := by
  induction steps generalizing ctx s t with
  | nil =>
    obtain ⟨rfl, rfl, rfl⟩ := runs_done_iff.mp h
    exact ⟨[], .nil, rfl⟩
  | cons step steps ih =>
    obtain ⟨ctx₁, s₁, t₁, t₂, rfl, hstep, hrest⟩ := runs_bind_iff.mp h
    obtain ⟨outcome, htook, rfl, rfl⟩ := runStep_took hstep
    obtain ⟨turns, hpass, rfl⟩ := ih hrest
    exact ⟨⟨step, ctx, outcome⟩ :: turns, .cons htook hpass, rfl⟩

theorem batches_pass {documents : List Document} {batches : List (List Document)}
    {acc acc' : PipelineContext}
    (h : Runs W (batches.foldlM (IngestEngine.runBatch steps documents) acc) s t acc' s') :
    ∃ passes, Batches W steps documents batches acc s passes acc' s' ∧
      t = passes.flatten.flatMap Turn.calls := by
  induction batches generalizing acc s t with
  | nil =>
    obtain ⟨rfl, rfl, rfl⟩ := runs_done_iff.mp h
    exact ⟨[], .nil, rfl⟩
  | cons batch batches ih =>
    obtain ⟨acc₁, s₁, t₁, t₂, rfl, hbatch, hrest⟩ := runs_bind_iff.mp h
    obtain ⟨ctx, s₂, t₃, t₄, rfl, hsteps, hmerge⟩ := runs_bind_iff.mp hbatch
    obtain ⟨rfl, rfl, rfl⟩ := runs_done_iff.mp hmerge
    obtain ⟨turns, hpass, rfl⟩ := runSteps_pass hsteps
    obtain ⟨passes, hpasses, rfl⟩ := ih hrest
    exact ⟨turns :: passes, .cons hpass hpasses, by simp⟩

/-! ## Errors -/

/-- The step removes no error. -/
def AppendsErrors (W : World ingestSignature σ) (step : PipelineStep) : Prop :=
  ∀ ctx s t ctx' raised s', Runs W (step.execute ctx) s t (ctx', raised) s' →
    ctx.errors <+: ctx'.errors

/-- A turn appends what it recorded. -/
theorem Turn.after_errors {turn : Turn} (hstep : AppendsErrors W turn.step)
    (h : turn.Took W s s') : turn.after.errors = turn.before.errors ++ turn.recorded := by
  obtain ⟨step, before, outcome⟩ := turn
  cases outcome with
  | skipped => rfl
  | executed ctx raised calls =>
    have hprefix := List.prefix_iff_eq_append.mp (hstep _ _ _ _ _ _ h.2)
    cases raised with
    | none =>
      show ctx.errors = before.errors ++ (ctx.errors.drop before.errors.length ++ [])
      rw [List.append_nil, hprefix]
    | some exc =>
      show ctx.errors ++ [_] = before.errors ++ (ctx.errors.drop before.errors.length ++ [_])
      rw [← List.append_assoc, hprefix]

/-- A pass appends what its turns recorded, in order. -/
theorem Pass.errors (h : Pass W steps ctx s turns ctx' s')
    (hsteps : ∀ step ∈ steps, AppendsErrors W step) :
    ctx'.errors = ctx.errors ++ turns.flatMap Turn.recorded := by
  induction h with
  | nil => simp
  | cons htook _ ih =>
    obtain ⟨hstep, hsteps⟩ := List.forall_mem_cons.mp hsteps
    rw [ih hsteps, Turn.after_errors hstep htook, List.flatMap_cons, List.append_assoc]

theorem Pass.steps_eq (h : Pass W steps ctx s turns ctx' s') : turns.map Turn.step = steps := by
  induction h with
  | nil => rfl
  | cons _ _ ih => rw [List.map_cons, ih]

/-- Only destructive steps are skipped. -/
theorem Pass.executed (h : Pass W steps ctx s turns ctx' s') {turn : Turn} (hturn : turn ∈ turns)
    (hstep : turn.step.destructive = false) : turn.Executed := by
  induction h with
  | nil => cases hturn
  | @cons steps turn' turns ctx' s s₁ s' htook _ ih =>
    rcases List.mem_cons.mp hturn with rfl | hturn
    · intro hskipped
      unfold Turn.Took at htook
      rw [hskipped] at htook
      exact Bool.false_ne_true (hstep.symm.trans htook.1)
    · exact ih hturn

/-- A destructive step is executed only where no error was there before. -/
theorem Pass.gated (h : Pass W steps ctx s turns ctx' s')
    (hsteps : ∀ step ∈ steps, AppendsErrors W step) {earlier later : List Turn} {turn : Turn}
    (hturns : turns = earlier ++ turn :: later) (hdestructive : turn.step.destructive = true)
    (hexecuted : turn.Executed) :
    ctx.errors = [] ∧ ∀ turn' ∈ earlier, turn'.recorded = [] := by
  induction h generalizing earlier with
  | nil => simp at hturns
  | @cons steps first turns ctx' s s₁ s' htook _ ih =>
    obtain ⟨hstep, hsteps⟩ := List.forall_mem_cons.mp hsteps
    cases earlier with
    | nil =>
      obtain ⟨rfl, rfl⟩ := List.cons.inj hturns
      obtain ⟨step, before, outcome⟩ := first
      cases outcome with
      | skipped => exact absurd rfl hexecuted
      | executed => exact ⟨htook.1 hdestructive, by simp⟩
    | cons first' earlier =>
      obtain ⟨rfl, rfl⟩ := List.cons.inj hturns
      obtain ⟨hnone, hearlier⟩ := ih hsteps rfl
      rw [Turn.after_errors hstep htook, List.append_eq_nil_iff] at hnone
      exact ⟨hnone.1, List.forall_mem_cons.mpr ⟨hnone.2, hearlier⟩⟩

section Batched

variable {documents : List Document} {batches : List (List Document)} {acc acc' : PipelineContext}
  {passes : List (List Turn)}

/-- The merge over the batches appends what their turns recorded, in order. -/
theorem Batches.errors (h : Batches W steps documents batches acc s passes acc' s')
    (hsteps : ∀ step ∈ steps, AppendsErrors W step) :
    acc'.errors = acc.errors ++ passes.flatten.flatMap Turn.recorded := by
  induction h with
  | nil => simp
  | @cons batch batches acc acc' ctx turns passes s s₁ s' hpass _ ih =>
    have hmerge : (IngestEngine.merge acc ctx).errors
        = acc.errors ++ turns.flatMap Turn.recorded := by
      show acc.errors ++ ctx.errors = _
      rw [hpass.errors hsteps]
      rfl
    rw [ih, hmerge, List.flatten_cons, List.flatMap_append, List.append_assoc]

theorem Batches.steps_eq (h : Batches W steps documents batches acc s passes acc' s') :
    passes.flatten.map Turn.step = batches.flatMap fun _ => steps := by
  induction h with
  | nil => rfl
  | cons hpass _ ih =>
    rw [List.flatten_cons, List.map_append, hpass.steps_eq, ih, List.flatMap_cons]

theorem Batches.executed (h : Batches W steps documents batches acc s passes acc' s')
    {turn : Turn} (hturn : turn ∈ passes.flatten) (hstep : turn.step.destructive = false) :
    turn.Executed := by
  induction h with
  | nil => cases hturn
  | cons hpass _ ih =>
    rcases List.mem_append.mp hturn with hturn | hturn
    · exact hpass.executed hturn hstep
    · exact ih hturn

end Batched

/-! ## Whole runs -/

/-- What the turns of a run show: each step of the schedule has one turn, in
order, and the calls of the run are those of the turns.  Steps that are not
destructive are executed.  A destructive step is executed only when no earlier
turn recorded an error.  The result reports what was recorded. -/
structure Safe (schedule : List PipelineStep) (turns : List Turn)
    (t : List (Event ingestSignature)) (result : IngestResult) : Prop where
  steps : turns.map Turn.step = schedule
  calls : t = turns.flatMap Turn.calls
  executed : ∀ turn ∈ turns, turn.step.destructive = false → turn.Executed
  gated : ∀ earlier turn later, turns = earlier ++ turn :: later →
    turn.step.destructive = true → turn.Executed → ∀ turn' ∈ earlier, turn'.recorded = []
  errors : result.errors = turns.flatMap Turn.recorded
  success : result.success = true ↔ ∀ turn ∈ turns, turn.recorded = []

theorem success_iff {ctx : PipelineContext} {turns : List Turn} (n : Nat)
    (h : ctx.errors = turns.flatMap Turn.recorded) :
    (IngestEngine.buildResult ctx n).success = true ↔ ∀ turn ∈ turns, turn.recorded = [] := by
  rw [IngestEngine.buildResult, decide_eq_true_iff, List.length_eq_zero_iff, h,
    List.flatMap_eq_nil_iff]

/-- The gate holds over whole runs, whatever the steps do and answer, in one
pass over arbitrary steps and in batches of any size whose destructive steps
are those of the finalize pass. -/
theorem step_safety {σ : Type} (W : World ingestSignature σ) (documents : List Document)
    (s s' : σ) (t : List (Event ingestSignature)) (result : IngestResult) :
    (∀ steps : List PipelineStep, (∀ step ∈ steps, AppendsErrors W step) →
      Runs W (IngestEngine.runSequential steps documents) s t result s' →
      ∃ turns ctx, Pass W steps (IngestEngine.initialContext documents) s turns ctx s' ∧
        Safe steps turns t result) ∧
    ∀ (batchSteps finalizeSteps : List PipelineStep) (batchSize : Nat),
      (∀ step ∈ batchSteps ++ finalizeSteps, AppendsErrors W step) →
      (∀ step ∈ batchSteps, step.destructive = false) →
      Runs W (IngestEngine.runBatched batchSteps finalizeSteps batchSize documents) s t result s' →
      ∃ passes acc s₁ turns ctx,
        Batches W batchSteps documents (slices (max 1 batchSize) documents)
          (IngestEngine.initialContext documents) s passes acc s₁ ∧
        Pass W finalizeSteps acc s₁ turns ctx s' ∧
        Safe (((slices (max 1 batchSize) documents).flatMap fun _ => batchSteps) ++ finalizeSteps)
          (passes.flatten ++ turns) t result := by
  constructor
  · intro steps hsteps h
    obtain ⟨ctx, s₁, t₁, t₂, rfl, hrun, hdone⟩ := runs_bind_iff.mp h
    obtain ⟨rfl, rfl, rfl⟩ := runs_done_iff.mp hdone
    obtain ⟨turns, hpass, rfl⟩ := runSteps_pass hrun
    have herrors : ctx.errors = turns.flatMap Turn.recorded := hpass.errors hsteps
    refine ⟨turns, ctx, hpass, ?_⟩
    exact {
      steps := hpass.steps_eq
      calls := List.append_nil _
      executed := fun turn hturn => hpass.executed hturn
      gated := fun earlier turn later hturns hdestructive hexecuted =>
        (hpass.gated hsteps hturns hdestructive hexecuted).2
      errors := herrors
      success := success_iff documents.length herrors }
  · intro batchSteps finalizeSteps batchSize hsteps hbatchSteps h
    obtain ⟨hbatch, hfinalize⟩ := List.forall_mem_append.mp hsteps
    obtain ⟨acc, s₁, t₁, t₂, rfl, hbatches, hrest⟩ := runs_bind_iff.mp h
    obtain ⟨ctx, s₂, t₃, t₄, rfl, hrun, hdone⟩ := runs_bind_iff.mp hrest
    obtain ⟨rfl, rfl, rfl⟩ := runs_done_iff.mp hdone
    obtain ⟨passes, hpasses, rfl⟩ := batches_pass hbatches
    obtain ⟨turns, hpass, rfl⟩ := runSteps_pass hrun
    have hacc : acc.errors = passes.flatten.flatMap Turn.recorded := hpasses.errors hbatch
    have herrors : ctx.errors = (passes.flatten ++ turns).flatMap Turn.recorded := by
      rw [hpass.errors hfinalize, hacc, List.flatMap_append]
    have hplain : ∀ turn ∈ passes.flatten, turn.step.destructive = false := by
      intro turn hturn
      have hmem := List.mem_map_of_mem (f := Turn.step) hturn
      rw [hpasses.steps_eq] at hmem
      obtain ⟨_, _, hstep⟩ := List.mem_flatMap.mp hmem
      exact hbatchSteps _ hstep
    refine ⟨passes, acc, s₁, turns, ctx, hpasses, hpass, ?_⟩
    exact {
      steps := by rw [List.map_append, hpasses.steps_eq, hpass.steps_eq]
      calls := by rw [List.append_nil, List.flatMap_append]
      executed := by
        intro turn hturn hstep
        rcases List.mem_append.mp hturn with hturn | hturn
        · exact hpasses.executed hturn hstep
        · exact hpass.executed hturn hstep
      gated := by
        intro earlier turn later hturns hdestructive hexecuted
        -- a destructive turn is one of the finalize pass
        rcases List.append_eq_append_iff.mp hturns with ⟨mid, rfl, hmid⟩ | ⟨mid, hmid, hlater⟩
        · obtain ⟨hnone, hearlier⟩ := hpass.gated hfinalize hmid hdestructive hexecuted
          rw [hacc, List.flatMap_eq_nil_iff] at hnone
          exact List.forall_mem_append.mpr ⟨hnone, hearlier⟩
        · cases mid with
          | nil =>
            have hfirst : turns = [] ++ turn :: later := hlater.symm
            obtain ⟨hnone, _⟩ := hpass.gated hfinalize hfirst hdestructive hexecuted
            rw [hacc, List.flatMap_eq_nil_iff, hmid, List.append_nil] at hnone
            exact hnone
          | cons turn' mid =>
            obtain ⟨rfl, _⟩ := List.cons.inj hlater
            have hfalse := hplain turn (hmid ▸ List.mem_append_right _ (List.mem_cons_self ..))
            exact absurd (hdestructive.symm.trans hfalse) Bool.true_eq_false.mp
      errors := herrors
      success := success_iff documents.length herrors }

/-! ## The steps of the plugins -/

theorem appendsErrors_of_yields {name : String} {destructive : Bool}
    {execute : PipelineContext → Ingest PipelineContext}
    (h : ∀ ctx, (execute ctx).Yields (fun _ => True) (fun ctx' => ctx.errors <+: ctx'.errors)) :
    AppendsErrors W ⟨name, destructive, fun ctx => do return (← execute ctx, none)⟩ := by
  intro ctx s t ctx' raised s' hrun
  obtain ⟨ctx₁, s₁, t₁, t₂, rfl, hexecute, hdone⟩ := runs_bind_iff.mp hrun
  obtain ⟨_, heq, _⟩ := runs_done_iff.mp hdone
  obtain ⟨rfl, _⟩ := Prod.mk.inj heq
  exact ((h ctx).calls hexecute).1

theorem chunkStep_appendsErrors (host : Host) (step : ChunkStep) :
    AppendsErrors W (step.toStep host) := by
  intro ctx s t ctx' raised s' hrun
  obtain ⟨_, heq, _⟩ := runs_done_iff.mp hrun
  obtain ⟨rfl, _⟩ := Prod.mk.inj heq
  have hchunk := execute_chunkStep_foldl host step ctx.documents ctx
  have herrors := congrArg PipelineContext.errors hchunk
  exact herrors ▸ List.prefix_append ..

/-- The steps that both plugins wire remove no error. -/
theorem pluginSteps_appendsErrors (p : IngestPipeline) (host : Host) :
    ∀ step ∈ p.batchSteps host ++ p.finalizeSteps, AppendsErrors W step := by
  have hembed : AppendsErrors W EmbedStep.toStep :=
    appendsErrors_of_yields fun ctx =>
      (embedStep_frame 50 ctx).mono (fun _ _ => trivial) fun _ h => h.errors
  have hstore : AppendsErrors W StoreStep.toStep :=
    appendsErrors_of_yields fun ctx =>
      (storeStep_frame (by decide) ctx).mono (fun _ _ => trivial) fun _ h => h.errors
  have hdetection : AppendsErrors W ChangeDetectionStep.toStep :=
    appendsErrors_of_yields fun ctx =>
      (ChangeDetectionStep.execute_frame ctx).mono (fun _ _ => trivial) fun _ h => h.2
  have hhash : AppendsErrors W (ContentHashStep.toStep host) := by
    intro ctx s t ctx' raised s' hrun
    obtain ⟨_, heq, _⟩ := runs_done_iff.mp hrun
    obtain ⟨rfl, _⟩ := Prod.mk.inj heq
    exact List.prefix_rfl
  have hsummary : AppendsErrors W p.documentSummaryStep.toStep :=
    appendsErrors_of_yields fun ctx =>
      (p.documentSummaryStep.execute_frame ctx).mono (fun _ _ => trivial) fun _ h => h.errors
  have hbok : AppendsErrors W p.bokSummaryStep.toStep :=
    appendsErrors_of_yields fun ctx =>
      (p.bokSummaryStep.execute_frame ctx).mono (fun _ _ => trivial) fun _ h => h.errors
  have hcleanup : AppendsErrors W OrphanCleanupStep.toStep :=
    appendsErrors_of_yields fun ctx =>
      (OrphanCleanupStep.execute_frame ctx).mono (fun _ _ => trivial) fun _ h => h
  have hchunk : AppendsErrors W (p.chunkStep.toStep host) := chunkStep_appendsErrors host _
  unfold IngestPipeline.batchSteps IngestPipeline.finalizeSteps
  cases p.summarizeEnabled <;>
    simp [hchunk, hhash, hdetection, hsummary, hembed, hstore, hbok, hcleanup]

/-- The steps of a batch are not destructive. -/
theorem batchSteps_nondestructive (p : IngestPipeline) (host : Host) :
    ∀ step ∈ p.batchSteps host, step.destructive = false := by
  unfold IngestPipeline.batchSteps
  cases p.summarizeEnabled <;>
    simp [ChunkStep.toStep, ContentHashStep.toStep, ChangeDetectionStep.toStep,
      DocumentSummaryStep.toStep, EmbedStep.toStep, StoreStep.toStep]

end Passes

/-- The steps of the run without documents are among those of the plugins. -/
theorem cleanupSteps_appendsErrors {σ : Type} {W : World ingestSignature σ} :
    ∀ step ∈ [ChangeDetectionStep.toStep, OrphanCleanupStep.toStep], AppendsErrors W step := by
  have hplugin := pluginSteps_appendsErrors (W := W) {} zeroHost
  refine List.forall_mem_cons.mpr ⟨?_, List.forall_mem_singleton.mpr ?_⟩
  · exact hplugin _ (by simp [IngestPipeline.batchSteps])
  · exact hplugin _ (by simp [IngestPipeline.finalizeSteps])

/-- The run without documents on the store that does not list. -/
def unreadableCleanup : IngestResult × List (Event ingestSignature) × Collection :=
  IngestPipeline.cleanup.eval unreadablePorts .empty

/-- On the store that does not list, both runs report an error of one of their
turns. -/
theorem step_safety_unreadable :
    (∃ turns : List Turn,
      turns.map Turn.step = [ChangeDetectionStep.toStep, OrphanCleanupStep.toStep] ∧
      unreadableCleanup.1.errors = turns.flatMap Turn.recorded ∧
      ∃ turn ∈ turns, turn.recorded ≠ []) ∧
    ∃ turns : List Turn,
      turns.map Turn.step = ({} : IngestPipeline).batchSteps zeroHost
        ++ ({} : IngestPipeline).finalizeSteps ∧
      unreadableRun.1.errors = turns.flatMap Turn.recorded ∧
      ∃ turn ∈ turns, turn.recorded ≠ [] := by
  constructor
  · obtain ⟨turns, _, _, hsafe⟩ := (step_safety (portWorld .any) [] .empty unreadableCleanup.2.2
      unreadableCleanup.2.1 unreadableCleanup.1).1 _ cleanupSteps_appendsErrors
      (unreadablePorts_runs _ _)
    refine ⟨turns, hsafe.steps, hsafe.errors, ?_⟩
    by_contra hnone
    have hsuccess := hsafe.success.mpr (by simpa using hnone)
    revert hsuccess
    decide +kernel
  · obtain ⟨passes, _, _, turns, _, _, _, hsafe⟩ := (step_safety (portWorld .any) [redDocument]
      .empty unreadableRun.2.2 unreadableRun.2.1 unreadableRun.1).2 _ _ 5
      (pluginSteps_appendsErrors {} zeroHost) (batchSteps_nondestructive {} zeroHost)
      (unreadablePorts_runs _ _)
    refine ⟨passes.flatten ++ turns, hsafe.steps, hsafe.errors, ?_⟩
    by_contra hnone
    have hsuccess := hsafe.success.mpr (by simpa using hnone)
    revert hsuccess
    decide +kernel

end VirtualContributor.Pipeline
