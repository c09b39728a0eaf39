import VirtualContributor.Pipeline.Frames

/-!
# Blank summaries

When a summary is blank, as a function of the answers of the models.

* `summarize_blank`: `_map_reduce_summarize` returns a blank text when no map
  call gave a text, when the only text is blank, or when the last merge is.
* `DocumentSummaryStep.execute_nonblank`: the document summaries are checked.
* `blank_summary_iff`: the overview is not, and neither is a merge.
-/

namespace VirtualContributor.Pipeline

open Lib Program

/-! ## The answers of the models -/

def llmAnswer : Event ingestSignature → Option (Except String String)
  | ⟨.invoke _ _, r⟩ => some r
  | _ => none

/-- The answers of the models in a trace, in order. -/
def llmAnswers (t : List (Event ingestSignature)) : List (Except String String) :=
  t.filterMap llmAnswer

/-- The texts that are not empty among the answers to the first `n` calls. -/
def partials (n : Nat) (answers : List (Except String String)) : List String :=
  ((answers.take n).filterMap Except.toOption).filter (· ≠ "")

/-- The last call answered with a blank text. -/
def lastBlank (answers : List (Except String String)) : Bool :=
  match answers.getLast? with
  | some (.ok text) => isBlank text
  | _ => false

/-- Whether the answers leave a blank summary of `n` texts. -/
def leavesBlank (n : Nat) (answers : List (Except String String)) : Bool :=
  match partials n answers with
  | [] => true
  | [mini] => isBlank mini
  | _ => lastBlank answers

/-- One of the first `n` answers is a text that is not blank. -/
def HasText (n : Nat) (answers : List (Except String String)) : Prop :=
  ∃ text, .ok text ∈ answers.take n ∧ isBlank text = false

@[simp] theorem llmAnswers_nil : llmAnswers [] = [] := rfl

theorem llmAnswers_append (t u : List (Event ingestSignature)) :
    llmAnswers (t ++ u) = llmAnswers t ++ llmAnswers u :=
  List.filterMap_append

theorem llmAnswers_invoke (role : LlmRole) (messages : Messages) (r : Except String String)
    (t : List (Event ingestSignature)) :
    llmAnswers (⟨.invoke role messages, r⟩ :: t) = r :: llmAnswers t := rfl

theorem lastBlank_append {xs ys : List (Except String String)} (h : ys ≠ []) :
    lastBlank (xs ++ ys) = lastBlank ys := by
  rw [lastBlank, lastBlank, List.getLast?_append_of_ne_nil _ h]

/-! ## Summarising -/

theorem isBlank_separated {batch : List String} (h : 2 ≤ batch.length) :
    isBlank (SEPARATOR.intercalate batch) = false := by
  cases batch with
  | nil => simp at h
  | cons x rest =>
    cases rest with
    | nil => simp at h
    | cons y rest =>
      have hdash : '-' ∈ (SEPARATOR.intercalate (x :: y :: rest)).toList := by
        rw [String.toList_intercalate, List.map_cons, List.map_cons,
          List.intercalate_cons_cons, List.mem_append, List.mem_append]
        exact Or.inl (Or.inr (by decide))
      rw [isBlank, ← Bool.not_eq_true, List.all_eq_true]
      intro hall
      exact absurd (hall '-' hdash) (by decide)

namespace MapReduce

variable {σ : Type} {W : World ingestSignature σ} {m : MapReduce} {s s' : σ}
  {t : List (Event ingestSignature)}

theorem mapOne_answers {budget : Nat} {chunk : String} {out : Option String}
    (h : Runs W (m.mapOne budget chunk) s t out s') :
    ∃ r, llmAnswers t = [r] ∧ out = r.toOption := by
  obtain ⟨r, s₁, t₁, _, rfl, hrest⟩ := runs_call_iff.mp h
  refine ⟨r, ?_⟩
  cases r with
  | ok mini =>
    obtain ⟨rfl, rfl, rfl⟩ := runs_done_iff.mp hrest
    exact ⟨rfl, rfl⟩
  | error exc =>
    obtain ⟨rfl, rfl, rfl⟩ := runs_done_iff.mp hrest
    exact ⟨rfl, rfl⟩

/-- The map calls: one answer for each text. -/
theorem mapAll_answers {budget : Nat} {chunks : List String} {outs : List (Option String)}
    (h : Runs W (chunks.mapM (m.mapOne budget)) s t outs s') :
    (llmAnswers t).length = chunks.length ∧ outs = (llmAnswers t).map Except.toOption := by
  induction chunks generalizing s t outs with
  | nil =>
    obtain ⟨rfl, rfl, rfl⟩ := runs_done_iff.mp h
    exact ⟨rfl, rfl⟩
  | cons chunk chunks ih =>
    rw [List.mapM_cons] at h
    obtain ⟨out, s₁, t₁, t₂, rfl, hfirst, hrest⟩ := runs_bind_iff.mp h
    obtain ⟨outs', s₂, t₃, t₄, rfl, hothers, hdone⟩ := runs_bind_iff.mp hrest
    obtain ⟨rfl, rfl, rfl⟩ := runs_done_iff.mp hdone
    obtain ⟨r, hr, rfl⟩ := mapOne_answers hfirst
    obtain ⟨hlength, rfl⟩ := ih hothers
    rw [List.append_nil, llmAnswers_append, hr]
    exact ⟨by simp [hlength], rfl⟩

/-- Merging some texts makes one call, and merging one text makes none. -/
theorem reduceOne_answers {batch : List String} {out : String}
    (h : Runs W (m.reduceOne batch) s t out s') (hbatch : 2 ≤ batch.length) :
    llmAnswers t ≠ [] ∧ isBlank out = lastBlank (llmAnswers t) := by
  unfold reduceOne at h
  split at h
  · simp at hbatch
  · obtain ⟨r, s₁, t₁, _, rfl, hrest⟩ := runs_call_iff.mp h
    cases r with
    | ok merged =>
      obtain ⟨rfl, rfl, rfl⟩ := runs_done_iff.mp hrest
      exact ⟨by simp [llmAnswers_invoke], rfl⟩
    | error exc =>
      obtain ⟨rfl, rfl, rfl⟩ := runs_done_iff.mp hrest
      exact ⟨by simp [llmAnswers_invoke], isBlank_separated hbatch⟩

/-- Levels of merges: the last call decides. -/
theorem reduceLevels_answers (hfanin : 2 ≤ m.reduceFanin) {fuel : Nat} {minis : List String}
    {out : String} (hfuel : minis.length ≤ fuel) (hminis : 2 ≤ minis.length)
    (h : Runs W (m.reduceLevels fuel minis) s t out s') :
    llmAnswers t ≠ [] ∧ isBlank out = lastBlank (llmAnswers t) := by
  induction fuel generalizing minis s t with
  | zero => omega
  | succ fuel ih =>
    have hcut : (slices m.reduceFanin minis).flatten = minis :=
      flatten_slices (by omega) minis
    have hfewer := length_slices_lt hfanin hminis
    rw [reduceLevels, if_pos (by omega)] at h
    obtain ⟨next, s₁, t₁, t₂, rfl, hlevel, hrest⟩ := runs_bind_iff.mp h
    have hnext : next.length = (slices m.reduceFanin minis).length := hlevel.length_mapM
    rw [llmAnswers_append]
    by_cases hmany : 2 ≤ next.length
    · obtain ⟨hne, hblank⟩ := ih (by omega) hmany hrest
      exact ⟨List.append_ne_nil_of_right_ne_nil _ hne, by rw [hblank, lastBlank_append hne]⟩
    · -- One batch is left, and it holds all the texts.
      have hone : slices m.reduceFanin minis = [minis] := by
        cases hslices : slices m.reduceFanin minis with
        | nil =>
          rw [hslices] at hcut
          rw [← hcut] at hminis
          simp at hminis
        | cons batch rest =>
          have hrest : rest = [] := by
            rw [hslices, List.length_cons] at hnext
            exact List.length_eq_zero_iff.mp (by omega)
          rw [hslices, hrest] at hcut
          rw [hrest, ← hcut]
          simp
      rw [reduceLevel, hone, List.mapM_cons] at hlevel
      obtain ⟨merged, s₂, t₃, t₄, rfl, hmerge, hnil⟩ := runs_bind_iff.mp hlevel
      obtain ⟨rfl, rfl, rfl⟩ := runs_done_iff.mp hnil
      obtain ⟨hne, hblank⟩ := reduceOne_answers hmerge hminis
      have hout : t₂ = [] ∧ out = merged := by
        cases fuel with
        | zero =>
          obtain ⟨rfl, rfl, _⟩ := runs_done_iff.mp hrest
          exact ⟨rfl, rfl⟩
        | succ fuel =>
          obtain ⟨rfl, rfl, _⟩ := runs_done_iff.mp hrest
          exact ⟨rfl, rfl⟩
      obtain ⟨rfl, rfl⟩ := hout
      simpa using ⟨hne, hblank⟩

/-- The texts of the map calls are the partial summaries. -/
theorem partials_map {n : Nat} {answers rest : List (Except String String)}
    (h : answers.length = n) :
    ((answers.map Except.toOption).filterMap id).filter (· ≠ "") =
      partials n (answers ++ rest) := by
  rw [partials, ← h, List.take_left, List.filterMap_map]
  rfl

/-- Merging the partial summaries, none, one or several. -/
theorem mergeAll_blank (hfanin : 2 ≤ m.reduceFanin) {n : Nat} {minis : List String}
    {answers : List (Except String String)} {out : Except String String}
    (hminis : minis = partials n (answers ++ llmAnswers t))
    (h : Runs W (match minis with
      | [] => pure (.ok "")
      | _ => (m.reduceLevels minis.length minis).bind fun text => done (.ok text)) s t out s') :
    ∃ text, out = .ok text ∧ isBlank text = leavesBlank n (answers ++ llmAnswers t) := by
  cases minis with
  | nil =>
    obtain ⟨rfl, rfl, rfl⟩ := runs_done_iff.mp h
    exact ⟨_, rfl, by rw [leavesBlank, ← hminis]; rfl⟩
  | cons mini rest =>
    obtain ⟨text, s₁, t₁, t₂, rfl, hlevels, hdone⟩ := runs_bind_iff.mp h
    obtain ⟨rfl, rfl, rfl⟩ := runs_done_iff.mp hdone
    rw [List.append_nil] at hminis ⊢
    refine ⟨_, rfl, ?_⟩
    rw [leavesBlank, ← hminis]
    cases rest with
    | nil =>
      obtain ⟨_, rfl, _⟩ := runs_done_iff.mp hlevels
      rfl
    | cons mini' rest =>
      obtain ⟨hne, hblank⟩ := reduceLevels_answers hfanin (Nat.le_refl _) (by simp) hlevels
      rw [hblank, lastBlank_append hne]

/-- Whether a summary is blank, told from the answers of the models. -/
theorem summarize_blank (hfanin : 2 ≤ m.reduceFanin) {chunks : List String}
    {out : Except String String} (hne : chunks ≠ [])
    (h : Runs W (m.summarize chunks) s t out s') :
    ∃ text, out = .ok text ∧ llmAnswers t ≠ [] ∧
      isBlank text = leavesBlank chunks.length (llmAnswers t) := by
  cases chunks with
  | nil => exact absurd rfl hne
  | cons chunk rest =>
    unfold summarize at h
    dsimp only at h
    rw [if_neg (by omega)] at h
    cases rest with
    | nil =>
      obtain ⟨mini, s₁, t₁, t₂, rfl, hmap, hdone⟩ := runs_bind_iff.mp h
      obtain ⟨rfl, rfl, rfl⟩ := runs_done_iff.mp hdone
      obtain ⟨r, hr, rfl⟩ := mapOne_answers hmap
      refine ⟨_, rfl, by simp [hr], ?_⟩
      rw [List.append_nil, hr]
      cases r with
      | error exc => rfl
      | ok mini =>
        by_cases hempty : mini = ""
        · subst hempty
          rfl
        · simp [leavesBlank, partials, Except.toOption, hempty]
    | cons chunk' rest =>
      obtain ⟨mapped, s₁, t₁, t₂, rfl, hmap, hrest⟩ := runs_bind_iff.mp h
      obtain ⟨hlength, rfl⟩ := mapAll_answers hmap
      have hsome : llmAnswers t₁ ≠ [] := by
        intro hnil
        rw [hnil] at hlength
        simp at hlength
      rw [llmAnswers_append]
      obtain ⟨text, rfl, hblank⟩ := mergeAll_blank hfanin (partials_map hlength) hrest
      exact ⟨text, rfl, List.append_ne_nil_of_left_ne_nil hsome _, hblank⟩

theorem exists_mem_partials {n : Nat} {answers : List (Except String String)}
    (h : HasText n answers) : ∃ text ∈ partials n answers, isBlank text = false := by
  obtain ⟨text, hmem, hblank⟩ := h
  refine ⟨text, List.mem_filter.mpr ⟨List.mem_filterMap.mpr ⟨.ok text, hmem, rfl⟩, ?_⟩, hblank⟩
  rw [decide_eq_true_iff]
  rintro rfl
  exact absurd hblank (by decide)

/-- With a text among the map answers, only a blank last merge gives a blank
summary. -/
theorem leavesBlank_of_hasText {n : Nat} {answers : List (Except String String)}
    (h : HasText n answers) :
    leavesBlank n answers = true ↔ 2 ≤ (partials n answers).length ∧ lastBlank answers = true := by
  obtain ⟨text, hmem, hblank⟩ := exists_mem_partials h
  unfold leavesBlank
  cases hpartials : partials n answers with
  | nil =>
    rw [hpartials] at hmem
    exact absurd hmem List.not_mem_nil
  | cons mini rest =>
    cases rest with
    | nil =>
      rw [hpartials, List.mem_singleton] at hmem
      subst hmem
      simp [hblank]
    | cons mini' rest => simp

/-- A summary of some texts, one of which was summarised, is blank exactly when
several were and their last merge is. -/
theorem summarize_blank_iff (hfanin : 2 ≤ m.reduceFanin) {chunks : List String}
    {out : Except String String} (h : Runs W (m.summarize chunks) s t out s') :
    (HasText chunks.length (llmAnswers t) → ∃ text, out = .ok text ∧ isBlank text = false) ↔
      ¬ (HasText chunks.length (llmAnswers t) ∧
        2 ≤ (partials chunks.length (llmAnswers t)).length ∧ lastBlank (llmAnswers t) = true) := by
  by_cases htext : HasText chunks.length (llmAnswers t)
  · have hne : chunks ≠ [] := by
      rintro rfl
      obtain ⟨text, hmem, _⟩ := htext
      simp at hmem
    obtain ⟨text, rfl, _, hblank⟩ := summarize_blank hfanin hne h
    have hiff := leavesBlank_of_hasText htext
    rw [← hblank] at hiff
    simp [htext, ← hiff]
  · simp [htext]

end MapReduce

/-! ## The two steps -/

/-- The step that led from `ctx` to `ctx'` with the calls of `t` added no blank
chunk and wrote no blank entry. -/
structure AddsNoBlank (ctx ctx' : PipelineContext) (t : List (Event ingestSignature)) : Prop where
  chunks : ∃ added, ctx'.chunks.map Chunk.bare = ctx.chunks.map Chunk.bare ++ added ∧
    ∀ c ∈ added, isBlank c.content = false
  writes : ∀ e ∈ t, ∀ entries, e.call = .ingest entries → ∀ x ∈ entries,
    isBlank x.document = false

section Steps

variable {σ : Type} {W : World ingestSignature σ} {s s' : σ} {t : List (Event ingestSignature)}
  {ctx ctx' : PipelineContext}

theorem AddsNoBlank.append_iff {u : List (Event ingestSignature)}
    (hu : ∀ e ∈ u, ∀ entries, e.call ≠ .ingest entries) :
    AddsNoBlank ctx ctx' (u ++ t) ↔ AddsNoBlank ctx ctx' t := by
  constructor
  · rintro ⟨hchunks, hwrites⟩
    exact ⟨hchunks, fun e he => hwrites e (List.mem_append_right _ he)⟩
  · rintro ⟨hchunks, hwrites⟩
    refine ⟨hchunks, fun e he entries hcall => ?_⟩
    rcases List.mem_append.mp he with he | he
    · exact absurd hcall (hu e he entries)
    · exact hwrites e he entries hcall

/-- A step that adds one chunk and writes nothing. -/
theorem addsNoBlank_chunk {c : Chunk} (hchunks : ctx'.chunks = ctx.chunks ++ [c])
    (ht : ∀ e ∈ t, ∀ entries, e.call ≠ .ingest entries) :
    AddsNoBlank ctx ctx' t ↔ isBlank c.content = false := by
  constructor
  · rintro ⟨⟨added, hadded, hall⟩, _⟩
    rw [hchunks, List.map_append, List.append_cancel_left_eq] at hadded
    exact hall c.bare (by rw [← hadded]; exact List.mem_singleton_self _)
  · intro hc
    refine ⟨⟨[c.bare], by rw [hchunks, List.map_append]; rfl, ?_⟩, fun e he entries hcall =>
      absurd hcall (ht e he entries)⟩
    intro c' hc'
    rw [List.mem_singleton] at hc'
    rw [hc']
    exact hc

/-- A step that adds and writes nothing. -/
theorem addsNoBlank_refl (ht : ∀ e ∈ t, ∀ entries, e.call ≠ .ingest entries) :
    AddsNoBlank ctx ctx t :=
  ⟨⟨[], by simp, by simp⟩, fun e he entries hcall => absurd hcall (ht e he entries)⟩

theorem DocumentSummaryStep.summarizeOne_nonblank (step : DocumentSummaryStep)
    (ctx : PipelineContext) (d : String) :
    (step.summarizeOne ctx d).Yields CallsModel
      (fun result => ∀ c, result.outcome = .ok c → isBlank c.content = false) := by
  refine ((step.mapReduce.summarize_frame _).mono (fun _ => IsInvoke.callsModel)
    fun _ => id).bind fun outcome _ => ?_
  cases outcome with
  | error exc => exact fun c h => by cases h
  | ok summary =>
    dsimp only
    split
    · exact fun c h => by cases h
    · rename_i hblank
      split
      · exact fun c h => by cases h
      · intro c h
        obtain rfl := Except.ok.inj h
        exact Bool.eq_false_of_not_eq_true hblank

/-- The document summaries are never blank. -/
theorem DocumentSummaryStep.execute_nonblank {step : DocumentSummaryStep}
    (h : Runs W (step.execute ctx) s t ctx' s') : AddsNoBlank ctx ctx' t := by
  have hadds := step.execute_adds (P := fun c => isBlank c.content = false) (fun _ => id) ctx
    fun d _ ctx₀ => step.summarizeOne_nonblank ctx₀ d
  obtain ⟨⟨_, hchunks, _⟩, hcalls⟩ := hadds.calls h
  refine ⟨hchunks, fun e he entries hcall => ?_⟩
  have hread := hcalls e he
  rw [hcall] at hread
  exact hread.elim

namespace BodyOfKnowledgeSummaryStep

variable {step : BodyOfKnowledgeSummaryStep}

/-- The overview is persisted whether it is blank or not. -/
theorem persist_blank {text : String} (h : Runs W (persist ctx (bokChunk ctx text)) s t ctx' s') :
    llmAnswers t = [] ∧ (AddsNoBlank ctx ctx' t ↔ isBlank text = false) := by
  obtain ⟨r, s₁, t₁, _, rfl, hrest⟩ := runs_call_iff.mp h
  have hleft {embedding : Option Embedding} {u : List (Event ingestSignature)}
      (hu : ∀ e ∈ u, ∀ entries, e.call ≠ .ingest entries) :
      AddsNoBlank ctx { ctx with
        chunks := ctx.chunks ++ [{ bokChunk ctx text with embedding := embedding }] } u
        ↔ isBlank text = false :=
    addsNoBlank_chunk (c := { bokChunk ctx text with embedding := embedding }) rfl hu
  cases r with
  | error exc =>
    obtain ⟨rfl, rfl, rfl⟩ := runs_done_iff.mp hrest
    exact ⟨rfl, hleft (by simp)⟩
  | ok embeddings =>
    cases embeddings with
    | nil =>
      obtain ⟨rfl, rfl, rfl⟩ := runs_done_iff.mp hrest
      exact ⟨rfl, hleft (by simp)⟩
    | cons v vs =>
      obtain ⟨r, s₂, t₂, _, rfl, hdone⟩ := runs_call_iff.mp hrest
      -- The inline write holds the text, so the step is clean only if the text is.
      have hwrite (u : List (Event ingestSignature)) (ctx' : PipelineContext)
          (hadds : AddsNoBlank ctx ctx'
            (u ++ [⟨.ingest [bokEntry (bokChunk ctx text) v], r⟩])) : isBlank text = false :=
        hadds.writes _ (List.mem_append_right _ (List.mem_singleton_self _)) _ rfl
          (bokEntry (bokChunk ctx text) v) (List.mem_singleton_self _)
      have hclean (htext : isBlank text = false) : ∀ e ∈ ([⟨.embed [text], .ok (v :: vs)⟩,
          ⟨.ingest [bokEntry (bokChunk ctx text) v], r⟩] : List (Event ingestSignature)),
          ∀ entries, e.call = .ingest entries → ∀ x ∈ entries, isBlank x.document = false := by
        intro e he entries hcall x hx
        simp only [List.mem_cons, List.not_mem_nil, or_false] at he
        rcases he with rfl | rfl
        · cases hcall
        · obtain rfl := IngestCall.ingest.inj hcall
          rw [List.mem_singleton] at hx
          rw [hx]
          exact htext
      cases r with
      | ok _ =>
        obtain ⟨rfl, rfl, rfl⟩ := runs_done_iff.mp hdone
        exact ⟨rfl, hwrite [_] _, fun htext => ⟨⟨[], by simp, by simp⟩, hclean htext⟩⟩
      | error exc =>
        obtain ⟨rfl, rfl, rfl⟩ := runs_done_iff.mp hdone
        refine ⟨rfl, hwrite [_] _, fun htext => ⟨?_, hclean htext⟩⟩
        exact ((hleft (u := []) (by simp)).mpr htext).chunks

theorem groupInto_ne_nil (limit : Nat) (acc : List String × List String × Nat) (text : String) :
    (groupInto limit acc text).2.1 ≠ [] := by
  unfold groupInto
  dsimp only
  split <;> simp

/-- Sections stay sections when they are grouped. -/
theorem groupedSections_ne_nil {texts : List String} (h : texts ≠ []) :
    groupedSections step texts ≠ [] := by
  have hlast : (texts.foldl (groupInto (max 1000 step.maxSectionChars)) ([], [], 0)).2.1.isEmpty
      = false := by
    rw [List.isEmpty_eq_false_iff, ← List.dropLast_append_getLast h, List.foldl_append]
    exact groupInto_ne_nil _ _ _
  unfold groupedSections
  split
  · simp only [hlast, Bool.false_eq_true, if_false]
    split
    · simp
    · exact h
  · exact h

theorem generate_blank {texts : List String} (hne : texts ≠ [])
    (h : Runs W (step.generate ctx texts) s t ctx' s') :
    llmAnswers t ≠ [] ∧ (AddsNoBlank ctx ctx' t ↔
      leavesBlank (groupedSections step texts).length (llmAnswers t) = false) := by
  obtain ⟨out, s₁, t₁, t₂, rfl, hsummarize, hrest⟩ := runs_bind_iff.mp h
  have hinvoke : ∀ e ∈ t₁, ∀ entries, e.call ≠ .ingest entries := by
    have hcalls := ((step.mapReduce.summarize_frame _).calls hsummarize).2
    intro e he entries hcall
    have hcall' := hcalls e he
    rw [hcall] at hcall'
    exact hcall'
  obtain ⟨text, rfl, hsome, hblank⟩ :=
    MapReduce.summarize_blank (show 2 ≤ 10 by decide) (groupedSections_ne_nil hne) hsummarize
  obtain ⟨hnone, hpersist⟩ := persist_blank hrest
  rw [AddsNoBlank.append_iff hinvoke, hpersist, llmAnswers_append, hnone, List.append_nil, hblank]
  exact ⟨hsome, Iff.rfl⟩

theorem refresh_blank (h : Runs W (step.refresh ctx) s t ctx' s') :
    AddsNoBlank ctx ctx' t ↔ llmAnswers t = [] ∨
      leavesBlank (groupedSections step (sections ctx)).length (llmAnswers t) = false := by
  unfold refresh at h
  split at h
  · split at h
    · obtain ⟨rfl, rfl, _⟩ := runs_done_iff.mp h
      exact iff_of_true (addsNoBlank_refl (by simp)) (Or.inl rfl)
    · obtain ⟨rfl, rfl, _⟩ := runs_done_iff.mp h
      exact iff_of_true ⟨⟨[], by simp, by simp⟩, by simp⟩ (Or.inl rfl)
  · split at h
    · obtain ⟨rfl, rfl, _⟩ := runs_done_iff.mp h
      exact iff_of_true (addsNoBlank_refl (by simp)) (Or.inl rfl)
    · rename_i hsections
      obtain ⟨hsome, hiff⟩ := generate_blank (by simpa using hsections) h
      rw [hiff]
      exact (or_iff_right hsome).symm

/-- The overview is blank exactly when the answers of the models leave a blank
summary of the sections. -/
theorem execute_blank (h : Runs W (step.execute ctx) s t ctx' s') :
    AddsNoBlank ctx ctx' t ↔ llmAnswers t = [] ∨
      leavesBlank (groupedSections step (sections ctx)).length (llmAnswers t) = false := by
  unfold execute at h
  split at h
  · obtain ⟨found, s₁, t₁, t₂, rfl, hexists, hrest⟩ := runs_bind_iff.mp h
    have hget : llmAnswers t₁ = [] ∧ ∀ e ∈ t₁, ∀ entries, e.call ≠ .ingest entries := by
      obtain ⟨r, s₂, t₃, _, rfl, hdone⟩ := runs_call_iff.mp hexists
      cases r <;> obtain ⟨rfl, _, _⟩ := runs_done_iff.mp hdone <;> exact ⟨rfl, by simp⟩
    rw [AddsNoBlank.append_iff hget.2, llmAnswers_append, hget.1, List.nil_append]
    cases found with
    | true =>
      obtain ⟨rfl, rfl, _⟩ := runs_done_iff.mp hrest
      exact iff_of_true (addsNoBlank_refl (by simp)) (Or.inl rfl)
    | false => exact refresh_blank hrest
  · exact refresh_blank h

end BodyOfKnowledgeSummaryStep

end Steps

/-- When blank summaries arise.  A summary of which a map call gave some text is
blank exactly when several calls did and the last merge is blank.  The document
summaries are never blank.  The overview is clean exactly when none is made or
the answers leave no blank summary of the sections. -/
theorem blank_summary_iff {σ : Type} (W : World ingestSignature σ) (s s' : σ)
    (t : List (Event ingestSignature)) :
    (∀ (m : MapReduce) (chunks : List String) (out : Except String String), 2 ≤ m.reduceFanin →
      Runs W (m.summarize chunks) s t out s' →
      ((HasText chunks.length (llmAnswers t) → ∃ text, out = .ok text ∧ isBlank text = false) ↔
        ¬ (HasText chunks.length (llmAnswers t) ∧
          2 ≤ (partials chunks.length (llmAnswers t)).length ∧
          lastBlank (llmAnswers t) = true))) ∧
    (∀ (step : DocumentSummaryStep) (ctx ctx' : PipelineContext),
      Runs W (step.execute ctx) s t ctx' s' → AddsNoBlank ctx ctx' t) ∧
    ∀ (step : BodyOfKnowledgeSummaryStep) (ctx ctx' : PipelineContext),
      Runs W (step.execute ctx) s t ctx' s' →
      (AddsNoBlank ctx ctx' t ↔ llmAnswers t = [] ∨
        leavesBlank (step.groupedSections (BodyOfKnowledgeSummaryStep.sections ctx)).length
          (llmAnswers t) = false) :=
  ⟨fun _ _ _ hfanin h => MapReduce.summarize_blank_iff hfanin h,
    fun _ _ _ h => DocumentSummaryStep.execute_nonblank h,
    fun _ _ _ h => BodyOfKnowledgeSummaryStep.execute_blank h⟩

/-! ## Two models -/

/-- Ports that answer everything: the map calls with `mini` and the merges with
`merged`. -/
def twoModels (mini merged : String) : Script ingestSignature Collection :=
  steadyPorts (fun role _ => if role = .summary then mini else merged) (fun _ => [1])

theorem twoModels_runs {α : Type} (mini merged : String) (p : Ingest α) (s : Collection) :
    Runs (portWorld .any) p s (p.eval (twoModels mini merged) s).2.1
      (p.eval (twoModels mini merged) s).1 (p.eval (twoModels mini merged) s).2.2 :=
  eval_runs (steadyPorts_portWorld (fun _ _ => trivial) fun _ => trivial) p s

/-- The context of a corpus of one document. -/
def oneDocument : PipelineContext where
  documents := [{ content := "red", metadata := { documentId := "a", source := "s" } }]
  rawChunksByDoc := OrderedDict.empty.push "a" "red"

/-- The collection that holds the given overview. -/
def withOverview (text : String) : Collection :=
  Collection.empty.upsert
    (BodyOfKnowledgeSummaryStep.bokEntry (BodyOfKnowledgeSummaryStep.bokChunk oneDocument text) [1])

/-- Models that answer with some text leave a summary and an overview. -/
theorem blank_summary_iff_answers :
    (∃ text, (((({} : DocumentSummaryStep).mapReduce).summarize ["red", "blue"]).eval
      (twoModels "x" "y") .empty).1 = .ok text ∧ isBlank text = false) ∧
    AddsNoBlank oneDocument
      ((({} : BodyOfKnowledgeSummaryStep).execute oneDocument).eval (twoModels "x" "y") .empty).1
      ((({} : BodyOfKnowledgeSummaryStep).execute oneDocument).eval
        (twoModels "x" "y") .empty).2.1 ∧
    AddsNoBlank oneDocument
      ((({} : DocumentSummaryStep).execute oneDocument).eval (twoModels "x" "y") .empty).1
      ((({} : DocumentSummaryStep).execute oneDocument).eval (twoModels "x" "y") .empty).2.1 := by
  refine ⟨?_, ?_, ?_⟩
  · refine ((blank_summary_iff _ _ _ _).1 _ _ _ (by decide)
      (twoModels_runs "x" "y" _ .empty)).mpr ?_ ?_
    · rintro ⟨_, _, hlast⟩
      revert hlast
      decide +kernel
    · exact ⟨"x", by decide +kernel, by decide⟩
  · exact ((blank_summary_iff _ _ _ _).2.2 _ _ _ (twoModels_runs "x" "y" _ .empty)).mpr
      (Or.inr (by decide +kernel))
  · exact (blank_summary_iff _ _ _ _).2.1 _ _ _ (twoModels_runs "x" "y" _ .empty)

/-- A blank merge of two summaries gives a blank summary, and a blank answer
replaces an overview by a blank one. -/
theorem blank_summary_stored :
    (∃ s t out s', Runs (portWorld .any)
        ((({} : DocumentSummaryStep).mapReduce).summarize ["red", "blue"]) s t out s' ∧
      HasText 2 (llmAnswers t) ∧ out.toOption = some "") ∧
    ∃ t ctx' s', Runs (portWorld .any) (({} : BodyOfKnowledgeSummaryStep).execute oneDocument)
        (withOverview "old") t ctx' s' ∧
      (∃ e ∈ withOverview "old", e.document = "old") ∧
      ∀ e ∈ s', isBlank e.document = true := by
  refine ⟨⟨.empty, _, _, _, twoModels_runs "x" "" _ .empty, ⟨"x", ?_, by decide⟩, ?_⟩,
    _, _, _, twoModels_runs "" "y" _ _, ?_, ?_⟩
  · decide +kernel
  · decide +kernel
  · show ∃ e ∈ Collection.entries _, _
    decide +kernel
  · show ∀ e ∈ Collection.entries _, _
    decide +kernel

end VirtualContributor.Pipeline
