import VirtualContributor.Pipeline.BlankSummaries

/-!
# The merges behind a summary

`_map_reduce_summarize` merges the partial summaries level by level, in batches,
and a failed merge falls back to concatenation.  Behind its result stands a tree
of merges.

* `summarize_loses_nothing`: the leaves of that tree are the partial summaries,
  in order.  If every merge fails, the result is their concatenation.
-/

namespace VirtualContributor.Pipeline

open Lib Program

/-! ## Trees -/

/-- A partial summary, or the text that some merged summaries became. -/
inductive MergeTree where
  | mini (text : String)
  | merge (children : List MergeTree) (text : String)

namespace MergeTree

def text : MergeTree → String
  | mini text => text
  | merge _ text => text

mutual

/-- The partial summaries of a tree, from left to right. -/
def leaves : MergeTree → List String
  | mini text => [text]
  | merge children _ => leavesAll children

def leavesAll : List MergeTree → List String
  | [] => []
  | tree :: trees => leaves tree ++ leavesAll trees

end

theorem leavesAll_append (trees more : List MergeTree) :
    leavesAll (trees ++ more) = leavesAll trees ++ leavesAll more := by
  induction trees with
  | nil => rfl
  | cons tree trees ih => rw [List.cons_append, leavesAll, leavesAll, ih, List.append_assoc]

theorem leavesAll_mini (minis : List String) : leavesAll (minis.map mini) = minis := by
  induction minis with
  | nil => rfl
  | cons text minis ih =>
    rw [List.map_cons, leavesAll, leaves, ih]
    rfl

theorem map_text_mini (minis : List String) : (minis.map mini).map text = minis := by
  rw [List.map_map]
  exact List.map_id minis

end MergeTree

/-! ## The calls behind a tree -/

namespace MapReduce

/-- The map call of one chunk. -/
def mapCall (m : MapReduce) (budget : Nat) (chunk : String) : ingestSignature.Call :=
  .invoke m.mapRole ⟨m.mapSystem, m.mapTemplate chunk budget⟩

/-- The reduce call of some summaries, with its answer. -/
def reduceEvent (m : MapReduce) (batch : List String) (answer : Except String String) :
    Event ingestSignature :=
  ⟨.invoke m.reduceRole
    ⟨m.reduceSystem, m.reduceTemplate (SEPARATOR.intercalate batch) m.maxLength⟩, answer⟩

end MapReduce

/-- What a reduce call leaves: its text, or the concatenation. -/
def mergedText (batch : List String) (answer : Except String String) : String :=
  match answer with
  | .ok merged => merged
  | .error _ => SEPARATOR.intercalate batch

/-- Every merge of a tree is a reduce call among some events, of the texts of
at least two summaries and no more than fit into a batch. -/
inductive MergeTree.Backed (m : MapReduce) (t : List (Event ingestSignature)) : MergeTree → Prop
  | mini (text : String) : MergeTree.Backed m t (.mini text)
  | merge {children : List MergeTree} {answer : Except String String}
      (hmany : 2 ≤ children.length) (hfew : children.length ≤ m.reduceFanin)
      (hcall : m.reduceEvent (children.map text) answer ∈ t)
      (hchildren : ∀ child ∈ children, MergeTree.Backed m t child) :
      MergeTree.Backed m t (.merge children (mergedText (children.map text) answer))

theorem MergeTree.Backed.mono {m : MapReduce} {t u : List (Event ingestSignature)}
    (h : t ⊆ u) {tree : MergeTree} (htree : tree.Backed m t) : tree.Backed m u := by
  induction htree with
  | mini text => exact .mini text
  | merge hmany hfew hcall _ ih => exact .merge hmany hfew (h hcall) ih

/-- Trees behind the summaries of one level. -/
structure Forest (m : MapReduce) (t : List (Event ingestSignature)) (leaves : List String)
    (minis : List String) (trees : List MergeTree) : Prop where
  texts : trees.map MergeTree.text = minis
  leaves : MergeTree.leavesAll trees = leaves
  backed : ∀ tree ∈ trees, tree.Backed m t

namespace MapReduce

variable {σ : Type} {W : World ingestSignature σ} {m : MapReduce} {s s' : σ}
  {t : List (Event ingestSignature)}

/-! ## Merging -/

/-- Merging a batch of trees gives a tree over them. -/
theorem reduceOne_tree {before : List (Event ingestSignature)} {batch : List MergeTree}
    {out : String} (hne : batch ≠ []) (hfew : batch.length ≤ m.reduceFanin)
    (hbacked : ∀ tree ∈ batch, tree.Backed m before)
    (h : Runs W (m.reduceOne (batch.map MergeTree.text)) s t out s') :
    ∃ tree, Forest m (before ++ t) (MergeTree.leavesAll batch) [out] [tree] := by
  have hmono : ∀ tree ∈ batch, tree.Backed m (before ++ t) := fun tree htree =>
    (hbacked tree htree).mono (List.subset_append_left _ _)
  cases batch with
  | nil => exact absurd rfl hne
  | cons tree batch =>
    cases batch with
    | nil =>
      obtain ⟨rfl, rfl, rfl⟩ := runs_done_iff.mp h
      exact ⟨tree, rfl, rfl, hmono⟩
    | cons tree' batch =>
      obtain ⟨answer, s₁, t₁, _, rfl, hrest⟩ := runs_call_iff.mp h
      have hout : t₁ = [] ∧
          out = mergedText ((tree :: tree' :: batch).map MergeTree.text) answer := by
        cases answer with
        | ok merged =>
          obtain ⟨rfl, rfl, rfl⟩ := runs_done_iff.mp hrest
          exact ⟨rfl, rfl⟩
        | error exc =>
          obtain ⟨rfl, rfl, rfl⟩ := runs_done_iff.mp hrest
          exact ⟨rfl, rfl⟩
      obtain ⟨rfl, rfl⟩ := hout
      refine ⟨.merge (tree :: tree' :: batch) _, rfl, List.append_nil _, ?_⟩
      intro merged hmerged
      rw [List.mem_singleton.mp hmerged]
      exact .merge (by simp) hfew (List.mem_append_right _ (List.mem_singleton_self _)) hmono

/-- Merging some batches of trees gives a tree over each. -/
theorem reduceBatches_forest {before : List (Event ingestSignature)}
    {batches : List (List MergeTree)} {outs : List String}
    (hsizes : ∀ batch ∈ batches, batch ≠ [] ∧ batch.length ≤ m.reduceFanin)
    (hbacked : ∀ batch ∈ batches, ∀ tree ∈ batch, tree.Backed m before)
    (h : Runs W ((batches.map (List.map MergeTree.text)).mapM m.reduceOne) s t outs s') :
    ∃ trees, Forest m (before ++ t) (MergeTree.leavesAll batches.flatten) outs trees := by
  induction batches generalizing before s t outs with
  | nil =>
    obtain ⟨rfl, rfl, rfl⟩ := runs_done_iff.mp h
    exact ⟨[], rfl, rfl, nofun⟩
  | cons batch batches ih =>
    rw [List.map_cons, List.mapM_cons] at h
    obtain ⟨out, s₁, t₁, t₂, rfl, hfirst, hrest⟩ := runs_bind_iff.mp h
    obtain ⟨outs', s₂, t₃, t₄, rfl, hothers, hdone⟩ := runs_bind_iff.mp hrest
    obtain ⟨rfl, rfl, rfl⟩ := runs_done_iff.mp hdone
    obtain ⟨⟨hne, hfew⟩, hsizes⟩ := List.forall_mem_cons.mp hsizes
    obtain ⟨hbatch, hbacked⟩ := List.forall_mem_cons.mp hbacked
    obtain ⟨tree, htree⟩ := reduceOne_tree hne hfew hbatch hfirst
    have hlater : ∀ batch ∈ batches, ∀ tree ∈ batch, tree.Backed m (before ++ t₁) :=
      fun batch hmem tree htree =>
        (hbacked batch hmem tree htree).mono (List.subset_append_left _ _)
    obtain ⟨trees, htrees⟩ := ih hsizes hlater hothers
    rw [List.append_nil, ← List.append_assoc]
    refine ⟨tree :: trees, ?_, ?_, ?_⟩
    · rw [List.map_cons, htrees.texts]
      exact congrArg (· :: outs') (List.singleton_inj.mp htree.texts)
    · have hleaves : tree.leaves ++ [] = MergeTree.leavesAll batch := htree.leaves
      rw [MergeTree.leavesAll, htrees.leaves, List.flatten_cons, MergeTree.leavesAll_append,
        ← hleaves, List.append_nil]
    · intro other hother
      obtain rfl | hother := List.mem_cons.mp hother
      · exact (htree.backed other (List.mem_singleton_self _)).mono (List.subset_append_left _ _)
      · exact htrees.backed other hother

/-- One level of merges keeps the leaves. -/
theorem reduceLevel_forest (hfanin : 2 ≤ m.reduceFanin) {before : List (Event ingestSignature)}
    {leaves minis next : List String} {trees : List MergeTree}
    (hforest : Forest m before leaves minis trees)
    (h : Runs W (m.reduceLevel minis) s t next s') :
    ∃ trees', Forest m (before ++ t) leaves next trees' := by
  have hpos : 0 < m.reduceFanin := by omega
  unfold reduceLevel at h
  rw [← hforest.texts, slices_map] at h
  obtain ⟨trees', htrees'⟩ := reduceBatches_forest
    (fun batch hbatch => bounds_of_mem_slices hpos hbatch)
    (fun batch hbatch tree htree => hforest.backed tree (mem_of_mem_slices hpos hbatch htree)) h
  rw [flatten_slices hpos, hforest.leaves] at htrees'
  exact ⟨trees', htrees'⟩

/-- The levels come down to one tree over all the leaves. -/
theorem reduceLevels_tree (hfanin : 2 ≤ m.reduceFanin) {before : List (Event ingestSignature)}
    {fuel : Nat} {leaves minis : List String} {trees : List MergeTree} {out : String}
    (hne : minis ≠ []) (hfuel : minis.length ≤ fuel)
    (hforest : Forest m before leaves minis trees)
    (h : Runs W (m.reduceLevels fuel minis) s t out s') :
    ∃ tree, Forest m (before ++ t) leaves [out] [tree] := by
  induction fuel generalizing before minis trees s t with
  | zero => exact absurd (List.length_eq_zero_iff.mp (Nat.le_zero.mp hfuel)) hne
  | succ fuel ih =>
    rw [reduceLevels] at h
    by_cases hmany : 1 < minis.length
    · rw [if_pos hmany] at h
      obtain ⟨next, s₁, t₁, t₂, rfl, hlevel, hrest⟩ := runs_bind_iff.mp h
      obtain ⟨trees', htrees'⟩ := reduceLevel_forest hfanin hforest hlevel
      have hcount : next.length = (slices m.reduceFanin minis).length := hlevel.length_mapM
      have hfewer := length_slices_lt hfanin hmany
      have hnext : next ≠ [] := by
        rintro rfl
        have hcut := flatten_slices (by omega : 0 < m.reduceFanin) minis
        rw [List.length_eq_zero_iff.mp hcount.symm] at hcut
        exact hne hcut.symm
      rw [← List.append_assoc]
      exact ih hnext (by omega) htrees' hrest
    · rw [if_neg hmany] at h
      obtain ⟨rfl, rfl, rfl⟩ := runs_done_iff.mp h
      obtain ⟨mini, rfl⟩ : ∃ mini, minis = [mini] := by
        cases minis with
        | nil => exact absurd rfl hne
        | cons mini rest =>
          cases rest with
          | nil => exact ⟨mini, rfl⟩
          | cons mini' rest => simp at hmany
      obtain ⟨tree, rfl⟩ : ∃ tree, trees = [tree] :=
        List.length_eq_one_iff.mp (by rw [← List.length_map MergeTree.text, hforest.texts]; rfl)
      rw [List.append_nil]
      exact ⟨tree, hforest⟩

/-! ## Failed merges -/

/-- Every call among some events failed. -/
def AllFailed (t : List (Event ingestSignature)) : Prop :=
  ∀ answer ∈ llmAnswers t, ∃ exc, answer = .error exc

theorem allFailed_append {t u : List (Event ingestSignature)} :
    AllFailed (t ++ u) ↔ AllFailed t ∧ AllFailed u := by
  unfold AllFailed
  rw [llmAnswers_append]
  exact List.forall_mem_append

/-- Concatenating concatenations is concatenating all. -/
theorem intercalate_intercalate (separator : String) {batches : List (List String)}
    (h : ∀ batch ∈ batches, batch ≠ []) :
    separator.intercalate (batches.map separator.intercalate) =
      separator.intercalate batches.flatten := by
  induction batches with
  | nil => rfl
  | cons batch batches ih =>
    obtain ⟨hbatch, hrest⟩ := List.forall_mem_cons.mp h
    by_cases hlast : batches = []
    · subst hlast
      rw [List.map_singleton, String.intercalate_singleton, List.flatten_singleton]
    · have hflatten : batches.flatten ≠ [] := by
        obtain ⟨next, later, rfl⟩ := List.exists_cons_of_ne_nil hlast
        rw [List.flatten_cons]
        exact List.append_ne_nil_of_left_ne_nil (hrest next List.mem_cons_self) _
      rw [List.map_cons, String.intercalate_cons_of_ne_nil (by simpa using hlast), ih hrest,
        List.flatten_cons, String.intercalate_append_of_ne_nil hbatch hflatten]

theorem reduceOne_failed {batch : List String} {out : String} (hfailed : AllFailed t)
    (h : Runs W (m.reduceOne batch) s t out s') : out = SEPARATOR.intercalate batch := by
  unfold reduceOne at h
  split at h
  · obtain ⟨_, rfl, _⟩ := runs_done_iff.mp h
    rw [String.intercalate_singleton]
  · obtain ⟨answer, s₁, t₁, _, rfl, hrest⟩ := runs_call_iff.mp h
    obtain ⟨exc, rfl⟩ := hfailed answer (List.mem_cons_self (l := llmAnswers t₁))
    obtain ⟨_, rfl, _⟩ := runs_done_iff.mp hrest
    rfl

theorem reduceBatches_failed {batches : List (List String)} {outs : List String}
    (hfailed : AllFailed t) (h : Runs W (batches.mapM m.reduceOne) s t outs s') :
    outs = batches.map SEPARATOR.intercalate := by
  induction batches generalizing s t outs with
  | nil =>
    obtain ⟨_, rfl, _⟩ := runs_done_iff.mp h
    rfl
  | cons batch batches ih =>
    rw [List.mapM_cons] at h
    obtain ⟨out, s₁, t₁, t₂, rfl, hfirst, hrest⟩ := runs_bind_iff.mp h
    obtain ⟨outs', s₂, t₃, t₄, rfl, hothers, hdone⟩ := runs_bind_iff.mp hrest
    obtain ⟨rfl, rfl, rfl⟩ := runs_done_iff.mp hdone
    rw [List.append_nil] at hfailed
    obtain ⟨hfailed₁, hfailed₂⟩ := allFailed_append.mp hfailed
    rw [reduceOne_failed hfailed₁ hfirst, ih hfailed₂ hothers, List.map_cons]

theorem reduceLevels_failed (hfanin : 2 ≤ m.reduceFanin) {fuel : Nat} {minis : List String}
    {out : String} (hfuel : minis.length ≤ fuel) (hfailed : AllFailed t)
    (h : Runs W (m.reduceLevels fuel minis) s t out s') : out = SEPARATOR.intercalate minis := by
  have hpos : 0 < m.reduceFanin := by omega
  have hshort : ∀ {minis : List String}, minis.length ≤ 1 →
      minis.headD "" = SEPARATOR.intercalate minis := by
    intro minis hlength
    cases minis with
    | nil => rfl
    | cons mini rest =>
      rw [List.length_cons] at hlength
      rw [List.length_eq_zero_iff.mp (by omega : rest.length = 0), String.intercalate_singleton]
      rfl
  induction fuel generalizing minis s t with
  | zero =>
    obtain ⟨_, rfl, _⟩ := runs_done_iff.mp h
    exact hshort (by omega)
  | succ fuel ih =>
    rw [reduceLevels] at h
    by_cases hmany : 1 < minis.length
    · rw [if_pos hmany] at h
      obtain ⟨next, s₁, t₁, t₂, rfl, hlevel, hrest⟩ := runs_bind_iff.mp h
      obtain ⟨hfailed₁, hfailed₂⟩ := allFailed_append.mp hfailed
      have hcount : next.length = (slices m.reduceFanin minis).length := hlevel.length_mapM
      have hfewer := length_slices_lt hfanin hmany
      rw [ih (by omega) hfailed₂ hrest, reduceBatches_failed hfailed₁ hlevel,
        intercalate_intercalate _ (fun batch hbatch => (bounds_of_mem_slices hpos hbatch).1),
        flatten_slices hpos]
    · rw [if_neg hmany] at h
      obtain ⟨_, rfl, _⟩ := runs_done_iff.mp h
      exact hshort (by omega)

/-! ## The result -/

theorem mapAll_calls {budget : Nat} {chunks : List String} {outs : List (Option String)}
    (h : Runs W (chunks.mapM (m.mapOne budget)) s t outs s') :
    t.map Event.call = chunks.map (m.mapCall budget) := by
  induction chunks generalizing s t outs with
  | nil =>
    obtain ⟨rfl, _, _⟩ := runs_done_iff.mp h
    rfl
  | cons chunk chunks ih =>
    rw [List.mapM_cons] at h
    obtain ⟨out, s₁, t₁, t₂, rfl, hfirst, hrest⟩ := runs_bind_iff.mp h
    obtain ⟨outs', s₂, t₃, t₄, rfl, hothers, hdone⟩ := runs_bind_iff.mp hrest
    obtain ⟨rfl, _, rfl⟩ := runs_done_iff.mp hdone
    obtain ⟨answer, s₃, t₅, _, rfl, hlast⟩ := runs_call_iff.mp hfirst
    have hnil : t₅ = [] := by
      cases answer with
      | ok mini => exact (runs_done_iff.mp hlast).1
      | error exc => exact (runs_done_iff.mp hlast).1
    rw [List.append_nil, hnil, List.map_append, ih hothers]
    rfl

/-- The texts, not empty, that the map calls gave. -/
def miniSummaries (maps : List (Event ingestSignature)) : List String :=
  ((llmAnswers maps).filterMap Except.toOption).filter (· ≠ "")

/-- The summary of some map outputs, by the reduce calls among some events. -/
structure LosesNothing (m : MapReduce) (minis : List String)
    (reduces : List (Event ingestSignature)) (text : String) : Prop where
  empty : minis = [] → text = ""
  tree : minis ≠ [] → ∃ tree : MergeTree,
    tree.text = text ∧ tree.leaves = minis ∧ tree.Backed m reduces
  failed : AllFailed reduces → text = SEPARATOR.intercalate minis

/-- Merging the map outputs loses nothing. -/
theorem losesNothing_of_runs (hfanin : 2 ≤ m.reduceFanin) {minis : List String}
    {out : Except String String}
    (h : Runs W (match minis with
      | [] => pure (.ok "")
      | _ => (m.reduceLevels minis.length minis).bind fun text => done (.ok text)) s t out s') :
    ∃ text, out = .ok text ∧ LosesNothing m minis t text := by
  cases minis with
  | nil =>
    obtain ⟨rfl, rfl, rfl⟩ := runs_done_iff.mp h
    exact ⟨"", rfl, fun _ => rfl, fun hne => absurd rfl hne, fun _ => rfl⟩
  | cons mini rest =>
    obtain ⟨text, s₁, t₁, t₂, rfl, hlevels, hdone⟩ := runs_bind_iff.mp h
    obtain ⟨rfl, rfl, rfl⟩ := runs_done_iff.mp hdone
    rw [List.append_nil]
    refine ⟨text, rfl, nofun, fun hne => ?_, fun hfailed =>
      reduceLevels_failed hfanin (Nat.le_refl _) hfailed hlevels⟩
    have hforest : Forest m [] (mini :: rest) (mini :: rest) ((mini :: rest).map .mini) := by
      refine ⟨MergeTree.map_text_mini _, MergeTree.leavesAll_mini _, ?_⟩
      intro tree htree
      obtain ⟨text, _, rfl⟩ := List.mem_map.mp htree
      exact .mini text
    obtain ⟨tree, htree⟩ := reduceLevels_tree hfanin hne (Nat.le_refl _) hforest hlevels
    have hleaves : tree.leaves ++ [] = mini :: rest := htree.leaves
    exact ⟨tree, List.singleton_inj.mp htree.texts, by rwa [List.append_nil] at hleaves,
      htree.backed tree (List.mem_singleton_self _)⟩

/-- The summary of two or more chunks ends, and it loses no map output. -/
theorem summarize_loses_nothing (W : World ingestSignature σ) (m : MapReduce)
    (hfanin : 2 ≤ m.reduceFanin) (chunks : List String) (hchunks : 2 ≤ chunks.length) :
    ((∀ s c, ∃ r s', W s c r s') → ∀ s, ∃ t out s', Runs W (m.summarize chunks) s t out s') ∧
      ∀ s t out s', Runs W (m.summarize chunks) s t out s' →
        ∃ maps reduces text, t = maps ++ reduces ∧ out = .ok text ∧
          maps.map Event.call =
            chunks.map (m.mapCall (max 500 (m.maxLength / max 2 chunks.length))) ∧
          LosesNothing m (miniSummaries maps) reduces text := by
  refine ⟨fun hanswers s => exists_runs hanswers _ s, ?_⟩
  intro s t out s' h
  unfold summarize at h
  split at h
  case h_1 => simp at hchunks
  case h_2 =>
    rw [if_neg (by omega)] at h
    split at h
    case h_1 => simp at hchunks
    case h_2 =>
      obtain ⟨mapped, s₁, t₁, t₂, rfl, hmap, hrest⟩ := runs_bind_iff.mp h
      obtain ⟨_, rfl⟩ := mapAll_answers hmap
      rw [List.filterMap_map] at hrest
      obtain ⟨text, rfl, hnothing⟩ := losesNothing_of_runs hfanin hrest
      exact ⟨t₁, t₂, text, rfl, rfl, mapAll_calls hmap, hnothing⟩

/-- Two summaries and the merge of them. -/
theorem summarize_loses_nothing_pair :
    let m := DocumentSummaryStep.mapReduce {}
    let run := (m.summarize ["red", "blue"]).eval (twoModels "x" "y") .empty
    ∃ maps reduces text, run.2.1 = maps ++ reduces ∧ run.1 = .ok text ∧
      maps.map Event.call = ["red", "blue"].map (m.mapCall (max 500 (m.maxLength / max 2 2))) ∧
      LosesNothing m (miniSummaries maps) reduces text := by
  intro m run
  have hruns : Runs (portWorld .any) (m.summarize ["red", "blue"]) .empty run.2.1 run.1 run.2.2 :=
    twoModels_runs "x" "y" _ .empty
  exact (summarize_loses_nothing (portWorld .any) m (by decide) ["red", "blue"]
    (by decide)).2 _ _ _ _ hruns

end MapReduce

end VirtualContributor.Pipeline
