import VirtualContributor.Retrieval.FusionSpec
import VirtualContributor.Retrieval.HybridRetrieval

/-!
# Hybrid retrieval without its lexical arm

When the lexical arm is off, cannot be asked or has nothing to say, hybrid
retrieval returns what the dense query returns (`retrieve_degrades`).  Some of
these cases make the dense query alone.  In the others both arms are fused,
and fusion keeps the rows of the dense arm as they are: every row has a higher
score than the next (`fuse_empty_arm`).
-/

namespace VirtualContributor.Retrieval

open Lib Program

/-! ## Dense results -/

/-- Dense rows: four parallel lists of distinct documents, as many as were
asked for at most. -/
structure DenseRows (nResults : Nat) where
  documents : List String
  metadatas : List Metadata
  distances : List (Option Rat)
  ids : List String
  length_documents : documents.length = ids.length
  length_metadatas : metadatas.length = ids.length
  length_distances : distances.length = ids.length
  distinct : ids.Nodup
  length_le : ids.length ≤ nResults

/-- The result of one query text. -/
def DenseRows.result {nResults : Nat} (rows : DenseRows nResults) : QueryResult where
  documents := [rows.documents]
  metadatas := [rows.metadatas]
  distances := [rows.distances]
  ids := [rows.ids]

/-! ## Fusion with an empty arm -/

section

variable {nResults : Nat} {rows : DenseRows nResults} {lexical : QueryResult}

theorem reported_lexical (hempty : firstRow lexical.ids = []) (id : String) :
    reported id lexical = {} := by
  unfold reported
  rw [hempty, if_neg List.not_mem_nil]

theorem reported_dense {id : String} (hmem : id ∈ rows.ids) :
    reported id rows.result = Fusion.rowAt rows.result (rows.ids.idxOf id) := if_pos hmem

/-- The rows of the dense arm are read off again. -/
theorem resultOf_dense (hempty : firstRow lexical.ids = []) :
    resultOf [rows.result, lexical] rows.ids = rows.result := by
  have hdocuments : rows.ids.map (documentOf [rows.result, lexical]) = rows.documents := by
    rw [← map_getD_idxOf rows.distinct rows.length_documents ""]
    apply List.map_congr_left
    intro id hmem
    unfold documentOf
    rw [List.map_cons, List.map_singleton, reported_lexical hempty, reported_dense hmem]
    show ([rows.documents.getD (rows.ids.idxOf id) "", ""].find? (· ≠ "")).getD "" = _
    by_cases hblank : rows.documents.getD (rows.ids.idxOf id) "" = ""
    · rw [hblank]
      rfl
    · rw [List.find?_cons, decide_eq_true hblank]
      rfl
  have hmetadatas : rows.ids.map (metadataOf [rows.result, lexical]) = rows.metadatas := by
    rw [← map_getD_idxOf rows.distinct rows.length_metadatas []]
    apply List.map_congr_left
    intro id hmem
    unfold metadataOf
    rw [List.map_cons, List.map_singleton, reported_lexical hempty, reported_dense hmem]
    show ([rows.metadatas.getD (rows.ids.idxOf id) [], []].find? (!·.isEmpty)).getD [] = _
    cases rows.metadatas.getD (rows.ids.idxOf id) [] with
    | nil => rfl
    | cons field fields => rfl
  have hdistances : rows.ids.map (distanceOf [rows.result, lexical]) = rows.distances := by
    rw [← map_getD_idxOf rows.distinct rows.length_distances none]
    apply List.map_congr_left
    intro id hmem
    show (reported id rows.result).distance = _
    rw [reported_dense hmem]
    rfl
  unfold resultOf
  rw [hdocuments, hmetadatas, hdistances]
  rfl

/-- Each dense row dominates the next. -/
theorem pairwise_dominates (hempty : firstRow lexical.ids = []) {dense weight : Rat}
    (hdense : 0 < dense) :
    rows.ids.Pairwise (Dominates (rankings [rows.result, lexical] [dense, weight])) := by
  have harms : rankings [rows.result, lexical] [dense, weight] =
      [(rows.ids, dense), ([], weight)] := by
    unfold rankings
    rw [List.zip_cons_cons, List.zip_cons_cons, List.map_cons, List.map_cons, hempty]
    rfl
  apply (pairwise_rank_lt rows.distinct).imp
  intro a b hlt
  rw [harms]
  constructor
  · rw [List.forall_mem_cons, List.forall_mem_singleton]
    exact ⟨hlt.le, le_rfl⟩
  · exact ⟨_, List.mem_cons_self, hdense, hlt⟩

theorem fusedOrder_dense (hempty : firstRow lexical.ids = []) {dense weight : Rat}
    (hdense : 0 < dense) (hweight : 0 ≤ weight) (k : Nat) :
    fusedOrder [rows.result, lexical] [dense, weight] k = rows.ids := by
  have hunion : (unionIds [rows.result, lexical]).toList = rows.ids := by
    have hids : [rows.result, lexical].flatMap (fun arm => firstRow arm.ids) = rows.ids := by
      rw [List.flatMap_cons, List.flatMap_singleton, hempty, List.append_nil]
      rfl
    unfold unionIds
    rw [hids, OrderedSet.toList_ofList_of_nodup rows.distinct]
  have hweights : ∀ w ∈ [dense, weight], 0 ≤ w := by
    rw [List.forall_mem_cons, List.forall_mem_singleton]
    exact ⟨hdense.le, hweight⟩
  unfold fusedOrder
  rw [hunion]
  apply List.mergeSort_of_pairwise
  apply (pairwise_dominates hempty hdense).imp
  intro a b hdominates
  exact decide_eq_true (standing_lt hweights hdominates).le

/-- Fusion with an empty arm returns the rows of the dense arm. -/
theorem fuse_empty_arm (hempty : firstRow lexical.ids = []) {dense weight : Rat}
    (hdense : 0 < dense) (hweight : 0 ≤ weight) (k : Nat) :
    reciprocalRankFusion [rows.result, lexical] k [dense, weight] nResults = .ok rows.result := by
  have hdistinct : ∀ arm ∈ [rows.result, lexical], (firstRow arm.ids).Nodup := by
    rw [List.forall_mem_cons, List.forall_mem_singleton, hempty]
    exact ⟨rows.distinct, List.nodup_nil⟩
  rw [reciprocalRankFusion_eq rfl hdistinct, fusedOrder_dense hempty hdense hweight,
    List.take_of_length_le rows.length_le, resultOf_dense hempty]

end

/-! ## Degraded retrieval -/

section

variable (T : UnicodeText) (store : StoreAnswers) (providesLexical : Bool)
  (collection query : String) (config : Option HybridSettings) (nResults : Nat)
  (filter : Option Where)

/-- The query of the lexical arm. -/
def lexicalQuery (settings : HybridSettings) : LexicalQuery where
  collection
  terms := extractTerms T query settings.hybridMinTermLen settings.hybridMaxTerms
  nResults
  filter

/-- The ways to be without a lexical arm. -/
inductive Degraded : Prop where
  | disabled (h : ∀ settings, config = some settings → settings.hybridRetrievalEnabled = false)
  | muted (settings : HybridSettings) (hconfig : config = some settings)
      (h : settings.hybridLexicalWeight = 0)
  | unsupported (h : providesLexical = false)
  | noTerms (settings : HybridSettings) (hconfig : config = some settings)
      (h : extractTerms T query settings.hybridMinTermLen settings.hybridMaxTerms = [])
  | failed (settings : HybridSettings) (hconfig : config = some settings) (failure : StoreFailure)
      (h : store.queryLexical (lexicalQuery T collection query nResults filter settings) =
        .error failure) (hother : failure.isEmbedding = false)
  | noRows (settings : HybridSettings) (hconfig : config = some settings) (result : QueryResult)
      (h : store.queryLexical (lexicalQuery T collection query nResults filter settings) =
        .ok result) (hempty : firstRow result.ids = [])

variable {T store providesLexical collection query config nResults filter}

/-- What the lexical arm contributes when it failed or found nothing. -/
theorem keepLexical_empty {outcome : QueryOutcome}
    (h : (∃ failure, outcome = .error failure ∧ failure.isEmbedding = false) ∨
      ∃ result, outcome = .ok result ∧ firstRow result.ids = []) :
    ∃ lexical, keepLexical outcome = .ok lexical ∧ firstRow lexical.ids = [] := by
  rcases h with ⟨failure, rfl, hother⟩ | ⟨result, rfl, hempty⟩
  · have hkept : keepLexical (.error failure) = .ok .empty := if_neg (by simp [hother])
    exact ⟨.empty, hkept, rfl⟩
  · exact ⟨result, rfl, hempty⟩

theorem fuseOutcomes_degraded {settings : HybridSettings} {dense lexical : QueryOutcome}
    (hdense : 0 < settings.hybridDenseWeight) (hlexical : 0 ≤ settings.hybridLexicalWeight)
    (hrows : ∀ result, dense = .ok result → ∃ rows : DenseRows nResults, result = rows.result)
    (hkept : ∃ result, keepLexical lexical = .ok result ∧ firstRow result.ids = []) :
    fuseOutcomes settings nResults (dense, lexical) = raiseFailure dense := by
  obtain ⟨result, hkept, hempty⟩ := hkept
  cases dense with
  | error failure => rfl
  | ok denseResult =>
    obtain ⟨rows, rfl⟩ := hrows denseResult rfl
    unfold fuseOutcomes
    rw [hkept]
    exact fuse_empty_arm hempty hdense hlexical _

/-- Degraded retrieval returns what the dense query returns, or raises what it
raises. -/
theorem retrieve_degrades (T : UnicodeText) (store : StoreAnswers) (providesLexical : Bool)
    (collection query : String) (config : Option HybridSettings) (nResults : Nat)
    (filter : Option Where)
    (hweights : ∀ settings, config = some settings →
      0 < settings.hybridDenseWeight ∧ 0 ≤ settings.hybridLexicalWeight)
    (hrows : ∀ result, store.query { collection, query, nResults, filter } = .ok result →
      ∃ rows : DenseRows nResults, result = rows.result)
    (hdegraded : Degraded T store providesLexical collection query config nResults filter) :
    store.outcome (retrieve T providesLexical collection query config nResults filter) =
      store.outcome (storeQuery { collection, query, nResults, filter }) := by
  cases config with
  | none => rfl
  | some settings =>
    obtain ⟨hdense, hlexical⟩ := hweights settings rfl
    unfold retrieve
    dsimp only
    split
    · rfl
    split
    · rfl
    split
    · rfl
    split
    · rfl
    rename_i henabled hweight hprovided hterms
    rw [if_neg hdense.ne', StoreAnswers.outcome_gather, StoreAnswers.outcome_storeQuery]
    apply fuseOutcomes_degraded hdense hlexical hrows
    apply keepLexical_empty
    -- the first four ways have returned above
    cases hdegraded with
    | disabled h => exact absurd (h settings rfl) (by simpa using henabled)
    | muted _ hconfig h =>
      obtain rfl := Option.some.inj hconfig
      exact absurd h hweight
    | unsupported h => exact absurd h (by simpa using hprovided)
    | noTerms _ hconfig h =>
      obtain rfl := Option.some.inj hconfig
      exact absurd h hterms
    | failed _ hconfig failure h hother =>
      obtain rfl := Option.some.inj hconfig
      exact .inl ⟨failure, h, hother⟩
    | noRows _ hconfig result h hempty =>
      obtain rfl := Option.some.inj hconfig
      exact .inr ⟨result, h, hempty⟩

/-- Two dense rows. -/
def twoRows : DenseRows 5 where
  documents := ["red", ""]
  metadatas := [[("title", .str "t")], []]
  distances := [some (1 / 10), none]
  ids := ["b", "a"]
  length_documents := rfl
  length_metadatas := rfl
  length_distances := rfl
  distinct := by decide
  length_le := by decide

/-- A store whose lexical query fails. -/
def lexicalFailure : StoreAnswers where
  query _ := .ok twoRows.result
  queryLexical _ := .error (.ordinary
    { typeName := "ValueError", text := "", classes := [] } rfl)

def bothArms : HybridSettings where
  hybridRetrievalEnabled := true
  hybridDenseWeight := 1
  hybridLexicalWeight := 1
  hybridRrfK := 60
  hybridMaxTerms := 6
  hybridMinTermLen := 2

theorem retrieve_degrades_lexicalFailure :
    lexicalFailure.outcome (retrieve asciiUnicode true "c" "colour" (some bothArms) 5 none) =
      lexicalFailure.outcome (storeQuery
        { collection := "c", query := "colour", nResults := 5, filter := none }) := by
  apply retrieve_degrades
  · intro settings h
    obtain rfl := Option.some.inj h
    exact ⟨by decide, by decide⟩
  · intro result h
    exact ⟨twoRows, (Except.ok.inj h).symm⟩
  · exact .failed bothArms rfl _ rfl rfl

end

end VirtualContributor.Retrieval
