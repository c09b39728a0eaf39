import Mathlib.Data.List.ReduceOption
import VirtualContributor.Lib.Representatives
import VirtualContributor.Plugins.GuidanceBudget

/-!
# The sources of a guidance answer

Without re-ranking and hybrid retrieval, `GuidancePlugin.handle` merges the rows
of its collections by score and keeps the first row of each source.

* `selectPassages_representatives`: the rows that it keeps are the best ones of
  the best sources.
* `rows_without_source_both_kept`: a row without a source counts as a source of
  its own.
-/

namespace VirtualContributor.Plugins

open Lib Retrieval Messaging

/-! ## Rows -/

/-- A row of a collection, with a numeric distance and a metadata object. -/
structure StoredRow where
  document : String
  distance : Rat
  metadata : Metadata

/-- What the query of a collection came to: a failure, or a result that has
some rows. -/
structure CollectionRows where
  collection : String
  outcome : Except Exc QueryResult
  rows : List StoredRow
  failed : ∀ exc, outcome = .error exc → rows = []
  documents : ∀ result, outcome = .ok result →
    firstRow result.documents = rows.map StoredRow.document
  metadatas : ∀ result, outcome = .ok result →
    firstRow result.metadatas = rows.map StoredRow.metadata
  distances : ∀ result, outcome = .ok result →
    firstRow result.distances = rows.map fun row => some row.distance

/-- The passage of a row, if its source and its title are texts or nothing. -/
def storedPassage (collection : String) (entry : StoredRow × Nat) : Option RankedPassage :=
  (GuidancePlugin.plainSource (dictGet entry.1.metadata "source" (.str collection))
      (dictGet entry.1.metadata "title" .null) (some (1 - entry.1.distance))).toOption.map
    fun source =>
      { rank := entry.2, document := entry.1.document, source, metadata := entry.1.metadata }

/-- The passages that come before the first that there is none of. -/
def untilMissing {α : Type} (passages : List (Option α)) : List α :=
  (passages.takeWhile Option.isSome).reduceOption

/-- The passages that arrive from a collection. -/
def CollectionRows.arrived (c : CollectionRows) : List RankedPassage :=
  untilMissing (c.rows.zipIdx.map (storedPassage c.collection))

/-- The validation of a source accepts texts and nothing. -/
def GuidanceHost.Validates (host : GuidanceHost) : Prop :=
  ∀ url title score, (host.source url title score).toOption =
    (GuidancePlugin.plainSource url title score).toOption

namespace GuidancePlugin

theorem cellOr_of_firstRow {α : Type} {rows : List (List α)} {default : α} {i : Nat} {x : α}
    (h : (firstRow rows)[i]? = some x) : cellOr rows default i = .ok x := by
  cases rows with
  | nil => exact absurd h nofun
  | cons row rows =>
    obtain ⟨hlt, rfl⟩ := List.getElem?_eq_some_iff.mp h
    exact pythonIndex_ofNat hlt

/-- A row of a result becomes its passage, or raises. -/
theorem toOption_rankedPassage {host : GuidanceHost} (hsource : host.Validates)
    {c : CollectionRows} {result : QueryResult} (hresult : c.outcome = .ok result)
    {row : StoredRow} {i : Nat} (hrow : c.rows[i]? = some row) :
    (rankedPassage host c.collection result i row.document).toOption =
      storedPassage c.collection (row, i) := by
  have hdistance : cellOr result.distances (some 1) i = .ok (some row.distance) := by
    apply cellOr_of_firstRow
    rw [c.distances result hresult, List.getElem?_map, hrow]
    rfl
  have hmetadata : cellOr result.metadatas [] i = .ok row.metadata := by
    apply cellOr_of_firstRow
    rw [c.metadatas result hresult, List.getElem?_map, hrow]
    rfl
  unfold rankedPassage storedPassage
  rw [hdistance, hmetadata, ← hsource]
  show ((host.source _ _ (some (1 - row.distance)) >>= fun source => .ok _ :
    Except Exc RankedPassage)).toOption = _
  cases host.source (dictGet row.metadata "source" (.str c.collection))
      (dictGet row.metadata "title" .null) (some (1 - row.distance)) with
  | error exc => rfl
  | ok source => rfl

theorem rankedPassages_eq {host : GuidanceHost} (hsource : host.Validates) {c : CollectionRows}
    {result : QueryResult} (hresult : c.outcome = .ok result) {entries : List (StoredRow × Nat)}
    (h : ∀ e ∈ entries, c.rows[e.2]? = some e.1) :
    rankedPassages host c.collection result (entries.map fun e => (e.1.document, e.2)) =
      untilMissing (entries.map (storedPassage c.collection)) := by
  induction entries with
  | nil => rfl
  | cons e entries ih =>
    obtain ⟨he, hrest⟩ := List.forall_mem_cons.mp h
    have hpassage := toOption_rankedPassage hsource hresult he
    rw [List.map_cons, List.map_cons, rankedPassages]
    cases hranked : rankedPassage host c.collection result e.2 e.1.document with
    | error exc =>
      rw [hranked] at hpassage
      have hnone : storedPassage c.collection e = none := hpassage.symm
      unfold untilMissing
      rw [hnone]
      rfl
    | ok passage =>
      rw [hranked] at hpassage
      have hsome : storedPassage c.collection e = some passage := hpassage.symm
      show passage :: rankedPassages _ _ _ _ = _
      rw [ih hrest, hsome]
      rfl

/-- What arrives from a collection is what the loop over its rows collects. -/
theorem collectionPassages_eq {host : GuidanceHost} (hsource : host.Validates)
    (c : CollectionRows) : collectionPassages host c.collection c.outcome = c.arrived := by
  unfold CollectionRows.arrived
  cases houtcome : c.outcome with
  | error exc =>
    rw [c.failed exc houtcome]
    rfl
  | ok result =>
    unfold collectionPassages
    dsimp only
    rw [c.documents result houtcome, List.zipIdx_map]
    exact rankedPassages_eq hsource houtcome fun e he => List.mem_zipIdx_iff_getElem?.mp he

theorem mem_untilMissing {α : Type} {passages : List (Option α)} {a : α}
    (h : a ∈ untilMissing passages) : some a ∈ passages := by
  unfold untilMissing at h
  exact (List.takeWhile_sublist _).subset (List.reduceOption_mem_iff.mp h)

/-- A passage that arrives has a score. -/
theorem score_of_mem_arrived {c : CollectionRows} {passage : RankedPassage}
    (h : passage ∈ c.arrived) : passage.source.score = some (scoreOrZero passage.source) := by
  obtain ⟨e, _, he⟩ := List.mem_map.mp (mem_untilMissing h)
  unfold storedPassage at he
  obtain ⟨source, hsource, rfl⟩ := Option.map_eq_some_iff.mp he
  unfold plainSource at hsource
  cases hurl : textField (dictGet e.1.metadata "source" (.str c.collection)) with
  | error exc =>
    rw [hurl] at hsource
    exact absurd hsource nofun
  | ok url =>
    cases htitle : textField (dictGet e.1.metadata "title" .null) with
    | error exc =>
      rw [hurl, htitle] at hsource
      exact absurd hsource nofun
    | ok title =>
      rw [hurl, htitle] at hsource
      obtain rfl := Option.some.inj hsource
      rfl

/-! ## Sources -/

/-- The source of a passage that has arrived at some position.  A passage
without one is a source of its own. -/
def sourceOf (arrival : RankedPassage × Nat) : String ⊕ Nat :=
  match arrival.1.source.source with
  | none | some "" => .inr arrival.2
  | some source => .inl source

/-- The key that stands for the source of a passage without one. -/
def placeholder (idx : Nat) : String := s!"__no_source_{idx}__"

theorem placeholder_injective : Function.Injective placeholder := by
  intro i j h
  unfold placeholder at h
  exact natText_injective ((String.append_right_inj _).mp ((String.append_left_inj _).mp h))

/-- No source has the text of a placeholder. -/
def NoPlaceholder (passages : List RankedPassage) : Prop :=
  ∀ passage ∈ passages, ∀ idx, passage.source.source ≠ some (placeholder idx)

theorem sourceKey_cases (passage : RankedPassage) (idx position : Nat) :
    sourceKey passage idx = placeholder idx ∧ sourceOf (passage, position) = .inr position ∨
      ∃ source, passage.source.source = some source ∧ sourceKey passage idx = source ∧
        sourceOf (passage, position) = .inl source := by
  unfold sourceKey sourceOf
  cases passage.source.source with
  | none => exact .inl ⟨rfl, rfl⟩
  | some source =>
    by_cases hempty : source = ""
    · subst hempty
      exact .inl ⟨rfl, rfl⟩
    · right
      refine ⟨source, rfl, ?_, ?_⟩
      · split <;> simp_all
      · split <;> simp_all

/-- Two passages have one key exactly when they have one source. -/
theorem sourceKey_eq_iff {a b : RankedPassage} {i j m n : Nat}
    (ha : ∀ idx, a.source.source ≠ some (placeholder idx))
    (hb : ∀ idx, b.source.source ≠ some (placeholder idx)) (hposition : i = j ↔ m = n) :
    sourceKey a i = sourceKey b j ↔ sourceOf (a, m) = sourceOf (b, n) := by
  obtain ⟨hkey, hof⟩ | ⟨source, hsource, hkey, hof⟩ := sourceKey_cases a i m
  · obtain ⟨hkey', hof'⟩ | ⟨source', hsource', hkey', hof'⟩ := sourceKey_cases b j n
    · rw [hkey, hkey', hof, hof', placeholder_injective.eq_iff, hposition, Sum.inr.injEq]
    · rw [hkey, hkey', hof, hof']
      exact iff_of_false (fun heq => hb i (heq ▸ hsource')) nofun
  · obtain ⟨hkey', hof'⟩ | ⟨source', hsource', hkey', hof'⟩ := sourceKey_cases b j n
    · rw [hkey, hkey', hof, hof']
      exact iff_of_false (fun heq => ha j (heq ▸ hsource)) nofun
    · rw [hkey, hkey', hof, hof', Sum.inl.injEq]

theorem dedupe_eq (seen : List String) (passages : List (RankedPassage × Nat)) :
    dedupe seen passages =
      (firstOfEach (fun e => sourceKey e.1 e.2) seen passages).map Prod.fst := by
  induction passages generalizing seen with
  | nil => rfl
  | cons e passages ih =>
    rw [dedupe, firstOfEach]
    split
    · exact ih seen
    · rw [List.map_cons, ih]

/-- The loop over some arrivals keeps the first of each source. -/
theorem dedupe_arrivals {arrivals : List (RankedPassage × Nat)}
    (hpositions : (arrivals.map Prod.snd).Nodup)
    (hplaceholder : NoPlaceholder (arrivals.map Prod.fst)) :
    dedupe [] (arrivals.map Prod.fst).zipIdx =
      (firstOfEach sourceOf [] arrivals).map Prod.fst := by
  have hsame : ∀ a ∈ arrivals.zipIdx, ∀ b ∈ arrivals.zipIdx,
      (sourceKey a.1.1 a.2 = sourceKey b.1.1 b.2 ↔ sourceOf a.1 = sourceOf b.1) := by
    rintro ⟨⟨a, m⟩, i⟩ ha ⟨⟨b, n⟩, j⟩ hb
    have hi := List.mem_zipIdx_iff_getElem?.mp ha
    have hj := List.mem_zipIdx_iff_getElem?.mp hb
    have hmem : ∀ {c : RankedPassage} {k l : Nat}, arrivals[l]? = some (c, k) →
        c ∈ arrivals.map Prod.fst := fun h =>
      List.mem_map.mpr ⟨_, List.mem_of_getElem? h, rfl⟩
    apply sourceKey_eq_iff (hplaceholder a (hmem hi)) (hplaceholder b (hmem hj))
    constructor
    · rintro rfl
      exact congrArg Prod.snd (Option.some.inj (hi.symm.trans hj))
    · rintro rfl
      have hi' : (arrivals.map Prod.snd)[i]? = some m := by rw [List.getElem?_map, hi]; rfl
      have hj' : (arrivals.map Prod.snd)[j]? = some m := by rw [List.getElem?_map, hj]; rfl
      obtain ⟨hlt, hi'⟩ := List.getElem?_eq_some_iff.mp hi'
      obtain ⟨_, hj'⟩ := List.getElem?_eq_some_iff.mp hj'
      exact (hpositions.getElem_inj_iff).mp (hi'.trans hj'.symm)
  have hcongr := @firstOfEach_congr _ _ _ (fun e : (RankedPassage × Nat) × Nat =>
    sourceKey e.1.1 e.2) _ _ (fun e => sourceOf e.1) [] arrivals.zipIdx hsame
  rw [dedupe_eq, List.zipIdx_map, firstOfEach_map, List.map_map]
  conv_rhs => rw [← List.zipIdx_map_fst 0 arrivals, firstOfEach_map, List.map_map]
  exact congrArg (List.map fun e => e.1.1) hcongr

/-! ## Selection -/

/-- From the highest score down. -/
def descending (passage : RankedPassage) : Rat := -scoreOrZero passage.source

/-- Hybrid retrieval is off. -/
def DenseOnly (plugin : GuidancePlugin) : Prop :=
  ∀ config, plugin.hybridConfig = some config → config.hybridRetrievalEnabled = false

theorem sortPassages_dense {plugin : GuidancePlugin} (h : plugin.DenseOnly)
    (passages : List RankedPassage) :
    plugin.sortPassages passages =
      passages.mergeSort fun a b => decide (descending a ≤ descending b) := by
  unfold sortPassages
  rw [if_neg]
  · rfl
  · cases hconfig : plugin.hybridConfig with
    | none => exact Bool.false_ne_true
    | some config => simp [h config hconfig]

/-- Of passages that all have a score, the best of the best sources are kept. -/
theorem selectPassages_of_scored {plugin : GuidancePlugin} (hreranker : plugin.reranker = none)
    (hdense : plugin.DenseOnly) (question : String) (profile : RetrievalProfile)
    {arrivals : List RankedPassage} (hplaceholder : NoPlaceholder arrivals)
    (hscore : ∀ passage ∈ arrivals, passage.source.score = some (scoreOrZero passage.source)) :
    ∃ kept : List (RankedPassage × Nat),
      plugin.selectPassages question profile arrivals = .ok (kept.map Prod.fst) ∧
        Representatives descending sourceOf profile.nResults
          (fun e => e ∈ arrivals.zipIdx ∧ profile.scoreThreshold ≤ scoreOrZero e.1.source) kept := by
  obtain ⟨placed, hsorted, hperm, hpairwise⟩ := exists_placed descending arrivals
  let passing := placed.filter (passesThreshold profile.scoreThreshold ∘ Prod.fst)
  have hmem : ∀ e, e ∈ passing ↔
      e ∈ arrivals.zipIdx ∧ profile.scoreThreshold ≤ scoreOrZero e.1.source := by
    intro e
    rw [List.mem_filter, hperm.mem_iff, Function.comp_apply]
    apply and_congr_right
    intro he
    unfold passesThreshold
    rw [hscore e.1 (List.fst_mem_of_mem_zipIdx he)]
    exact decide_eq_true_iff
  have hpositions : (passing.map Prod.snd).Nodup :=
    (((hperm.map Prod.snd).nodup_iff.mpr (nodup_positions arrivals)).sublist
      ((List.filter_sublist).map Prod.snd))
  have hnone : NoPlaceholder (passing.map Prod.fst) := by
    intro passage hpassage
    obtain ⟨e, he, rfl⟩ := List.mem_map.mp hpassage
    exact hplaceholder e.1 (List.fst_mem_of_mem_zipIdx ((hmem e).mp he).1)
  have hselected : plugin.selectPassages question profile arrivals =
      .ok (((firstOfEach sourceOf [] passing).take profile.nResults).map Prod.fst) := by
    unfold selectPassages rerankPassages
    rw [hreranker, sortPassages_dense hdense, ← hsorted]
    show Except.ok ((dedupe [] ((placed.map Prod.fst).filter _).zipIdx).take profile.nResults) = _
    rw [List.filter_map, dedupe_arrivals hpositions hnone, List.map_take]
  refine ⟨_, hselected, ?_⟩
  have hpassing : passing.Pairwise (Precedes descending) := hpairwise.sublist List.filter_sublist
  have hcandidates : Representatives descending sourceOf profile.nResults (· ∈ passing)
      ((firstOfEach sourceOf [] passing).take profile.nResults) :=
    representatives_take hpassing profile.nResults
  exact ⟨fun e he => (hmem e).mp (hcandidates.candidates e he), hcandidates.sorted,
    hcandidates.distinct, fun e he f hf => hcandidates.best e he f ((hmem f).mpr hf),
    fun f hf => hcandidates.highest f ((hmem f).mpr hf), hcandidates.count⟩

/-- Without re-ranking and hybrid retrieval, the rows that are kept before the
budget are the best rows of the best sources, in descending order of their
scores and, for equal scores, in the order in which they arrived. -/
theorem selectPassages_representatives (host : GuidanceHost) (plugin : GuidancePlugin)
    (question : String) (profile : RetrievalProfile) (collections : List CollectionRows)
    (hsource : host.Validates) (hreranker : plugin.reranker = none) (hdense : plugin.DenseOnly)
    (hplaceholder : NoPlaceholder (collections.flatMap CollectionRows.arrived)) :
    let arrivals := collections.flatMap CollectionRows.arrived
    ∃ kept : List (RankedPassage × Nat),
      plugin.selectPassages question profile
          (collections.flatMap fun c => collectionPassages host c.collection c.outcome) =
        .ok (kept.map Prod.fst) ∧
      Representatives descending sourceOf profile.nResults
        (fun e => e ∈ arrivals.zipIdx ∧ profile.scoreThreshold ≤ scoreOrZero e.1.source) kept := by
  intro arrivals
  have harrivals :
      collections.flatMap (fun c => collectionPassages host c.collection c.outcome) = arrivals :=
    congrArg collections.flatMap (funext fun c => collectionPassages_eq hsource c)
  rw [harrivals]
  apply selectPassages_of_scored hreranker hdense question profile hplaceholder
  intro passage hpassage
  obtain ⟨c, _, hc⟩ := List.mem_flatMap.mp hpassage
  exact score_of_mem_arrived hc

/-- A collection that returns one row for each source and distance. -/
def collectionOf (collection : String) (sources : List (Json × Rat)) : CollectionRows where
  collection := collection
  outcome := .ok {
    documents := [sources.map fun _ => "x"]
    metadatas := [sources.map fun e => [("source", e.1)]]
    distances := [sources.map fun e => some e.2]
    ids := [sources.map fun _ => "i"] }
  rows := sources.map fun e => ⟨"x", e.2, [("source", e.1)]⟩
  failed := nofun
  documents := by
    intro result h
    obtain rfl := Except.ok.inj h
    rw [List.map_map]
    rfl
  metadatas := by
    intro result h
    obtain rfl := Except.ok.inj h
    rw [List.map_map]
    rfl
  distances := by
    intro result h
    obtain rfl := Except.ok.inj h
    rw [List.map_map]
    rfl

/-- Two sources in two collections. -/
def twoSources : List CollectionRows :=
  [collectionOf "c" [(.str "a", 1 / 5), (.str "a", 1 / 10)],
    collectionOf "d" [(.str "b", 3 / 20)]]

theorem length_placeholder (idx : Nat) : 1 < (placeholder idx).length := by
  have hlong : 1 < (toString "__no_source_").length := by decide
  unfold placeholder
  rw [String.length_append, String.length_append]
  exact Nat.lt_of_lt_of_le hlong (by omega)

theorem selectPassages_representatives_two :
    let arrivals := twoSources.flatMap CollectionRows.arrived
    ∃ kept : List (RankedPassage × Nat),
      ({} : GuidancePlugin).selectPassages "x" threePagesProfile
          (twoSources.flatMap fun c => collectionPassages threePagesHost c.collection c.outcome) =
        .ok (kept.map Prod.fst) ∧
      Representatives descending sourceOf 5
        (fun e => e ∈ arrivals.zipIdx ∧ 3 / 10 ≤ scoreOrZero e.1.source) kept := by
  refine selectPassages_representatives threePagesHost {} "x" threePagesProfile twoSources
    (fun _ _ _ => rfl) rfl nofun ?_
  have hshort : ∀ passage ∈ twoSources.flatMap CollectionRows.arrived,
      passage.source.source.all (fun source => decide (source.length ≤ 1)) = true := by
    decide +kernel
  intro passage hpassage idx hidx
  have hlength := hshort passage hpassage
  rw [hidx] at hlength
  exact absurd (length_placeholder idx) (Nat.not_lt.mpr (of_decide_eq_true hlength))

/-- Two rows without a source. -/
def noSources : List CollectionRows := [collectionOf "c" [(.str "", 1 / 10), (.str "", 1 / 5)]]

/-- A row whose source is a number, and a row behind it. -/
def numericSource : List CollectionRows :=
  [collectionOf "c" [(.int 5, 1 / 10), (.str "a", 1 / 5)]]

theorem selectPassages_noSources :
    ({} : GuidancePlugin).selectPassages "x" threePagesProfile
        (noSources.flatMap CollectionRows.arrived) =
      .ok (noSources.flatMap CollectionRows.arrived) := by
  have hsorted : ({} : GuidancePlugin).sortPassages (noSources.flatMap CollectionRows.arrived) =
      noSources.flatMap CollectionRows.arrived := by
    apply List.mergeSort_of_pairwise
    decide +kernel
  have hpassing : (noSources.flatMap CollectionRows.arrived).filter (passesThreshold (3 / 10)) =
      noSources.flatMap CollectionRows.arrived := by
    apply List.filter_eq_self.mpr
    decide +kernel
  unfold selectPassages
  rw [hsorted]
  show Except.ok ((dedupe []
    ((noSources.flatMap CollectionRows.arrived).filter (passesThreshold (3 / 10))).zipIdx).take 5) = _
  rw [hpassing]
  rfl

/-- Two rows without a source are both kept, though their source is the same
text, and a row is lost behind one whose source is not a text. -/
theorem rows_without_source_both_kept :
    (¬∃ kept : List (RankedPassage × Nat),
        ({} : GuidancePlugin).selectPassages "x" threePagesProfile
            (noSources.flatMap fun c => collectionPassages threePagesHost c.collection c.outcome) =
          .ok (kept.map Prod.fst) ∧
        Representatives descending (fun e => e.1.source.source) 5
          (fun e => e ∈ (noSources.flatMap CollectionRows.arrived).zipIdx ∧
            3 / 10 ≤ scoreOrZero e.1.source) kept) ∧
      ({} : GuidancePlugin).selectPassages "x" threePagesProfile
          (numericSource.flatMap fun c =>
            collectionPassages threePagesHost c.collection c.outcome) =
        .ok [] := by
  constructor
  · rintro ⟨kept, hkept, hrepresentatives⟩
    have hmap : kept.map Prod.fst = noSources.flatMap CollectionRows.arrived :=
      Except.ok.inj (hkept.symm.trans selectPassages_noSources)
    have hsources : kept.map (fun e => e.1.source.source) = [some "", some ""] := by
      have hmap' := congrArg (List.map fun passage => passage.source.source) hmap
      rw [List.map_map] at hmap'
      exact hmap'.trans (by decide +kernel)
    have hdistinct := List.pairwise_map.mpr hrepresentatives.distinct
    rw [hsources] at hdistinct
    exact absurd hdistinct (by decide)
  · have hlost : numericSource.flatMap (fun c =>
        collectionPassages threePagesHost c.collection c.outcome) = [] := rfl
    have hdense : ({} : GuidancePlugin).DenseOnly := nofun
    have hsorted : ({} : GuidancePlugin).sortPassages [] = [] := by
      rw [sortPassages_dense hdense, List.mergeSort_nil]
    rw [hlost]
    unfold selectPassages
    rw [hsorted]
    rfl

end GuidancePlugin

end VirtualContributor.Plugins
