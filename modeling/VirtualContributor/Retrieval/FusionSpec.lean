import Mathlib.Algebra.Field.Rat
import Mathlib.Algebra.Order.Ring.Rat
import VirtualContributor.Lib.Ranking
import VirtualContributor.Retrieval.RankFusion

/-!
# What rank fusion returns

`standing` orders the documents of several arms: by fused score, then by their
rank in the dense arm, then by the best rank in another arm, then by id.
`reciprocal_rank_fusion` returns the first documents in that order, each with
the text, the metadata and the distance of its own row
(`reciprocalRankFusion_spec`).

The loop over the arms fills three dictionaries.  A row of an arm updates the
value of its own document and no other, so a value at the end is a fold over
the arms that have the document (`Fusion.getD_scores`, `Fusion.getD_ranks`,
`Fusion.getD_payload`).
-/

namespace VirtualContributor.Retrieval

open Lib

/-! ## The order of the documents -/

/-- The rankings of the arms, with their weights. -/
def rankings (arms : List QueryResult) (weights : List Rat) : List (List String × Rat) :=
  (arms.zip weights).map fun e => (firstRow e.1.ids, e.2)

def armRank (id : String) (arm : QueryResult) : ArmRank := rank (firstRow arm.ids) id

/-- The rank in the dense arm. -/
def denseRank : List QueryResult → String → ArmRank
  | [], _ => ⊤
  | dense :: _, id => armRank id dense

/-- The best rank in the other arms. -/
def bestOtherRank (arms : List QueryResult) (id : String) : ArmRank :=
  (arms.tail.map (armRank id)).foldr min ⊤

/-- The place of a document in the order: the smaller, the earlier. -/
def standing (arms : List QueryResult) (weights : List Rat) (k : Nat) (id : String) :
    Rat ×ₗ ArmRank ×ₗ ArmRank ×ₗ String :=
  toLex (-fusedScore k (rankings arms weights) id,
    toLex (denseRank arms id, toLex (bestOtherRank arms id, id)))

/-- The documents of all arms. -/
def unionIds (arms : List QueryResult) : OrderedSet String :=
  .ofList (arms.flatMap fun arm => firstRow arm.ids)

/-! ## The rows of the documents -/

/-- The row of an arm for a document. -/
def reported (id : String) (arm : QueryResult) : Payload :=
  if id ∈ firstRow arm.ids then Fusion.rowAt arm ((firstRow arm.ids).idxOf id) else {}

/-- The first text that an arm reports. -/
def documentOf (arms : List QueryResult) (id : String) : String :=
  ((arms.map fun arm => (reported id arm).document).find? (· ≠ "")).getD ""

/-- The first metadata that an arm reports. -/
def metadataOf (arms : List QueryResult) (id : String) : Metadata :=
  ((arms.map fun arm => (reported id arm).metadata).find? (!·.isEmpty)).getD []

/-- The distance that the dense arm reports. -/
def distanceOf : List QueryResult → String → Option Rat
  | [], _ => none
  | dense :: _, id => (reported id dense).distance

/-- The result of some documents, row by row. -/
def resultOf (arms : List QueryResult) (ids : List String) : QueryResult where
  documents := [ids.map (documentOf arms)]
  metadatas := [ids.map (metadataOf arms)]
  distances := [ids.map (distanceOf arms)]
  ids := [ids]

/-- The candidate of a document. -/
def fusedCandidate (arms : List QueryResult) (weights : List Rat) (k : Nat) (id : String) :
    Candidate where
  docId := id
  score := fusedScore k (rankings arms weights) id
  denseRank := denseRank arms id
  lexicalRank := bestOtherRank arms id
  document := documentOf arms id
  metadata := metadataOf arms id
  distance := distanceOf arms id

/-! ## The loop over the arms -/

namespace Fusion

/-- A row of an arm, which comes with its weight and its index. -/
structure ArmRow where
  entry : (QueryResult × Rat) × Nat
  docId : String
  rank : Nat

/-- The rows of an arm. -/
def armRows (entry : (QueryResult × Rat) × Nat) : List ArmRow :=
  (firstRow entry.1.1.ids).zipIdx.map fun e => ⟨entry, e.1, e.2⟩

/-- What a row does to the score, the ranks and the payload of its document. -/
def scoreStep (k : Nat) (row : ArmRow) (score : Rat) : Rat :=
  score + row.entry.1.2 / ((k + row.rank + 1 : Nat) : Rat)

def rankStep (row : ArmRow) (perArm : OrderedDict Nat Nat) : OrderedDict Nat Nat :=
  perArm.set row.entry.2 row.rank

def payloadStep (row : ArmRow) (existing : Payload) : Payload :=
  mergePayload existing row.entry.2 (rowAt row.entry.1.1 row.rank)

/-- A row, in the three dictionaries. -/
def step (k : Nat) (fusion : Fusion) (row : ArmRow) : Fusion where
  scores := fusion.scores.modify ArmRow.docId (scoreStep k) 0 row
  ranks := fusion.ranks.modify ArmRow.docId rankStep .empty row
  payload := fusion.payload.modify ArmRow.docId payloadStep {} row

theorem foldl_addArm (k : Nat) (entries : List ((QueryResult × Rat) × Nat)) (fusion : Fusion) :
    entries.foldl (addArm k) fusion = (entries.flatMap armRows).foldl (step k) fusion := by
  rw [List.foldl_flatMap]
  congr 1
  funext fusion entry
  unfold armRows
  rw [List.foldl_map]
  rfl

theorem foldl_step (k : Nat) (rows : List ArmRow) (fusion : Fusion) :
    rows.foldl (step k) fusion =
      { scores := rows.foldl (OrderedDict.modify ArmRow.docId (scoreStep k) 0) fusion.scores
        ranks := rows.foldl (OrderedDict.modify ArmRow.docId rankStep .empty) fusion.ranks
        payload := rows.foldl (OrderedDict.modify ArmRow.docId payloadStep {}) fusion.payload } := by
  induction rows generalizing fusion with
  | nil => rfl
  | cons row rows ih => exact ih _

/-- The row of a document in an arm that has it. -/
def documentRow (id : String) (entry : (QueryResult × Rat) × Nat) : ArmRow :=
  ⟨entry, id, (firstRow entry.1.1.ids).idxOf id⟩

/-- The rows of a document, one for each arm that has it. -/
def documentRows (id : String) (entries : List ((QueryResult × Rat) × Nat)) : List ArmRow :=
  (entries.filter fun entry => id ∈ firstRow entry.1.1.ids).map (documentRow id)

theorem documentRows_cons_of_mem {id : String} {entry : (QueryResult × Rat) × Nat}
    (h : id ∈ firstRow entry.1.1.ids) (entries : List ((QueryResult × Rat) × Nat)) :
    documentRows id (entry :: entries) = documentRow id entry :: documentRows id entries := by
  unfold documentRows
  rw [List.filter_cons, if_pos (decide_eq_true h), List.map_cons]

theorem documentRows_cons_of_not_mem {id : String} {entry : (QueryResult × Rat) × Nat}
    (h : id ∉ firstRow entry.1.1.ids) (entries : List ((QueryResult × Rat) × Nat)) :
    documentRows id (entry :: entries) = documentRows id entries := by
  unfold documentRows
  rw [List.filter_cons, if_neg (by simpa using h)]

theorem filter_armRows {entries : List ((QueryResult × Rat) × Nat)}
    (hnodup : ∀ entry ∈ entries, (firstRow entry.1.1.ids).Nodup) (id : String) :
    (entries.flatMap armRows).filter (·.docId = id) = documentRows id entries := by
  induction entries with
  | nil => rfl
  | cons entry entries ih =>
    obtain ⟨hentry, hentries⟩ := List.forall_mem_cons.mp hnodup
    have hrows : (armRows entry).filter (·.docId = id) =
        ((firstRow entry.1.1.ids).zipIdx.filter (fun e => e.1 = id)).map
          fun e => ⟨entry, e.1, e.2⟩ := List.filter_map
    rw [List.flatMap_cons, List.filter_append, ih hentries, hrows, filter_zipIdx_eq hentry]
    by_cases hmem : id ∈ firstRow entry.1.1.ids
    · rw [if_pos hmem, documentRows_cons_of_mem hmem, Nat.zero_add]
      rfl
    · rw [if_neg hmem, documentRows_cons_of_not_mem hmem]
      rfl

/-! ### The score -/

theorem foldl_scoreStep (k : Nat) (id : String) (arms : List (QueryResult × Rat)) (n : Nat)
    (score : Rat) :
    (documentRows id (arms.zipIdx n)).foldl (fun score row => scoreStep k row score) score =
      score + fusedScore k (arms.map fun e => (firstRow e.1.ids, e.2)) id := by
  induction arms generalizing n score with
  | nil => exact (add_zero score).symm
  | cons arm arms ih =>
    have hsum : fusedScore k ((arm :: arms).map fun e => (firstRow e.1.ids, e.2)) id =
        arm.2 * reciprocal k (rank (firstRow arm.1.ids) id) +
          fusedScore k (arms.map fun e => (firstRow e.1.ids, e.2)) id := rfl
    rw [List.zipIdx_cons, hsum, ← add_assoc]
    by_cases hmem : id ∈ firstRow arm.1.ids
    · rw [documentRows_cons_of_mem hmem, List.foldl_cons, ih, rank_of_mem hmem, reciprocal_coe,
        mul_one_div]
      rfl
    · rw [documentRows_cons_of_not_mem hmem, ih, rank_of_not_mem hmem, reciprocal_top, mul_zero,
        add_zero]

/-! ### The ranks -/

/-- The ranks of a document, with the indices of the arms. -/
def indexedRanks (id : String) (arms : List (QueryResult × Rat)) (n : Nat) : List (Nat × Nat) :=
  (documentRows id (arms.zipIdx n)).map fun row => (row.entry.2, row.rank)

theorem le_of_mem_indexedRanks {id : String} {arms : List (QueryResult × Rat)} {n : Nat}
    {e : Nat × Nat} (h : e ∈ indexedRanks id arms n) : n ≤ e.1 := by
  obtain ⟨row, hrow, rfl⟩ := List.mem_map.mp h
  obtain ⟨entry, hentry, rfl⟩ := List.mem_map.mp hrow
  exact List.le_snd_of_mem_zipIdx (List.mem_filter.mp hentry).1

theorem nodup_indexedRanks (id : String) (arms : List (QueryResult × Rat)) (n : Nat) :
    ((indexedRanks id arms n).map Prod.fst).Nodup := by
  have hindices : (indexedRanks id arms n).map Prod.fst =
      ((arms.zipIdx n).filter fun entry => id ∈ firstRow entry.1.1.ids).map Prod.snd := by
    simp only [indexedRanks, documentRows, List.map_map]
    rfl
  have hsublist := (List.filter_sublist (p := fun entry : (QueryResult × Rat) × Nat =>
    id ∈ firstRow entry.1.1.ids) (l := arms.zipIdx n)).map Prod.snd
  rw [hindices]
  apply hsublist.nodup
  rw [List.zipIdx_map_snd]
  exact List.nodup_range'

theorem entries_foldl_rankStep (id : String) (arms : List (QueryResult × Rat)) :
    ((documentRows id arms.zipIdx).foldl (fun perArm row => rankStep row perArm) .empty).entries =
      indexedRanks id arms 0 := by
  have hset : (documentRows id arms.zipIdx).foldl (fun perArm row => rankStep row perArm) .empty =
      OrderedDict.empty.setAll (indexedRanks id arms 0) := by
    unfold indexedRanks OrderedDict.setAll
    rw [List.foldl_map]
    rfl
  rw [hset, OrderedDict.entries_setAll_of_new (nodup_indexedRanks id arms 0) fun _ _ => rfl]
  rfl

theorem foldr_min_indexedRanks (id : String) (arms : List (QueryResult × Rat)) (n : Nat) :
    ((indexedRanks id arms n).map fun e => WithTop.some e.2).foldr min (⊤ : ArmRank) =
      ((arms.map Prod.fst).map (armRank id)).foldr min ⊤ := by
  induction arms generalizing n with
  | nil => rfl
  | cons arm arms ih =>
    unfold indexedRanks
    rw [List.zipIdx_cons, List.map_cons, List.map_cons, List.foldr_cons, ← ih (n + 1)]
    by_cases hmem : id ∈ firstRow arm.1.ids
    · rw [documentRows_cons_of_mem hmem, armRank, rank_of_mem hmem]
      rfl
    · rw [documentRows_cons_of_not_mem hmem, armRank, rank_of_not_mem hmem, top_inf_eq]
      rfl

/-- The indices of the arms beside the dense one. -/
theorem ne_of_mem_indexedRanks {id : String} {arms : List (QueryResult × Rat)} {e : Nat × Nat}
    (h : e ∈ indexedRanks id arms 1) : e.1 ≠ DENSE_ARM :=
  Nat.one_le_iff_ne_zero.mp (le_of_mem_indexedRanks h)

theorem indexedRanks_cons (id : String) (arm : QueryResult × Rat)
    (arms : List (QueryResult × Rat)) :
    indexedRanks id (arm :: arms) 0 =
      (if id ∈ firstRow arm.1.ids then [(DENSE_ARM, (firstRow arm.1.ids).idxOf id)] else []) ++
        indexedRanks id arms 1 := by
  unfold indexedRanks
  rw [List.zipIdx_cons]
  by_cases hmem : id ∈ firstRow arm.1.ids
  · rw [documentRows_cons_of_mem hmem, if_pos hmem]
    rfl
  · rw [documentRows_cons_of_not_mem hmem, if_neg hmem]
    rfl

theorem lookup_indexedRanks (id : String) (arms : List (QueryResult × Rat)) :
    (((indexedRanks id arms 0).lookup DENSE_ARM).map WithTop.some).getD (⊤ : ArmRank) =
      denseRank (arms.map Prod.fst) id := by
  cases arms with
  | nil => rfl
  | cons arm arms =>
    have hdense : denseRank ((arm :: arms).map Prod.fst) id = rank (firstRow arm.1.ids) id := rfl
    rw [indexedRanks_cons, hdense]
    by_cases hmem : id ∈ firstRow arm.1.ids
    · rw [if_pos hmem, rank_of_mem hmem]
      rfl
    · have hnone : (indexedRanks id arms 1).lookup DENSE_ARM = none := by
        rw [List.lookup_eq_none_iff]
        intro e he
        exact bne_iff_ne.mpr (ne_of_mem_indexedRanks he).symm
      rw [if_neg hmem, rank_of_not_mem hmem, List.nil_append, hnone]
      rfl

theorem foldr_min_filter_indexedRanks (id : String) (arms : List (QueryResult × Rat)) :
    (((indexedRanks id arms 0).filter (·.1 ≠ DENSE_ARM)).map fun e => WithTop.some e.2).foldr min
      (⊤ : ArmRank) = bestOtherRank (arms.map Prod.fst) id := by
  cases arms with
  | nil => rfl
  | cons arm arms =>
    have hothers : (indexedRanks id arms 1).filter (·.1 ≠ DENSE_ARM) = indexedRanks id arms 1 :=
      List.filter_eq_self.mpr fun e he => decide_eq_true (ne_of_mem_indexedRanks he)
    have hdense : (if id ∈ firstRow arm.1.ids then
        [(DENSE_ARM, (firstRow arm.1.ids).idxOf id)] else []).filter (·.1 ≠ DENSE_ARM) = [] := by
      split <;> rfl
    rw [indexedRanks_cons, List.filter_append, hothers, hdense, List.nil_append,
      foldr_min_indexedRanks]
    rfl

/-! ### The payload -/

theorem reported_of_mem {id : String} {arm : QueryResult} (h : id ∈ firstRow arm.ids) :
    reported id arm = rowAt arm ((firstRow arm.ids).idxOf id) := if_pos h

theorem reported_of_not_mem {id : String} {arm : QueryResult} (h : id ∉ firstRow arm.ids) :
    reported id arm = {} := if_neg h

/-- The loop that keeps the first value which is not empty. -/
theorem foldl_firstNonempty {α : Type} (isEmpty : α → Bool) {z : α}
    (hz : ∀ x, isEmpty x = true → x = z) (xs : List α) (v : α) :
    xs.foldl (fun v x => if isEmpty v = true then x else v) v =
      if isEmpty v = true then (xs.find? fun x => !isEmpty x).getD z else v := by
  induction xs generalizing v with
  | nil =>
    show v = _
    split
    · rename_i hv
      exact hz v hv
    · rfl
  | cons x xs ih =>
    rw [List.foldl_cons, ih, List.find?_cons]
    by_cases hv : isEmpty v = true
    · rw [if_pos hv, if_pos hv]
      by_cases hx : isEmpty x = true
      · rw [if_pos hx, hx]
        rfl
      · rw [if_neg hx, Bool.eq_false_iff.mpr hx]
        rfl
    · rw [if_neg hv, if_neg hv, if_neg hv]

theorem document_foldl_payloadStep (id : String) (arms : List (QueryResult × Rat)) (n : Nat)
    (payload : Payload) :
    ((documentRows id (arms.zipIdx n)).foldl (fun payload row => payloadStep row payload)
        payload).document =
      ((arms.map Prod.fst).map fun arm => (reported id arm).document).foldl
        (fun v x => if decide (v = "") = true then x else v) payload.document := by
  induction arms generalizing n payload with
  | nil => rfl
  | cons arm arms ih =>
    rw [List.zipIdx_cons, List.map_cons, List.map_cons, List.foldl_cons]
    by_cases hmem : id ∈ firstRow arm.1.ids
    · rw [documentRows_cons_of_mem hmem, List.foldl_cons, ih, reported_of_mem hmem]
      simp only [decide_eq_true_eq]
      rfl
    · rw [documentRows_cons_of_not_mem hmem, ih, reported_of_not_mem hmem]
      congr 1
      by_cases hempty : payload.document = ""
      · rw [if_pos (decide_eq_true hempty), hempty]
      · rw [if_neg (by simpa using hempty)]

theorem metadata_foldl_payloadStep (id : String) (arms : List (QueryResult × Rat)) (n : Nat)
    (payload : Payload) :
    ((documentRows id (arms.zipIdx n)).foldl (fun payload row => payloadStep row payload)
        payload).metadata =
      ((arms.map Prod.fst).map fun arm => (reported id arm).metadata).foldl
        (fun v x => if v.isEmpty = true then x else v) payload.metadata := by
  induction arms generalizing n payload with
  | nil => rfl
  | cons arm arms ih =>
    rw [List.zipIdx_cons, List.map_cons, List.map_cons, List.foldl_cons]
    by_cases hmem : id ∈ firstRow arm.1.ids
    · rw [documentRows_cons_of_mem hmem, List.foldl_cons, ih, reported_of_mem hmem]
      rfl
    · rw [documentRows_cons_of_not_mem hmem, ih, reported_of_not_mem hmem]
      congr 1
      by_cases hempty : payload.metadata.isEmpty = true
      · rw [if_pos hempty]
        exact List.isEmpty_iff.mp hempty
      · rw [if_neg hempty]

/-- Arms beside the dense one leave the distance. -/
theorem distance_foldl_payloadStep (id : String) (arms : List (QueryResult × Rat)) {n : Nat}
    (hn : n ≠ DENSE_ARM) (payload : Payload) :
    ((documentRows id (arms.zipIdx n)).foldl (fun payload row => payloadStep row payload)
        payload).distance = payload.distance := by
  induction arms generalizing n payload with
  | nil => rfl
  | cons arm arms ih =>
    rw [List.zipIdx_cons]
    by_cases hmem : id ∈ firstRow arm.1.ids
    · rw [documentRows_cons_of_mem hmem, List.foldl_cons, ih (Nat.succ_ne_zero n)]
      exact if_neg hn
    · rw [documentRows_cons_of_not_mem hmem, ih (Nat.succ_ne_zero n)]

theorem distance_foldl_payload (id : String) (arms : List (QueryResult × Rat)) :
    ((documentRows id arms.zipIdx).foldl (fun payload row => payloadStep row payload)
        {}).distance = distanceOf (arms.map Prod.fst) id := by
  cases arms with
  | nil => rfl
  | cons arm arms =>
    have hdense : distanceOf ((arm :: arms).map Prod.fst) id = (reported id arm.1).distance := rfl
    rw [List.zipIdx_cons, hdense]
    by_cases hmem : id ∈ firstRow arm.1.ids
    · rw [documentRows_cons_of_mem hmem, List.foldl_cons,
        distance_foldl_payloadStep id arms (by decide), reported_of_mem hmem]
      rfl
    · rw [documentRows_cons_of_not_mem hmem, distance_foldl_payloadStep id arms (by decide),
        reported_of_not_mem hmem]

/-! ### The candidates -/

/-- The three dictionaries after the loop over the arms. -/
def ofArms (arms : List QueryResult) (weights : List Rat) (k : Nat) : Fusion :=
  (arms.zip weights).zipIdx.foldl (addArm k) {}

variable {arms : List QueryResult} {weights : List Rat} {k : Nat}

/-- A document's value after the loop: its rows, one after the other. -/
theorem getD_modify {ν : Type} (step : ArmRow → ν → ν) (start : ν)
    (hnodup : ∀ arm ∈ arms, (firstRow arm.ids).Nodup) (id : String) :
    ((((arms.zip weights).zipIdx.flatMap armRows).foldl
      (OrderedDict.modify ArmRow.docId step start) .empty).get? id).getD start =
      (documentRows id (arms.zip weights).zipIdx).foldl (fun v row => step row v) start := by
  have hentries : ∀ entry ∈ (arms.zip weights).zipIdx, (firstRow entry.1.1.ids).Nodup := by
    intro entry hmem
    exact hnodup _ (List.of_mem_zip (List.fst_mem_of_mem_zipIdx hmem)).1
  rw [OrderedDict.getD_foldl_modify, filter_armRows hentries]
  rfl

theorem scores_ofArms : (ofArms arms weights k).scores =
    ((arms.zip weights).zipIdx.flatMap armRows).foldl
      (OrderedDict.modify ArmRow.docId (scoreStep k) 0) .empty := by
  unfold ofArms
  rw [foldl_addArm, foldl_step]

theorem ranks_ofArms : (ofArms arms weights k).ranks =
    ((arms.zip weights).zipIdx.flatMap armRows).foldl
      (OrderedDict.modify ArmRow.docId rankStep .empty) .empty := by
  unfold ofArms
  rw [foldl_addArm, foldl_step]

theorem payload_ofArms : (ofArms arms weights k).payload =
    ((arms.zip weights).zipIdx.flatMap armRows).foldl
      (OrderedDict.modify ArmRow.docId payloadStep {}) .empty := by
  unfold ofArms
  rw [foldl_addArm, foldl_step]

theorem keys_scores_ofArms (hparallel : weights.length = arms.length) :
    (ofArms arms weights k).scores.keys = unionIds arms := by
  have hrows : ((arms.zip weights).zipIdx.flatMap armRows).map ArmRow.docId =
      ((arms.zip weights).zipIdx.map fun entry => entry.1.1).flatMap
        fun arm => firstRow arm.ids := by
    rw [List.map_flatMap, List.flatMap_map]
    congr 1
    funext entry
    unfold armRows
    rw [List.map_map]
    exact List.zipIdx_map_fst 0 _
  have harms : ((arms.zip weights).zipIdx.map fun entry => entry.1.1) = arms := by
    have hsplit : ((arms.zip weights).zipIdx.map fun entry => entry.1.1) =
        ((arms.zip weights).zipIdx.map Prod.fst).map Prod.fst := by
      rw [List.map_map]
      rfl
    rw [hsplit, List.zipIdx_map_fst, List.map_fst_zip hparallel.ge]
  rw [scores_ofArms, OrderedDict.keys_foldl_modify, hrows, harms]
  rfl

/-- The loop gives each document the standing and the row that the arms give
it. -/
theorem candidate_ofArms (hparallel : weights.length = arms.length)
    (hnodup : ∀ arm ∈ arms, (firstRow arm.ids).Nodup) {entry : String × Rat}
    (hmem : entry ∈ (ofArms arms weights k).scores.entries) :
    (ofArms arms weights k).candidate entry = fusedCandidate arms weights k entry.1 := by
  have harms : (arms.zip weights).map Prod.fst = arms := List.map_fst_zip hparallel.ge
  have hscore : entry.2 = fusedScore k (rankings arms weights) entry.1 := by
    have hget := OrderedDict.mem_entries.mp hmem
    have hfold := @getD_modify arms weights _ (scoreStep k) 0 hnodup entry.1
    rw [← scores_ofArms, hget, foldl_scoreStep, zero_add] at hfold
    exact hfold
  have hranks : (((ofArms arms weights k).ranks.get? entry.1).getD .empty).entries =
      indexedRanks entry.1 (arms.zip weights) 0 := by
    rw [ranks_ofArms, getD_modify rankStep .empty hnodup, entries_foldl_rankStep]
  have hpayload := @getD_modify arms weights _ payloadStep {} hnodup entry.1
  rw [← payload_ofArms (k := k)] at hpayload
  have hdocument := document_foldl_payloadStep entry.1 (arms.zip weights) 0 {}
  rw [foldl_firstNonempty (fun v : String => decide (v = "")) fun _ => of_decide_eq_true,
    harms] at hdocument
  have hmetadata := metadata_foldl_payloadStep entry.1 (arms.zip weights) 0 {}
  rw [foldl_firstNonempty List.isEmpty fun _ => List.isEmpty_iff.mp, harms] at hmetadata
  have hdense := lookup_indexedRanks entry.1 (arms.zip weights)
  have hothers := foldr_min_filter_indexedRanks entry.1 (arms.zip weights)
  rw [harms] at hdense hothers
  have hdistance := distance_foldl_payload entry.1 (arms.zip weights)
  rw [harms] at hdistance
  unfold candidate fusedCandidate
  rw [Candidate.mk.injEq]
  refine ⟨rfl, hscore, ?_, ?_, ?_, ?_, ?_⟩
  · rw [← hdense, ← hranks]
    show _ = (((((ofArms arms weights k).ranks.get? entry.1).getD .empty).get? DENSE_ARM).map
      WithTop.some).getD ⊤
    cases (((ofArms arms weights k).ranks.get? entry.1).getD .empty).get? DENSE_ARM with
    | none => rfl
    | some r => rfl
  · rw [← hranks] at hothers
    exact hothers
  · rw [hpayload, hdocument, if_pos (decide_eq_true rfl)]
    simp only [documentOf, decide_not]
  · rw [hpayload, hmetadata]
    rfl
  · rw [hpayload, hdistance]

end Fusion

/-! ## The result -/

section

variable {arms : List QueryResult} {weights : List Rat} {k : Nat}

theorem mem_unionIds {id : String} :
    id ∈ unionIds arms ↔ ∃ arm ∈ arms, id ∈ firstRow arm.ids := by
  unfold unionIds
  rw [OrderedSet.mem_ofList, List.mem_flatMap]

/-- The documents of all arms, in order. -/
def fusedOrder (arms : List QueryResult) (weights : List Rat) (k : Nat) : List String :=
  (unionIds arms).toList.mergeSort
    fun a b => standing arms weights k a ≤ standing arms weights k b

/-- The id is part of the standing. -/
theorem standing_injective : Function.Injective (standing arms weights k) := by
  intro a b h
  have hrest := (Prod.mk.inj (toLex.injective h)).2
  have hother := (Prod.mk.inj (toLex.injective hrest)).2
  exact (Prod.mk.inj (toLex.injective hother)).2

theorem pairwise_fusedOrder :
    (fusedOrder arms weights k).Pairwise
      fun a b => standing arms weights k a < standing arms weights k b := by
  have hsorted : (fusedOrder arms weights k).Pairwise
      fun a b => decide (standing arms weights k a ≤ standing arms weights k b) = true := by
    apply List.pairwise_mergeSort
    · intro a b c hab hbc
      exact decide_eq_true ((of_decide_eq_true hab).trans (of_decide_eq_true hbc))
    · intro a b
      rw [Bool.or_eq_true, decide_eq_true_iff, decide_eq_true_iff]
      exact le_total _ _
  have hnodup : (fusedOrder arms weights k).Nodup :=
    (List.mergeSort_perm _ _).nodup_iff.mpr (unionIds arms).nodup
  apply (hsorted.and hnodup).imp
  intro a b hab
  exact lt_of_le_of_ne (of_decide_eq_true hab.1) fun heq => hab.2 (standing_injective heq)

/-- Fusion returns the first documents in the order of their standing. -/
theorem reciprocalRankFusion_eq (hparallel : weights.length = arms.length)
    (hnodup : ∀ arm ∈ arms, (firstRow arm.ids).Nodup) (limit : Nat) :
    reciprocalRankFusion arms k weights limit =
      .ok (resultOf arms ((fusedOrder arms weights k).take limit)) := by
  have hcandidates : (Fusion.ofArms arms weights k).scores.entries.map
        (Fusion.ofArms arms weights k).candidate =
      (unionIds arms).toList.map (fusedCandidate arms weights k) := by
    rw [← Fusion.keys_scores_ofArms hparallel]
    unfold OrderedDict.keys
    rw [List.map_map]
    exact List.map_congr_left fun entry hmem => Fusion.candidate_ofArms hparallel hnodup hmem
  have hsorted : ((unionIds arms).toList.map (fusedCandidate arms weights k)).mergeSort
        (fun a b => a.sortKey ≤ b.sortKey) =
      (fusedOrder arms weights k).map (fusedCandidate arms weights k) := by
    unfold fusedOrder
    rw [List.map_mergeSort fun a _ b _ => ?_]
    rfl
  unfold reciprocalRankFusion
  rw [if_neg (not_not.mpr hparallel)]
  dsimp only
  rw [show (arms.zip weights).zipIdx.foldl (Fusion.addArm k) {} = Fusion.ofArms arms weights k
    from rfl, hcandidates, hsorted, ← List.map_take]
  unfold resultOf
  have hids : ((fusedOrder arms weights k).take limit).map
      (Candidate.docId ∘ fusedCandidate arms weights k) = (fusedOrder arms weights k).take limit :=
    List.map_id _
  simp only [List.map_map, hids]
  rfl

theorem mem_fusedOrder {id : String} :
    id ∈ fusedOrder arms weights k ↔ ∃ arm ∈ arms, id ∈ firstRow arm.ids := by
  unfold fusedOrder
  rw [List.mem_mergeSort, ← OrderedSet.mem_def, mem_unionIds]

/-- A document that dominates another stands before it. -/
theorem standing_lt (hweights : ∀ weight ∈ weights, 0 ≤ weight) {a b : String}
    (h : Dominates (rankings arms weights) a b) :
    standing arms weights k a < standing arms weights k b := by
  have harms : ∀ arm ∈ rankings arms weights, 0 ≤ arm.2 := by
    intro arm hmem
    obtain ⟨e, he, rfl⟩ := List.mem_map.mp hmem
    exact hweights _ (List.of_mem_zip he).2
  exact Prod.Lex.toLex_lt_toLex.mpr (.inl (neg_lt_neg (fusedScore_lt harms h)))

theorem mem_fusedOrder_of_dominates {a b : String} (h : Dominates (rankings arms weights) a b) :
    a ∈ fusedOrder arms weights k := by
  obtain ⟨arm, hmem, ha⟩ := h.exists_mem
  obtain ⟨e, he, rfl⟩ := List.mem_map.mp hmem
  exact mem_fusedOrder.mpr ⟨e.1, (List.of_mem_zip he).1, ha⟩

/-- Fusion returns the first documents of all arms in the order of their
standing, row by row, and no document before one that dominates it. -/
theorem reciprocalRankFusion_spec (arms : List QueryResult) (weights : List Rat) (k limit : Nat)
    (hparallel : weights.length = arms.length)
    (hdistinct : ∀ arm ∈ arms, (firstRow arm.ids).Nodup)
    (hweights : ∀ weight ∈ weights, 0 ≤ weight) :
    ∃ order kept : List String,
      order.Pairwise (fun a b => standing arms weights k a < standing arms weights k b) ∧
        (∀ id, id ∈ order ↔ ∃ arm ∈ arms, id ∈ firstRow arm.ids) ∧
        kept = order.take limit ∧ kept.Nodup ∧
        reciprocalRankFusion arms k weights limit = .ok (resultOf arms kept) ∧
        ∀ a b, Dominates (rankings arms weights) a b → b ∈ kept → [a, b].Sublist kept := by
  have hsorted := @pairwise_fusedOrder arms weights k
  refine ⟨fusedOrder arms weights k, _, hsorted, fun _ => mem_fusedOrder, rfl, ?_,
    reciprocalRankFusion_eq hparallel hdistinct limit, ?_⟩
  · have hnodup : (fusedOrder arms weights k).Nodup :=
      (List.mergeSort_perm _ _).nodup_iff.mpr (unionIds arms).nodup
    exact hnodup.sublist (List.take_sublist _ _)
  · intro a b hdominates hb
    exact pair_sublist_take hsorted (mem_fusedOrder_of_dominates hdominates)
      (standing_lt hweights hdominates) hb

/-- Two arms that share a document, and a weight of zero. -/
def twoArms : List QueryResult :=
  [{ documents := [["red", ""]], metadatas := [[]], distances := [[some (1 / 10)]],
      ids := [["a", "b"]] },
    { documents := [["blue", "green"]], metadatas := [[]], distances := [],
      ids := [["b", "c"]] }]

theorem reciprocalRankFusion_spec_twoArms :
    ∃ order kept : List String,
      order.Pairwise (fun a b => standing twoArms [1, 0] 60 a < standing twoArms [1, 0] 60 b) ∧
        (∀ id, id ∈ order ↔ ∃ arm ∈ twoArms, id ∈ firstRow arm.ids) ∧
        kept = order.take 2 ∧ kept.Nodup ∧
        reciprocalRankFusion twoArms 60 [1, 0] 2 = .ok (resultOf twoArms kept) ∧
        ∀ a b, Dominates (rankings twoArms [1, 0]) a b → b ∈ kept → [a, b].Sublist kept :=
  reciprocalRankFusion_spec twoArms [1, 0] 60 2 rfl (by decide) (by decide)

end

end VirtualContributor.Retrieval
