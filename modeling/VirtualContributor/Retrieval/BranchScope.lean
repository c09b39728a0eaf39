import VirtualContributor.Lib.Containers
import VirtualContributor.Retrieval.HierarchyRetrieval

/-!
# What a branch filter lets through

`Where.satisfiedBy` is the evaluation of a filter on the metadata of a stored
row.  A row that lacks the field of a comparison satisfies `$ne` and not
`$eq`.

The filter of the second stage is there exactly when the orienting passages
name a subspace, and it lets through the detail rows of the first subspaces
they name (`scoped_filter_meaning`).  The loop of `select_branches` keeps
spaces and subspaces in one list; `subspaceIds_foldl_selectRow` follows the
subspaces of that list through the loop.
-/

namespace VirtualContributor.Retrieval

open Lib

/-! ## The evaluation of a filter -/

/-- Whether the field has this text. -/
def hasText (row : Metadata) (field value : String) : Bool :=
  match row.lookup field with
  | some (.str text) => text = value
  | _ => false

mutual

def Where.satisfiedBy (row : Metadata) : Where → Bool
  | .eq field value => hasText row field value
  | .ne field value => !hasText row field value
  | .and clauses => Where.allSatisfied row clauses
  | .or clauses => Where.anySatisfied row clauses

def Where.allSatisfied (row : Metadata) : List Where → Bool
  | [] => true
  | clause :: clauses => clause.satisfiedBy row && Where.allSatisfied row clauses

def Where.anySatisfied (row : Metadata) : List Where → Bool
  | [] => false
  | clause :: clauses => clause.satisfiedBy row || Where.anySatisfied row clauses

end

theorem hasText_eq_true {row : Metadata} {field value : String} :
    hasText row field value = true ↔ row.lookup field = some (.str value) := by
  unfold hasText
  split
  · rename_i text htext
    simp [htext]
  · rename_i hother
    exact ⟨nofun, fun h => absurd h (hother value)⟩

namespace Where

variable {row : Metadata} {clauses : List Where}

@[simp] theorem satisfiedBy_eq {field value : String} :
    (Where.eq field value).satisfiedBy row = true ↔ row.lookup field = some (.str value) := by
  rw [satisfiedBy, hasText_eq_true]

@[simp] theorem satisfiedBy_ne {field value : String} :
    (Where.ne field value).satisfiedBy row = true ↔ row.lookup field ≠ some (.str value) := by
  rw [satisfiedBy, Bool.not_eq_true', ← Bool.not_eq_true, hasText_eq_true]

@[simp] theorem satisfiedBy_and :
    (Where.and clauses).satisfiedBy row = true ↔
      ∀ clause ∈ clauses, clause.satisfiedBy row = true := by
  rw [satisfiedBy]
  induction clauses with
  | nil => simp [allSatisfied]
  | cons clause clauses ih => rw [allSatisfied, Bool.and_eq_true, ih, List.forall_mem_cons]

@[simp] theorem satisfiedBy_or :
    (Where.or clauses).satisfiedBy row = true ↔
      ∃ clause ∈ clauses, clause.satisfiedBy row = true := by
  rw [satisfiedBy]
  induction clauses with
  | nil => simp [anySatisfied]
  | cons clause clauses ih => rw [anySatisfied, Bool.or_eq_true, ih, List.exists_mem_cons_iff]

end Where

/-! ## The subspaces that orienting rows name -/

/-- The subspace that a row routes to: its distance is a number close enough
for the threshold, and its subspace id is a text that is not blank. -/
def routedSubspace (scoreThreshold : Rat) (row : Metadata × Option Rat) : Option String :=
  match row.2, row.1.lookup "subspaceId" with
  | some distance, some (.str id) =>
    if scoreThreshold ≤ 1 - distance ∧ isBlank id = false then some id else none
  | _, _ => none

/-- The orienting rows with their distances; a row beyond the distances has
none. -/
def orientingRows (result : QueryResult) : List (Metadata × Option Rat) :=
  (firstRow result.metadatas).zip (firstRow result.distances)

/-- The first `maxBranches` distinct subspaces that orienting rows route to,
in rank order. -/
def routedSubspaces (result : QueryResult) (scoreThreshold : Rat) (maxBranches : Nat) :
    List String :=
  (OrderedSet.ofList ((orientingRows result).filterMap
    (routedSubspace scoreThreshold))).toList.take maxBranches

/-- The subspace ids among selected branches. -/
def subspaceIds (branches : List BranchRef) : List String :=
  (branches.filter (·.field = .subspaceId)).map (·.value)

theorem subspaceIds_append (bs bs' : List BranchRef) :
    subspaceIds (bs ++ bs') = subspaceIds bs ++ subspaceIds bs' := by
  unfold subspaceIds
  rw [List.filter_append, List.map_append]

/-- A subspace is among the branches exactly when its id is among their
subspace ids. -/
theorem mem_subspaceIds {branches : List BranchRef} {branch : BranchRef}
    (hfield : branch.field = .subspaceId) :
    branch.value ∈ subspaceIds branches ↔ branch ∈ branches := by
  unfold subspaceIds
  rw [List.mem_map]
  constructor
  · intro ⟨other, hother, hvalue⟩
    obtain ⟨hmem, hsubspace⟩ := List.mem_filter.mp hother
    have heq : other = branch := by
      obtain ⟨field, value, _⟩ := other
      obtain ⟨field', value', _⟩ := branch
      obtain rfl : field = .subspaceId := of_decide_eq_true hsubspace
      cases hfield
      cases hvalue
      rfl
    exact heq ▸ hmem
  · intro hmem
    exact ⟨branch, List.mem_filter.mpr ⟨hmem, decide_eq_true hfield⟩, rfl⟩

/-- What a branch adds to the subspaces that are selected. -/
theorem subspaceIds_push {selected : List BranchRef} {ids : OrderedSet String}
    (h : subspaceIds selected = ids.toList) (branch : BranchRef) :
    subspaceIds (if branch ∈ selected then selected else selected ++ [branch]) =
      (if branch.field = .subspaceId then ids.insert branch.value else ids).toList := by
  by_cases hfield : branch.field = .subspaceId
  · have hmem : branch.value ∈ ids ↔ branch ∈ selected := by
      rw [OrderedSet.mem_def, ← h]
      exact mem_subspaceIds hfield
    rw [if_pos hfield]
    split
    · rename_i hselected
      rw [OrderedSet.insert_of_mem (hmem.mpr hselected)]
      exact h
    · rename_i hnew
      have hone : subspaceIds [branch] = [branch.value] := by simp [subspaceIds, hfield]
      rw [OrderedSet.toList_insert_of_new (mt hmem.mp hnew), subspaceIds_append, h, hone]
  · have hnone : subspaceIds [branch] = [] := by simp [subspaceIds, hfield]
    rw [if_neg hfield]
    split
    · exact h
    · rw [subspaceIds_append, h, hnone, List.append_nil]

theorem branchOf_eq_some {field : BranchField} {value : Option Json} {branch : BranchRef}
    (h : branchOf field value = some branch) :
    branch.field = field ∧ value = some (.str branch.value) ∧ isBlank branch.value = false := by
  unfold branchOf at h
  split at h
  · split at h
    · rename_i hblank
      obtain rfl := Option.some.inj h
      exact ⟨rfl, rfl, hblank⟩
    · cases h
  · cases h

theorem branchOf_eq_none {field : BranchField} {text : String}
    (h : branchOf field (some (.str text)) = none) : isBlank text = true := by
  unfold branchOf at h
  dsimp only at h
  split at h
  · cases h
  · rename_i hblank
    exact Bool.of_not_eq_false hblank

/-- A row whose nearest branch is a subspace routes to it, and any other row
to no subspace. -/
theorem routedSubspace_eq {scoreThreshold distance : Rat} {metadata : Metadata}
    (hnear : scoreThreshold ≤ 1 - distance) :
    routedSubspace scoreThreshold (metadata, some distance) =
      (branchOf .subspaceId (metadata.lookup "subspaceId")).map BranchRef.value := by
  unfold routedSubspace
  cases hbranch : branchOf .subspaceId (metadata.lookup "subspaceId") with
  | some branch =>
    obtain ⟨_, hlookup, hblank⟩ := branchOf_eq_some hbranch
    simp only [hlookup, Option.map_some]
    rw [if_pos ⟨hnear, hblank⟩]
  | none =>
    split
    · rename_i hdistance hlookup
      rw [hlookup] at hbranch
      rw [branchOf_eq_none hbranch, if_neg (by simp)]
      rfl
    · rfl

/-- What one round of the loop does to the subspaces that are selected. -/
theorem subspaceIds_selectRow (scoreThreshold : Rat) {selected : List BranchRef}
    {ids : OrderedSet String} (h : subspaceIds selected = ids.toList)
    (row : Metadata × Option Rat) :
    subspaceIds (selectRow scoreThreshold selected row) =
      (ids.insertAll (routedSubspace scoreThreshold row).toList).toList := by
  obtain ⟨metadata, distance⟩ := row
  cases distance with
  | none => exact h
  | some distance =>
    unfold selectRow
    dsimp only
    split
    · rename_i hfar
      have hnone : routedSubspace scoreThreshold (metadata, some distance) = none := by
        unfold routedSubspace
        split
        · rename_i hdistance _
          obtain rfl := Option.some.inj hdistance
          exact if_neg fun hnear => absurd hnear.1 (Rat.not_le.mpr hfar)
        · rfl
      rw [hnone]
      exact h
    · rename_i hnear
      rw [routedSubspace_eq (Rat.not_lt.mp hnear)]
      unfold branchFromMetadata
      cases hsubspace : branchOf .subspaceId (metadata.lookup "subspaceId") with
      | some branch =>
        have hpush := subspaceIds_push h branch
        rw [if_pos (branchOf_eq_some hsubspace).1] at hpush
        exact hpush
      | none =>
        cases hspace : branchOf .spaceId (metadata.lookup "spaceId") with
        | none => exact h
        | some branch =>
          have hpush := subspaceIds_push h branch
          have hfield : branch.field ≠ .subspaceId := by
            rw [(branchOf_eq_some hspace).1]
            decide
          rw [if_neg hfield] at hpush
          exact hpush

theorem subspaceIds_foldl_selectRow (scoreThreshold : Rat) (rows : List (Metadata × Option Rat))
    {selected : List BranchRef} {ids : OrderedSet String} (h : subspaceIds selected = ids.toList) :
    subspaceIds (rows.foldl (selectRow scoreThreshold) selected) =
      (ids.insertAll (rows.filterMap (routedSubspace scoreThreshold))).toList := by
  induction rows generalizing selected ids with
  | nil => exact h
  | cons row rows ih =>
    rw [List.foldl_cons, ih (subspaceIds_selectRow scoreThreshold h row),
      ← OrderedSet.insertAll_append]
    cases hrow : routedSubspace scoreThreshold row with
    | none => rw [List.filterMap_cons_none hrow]; rfl
    | some id => rw [List.filterMap_cons_some hrow]; rfl

theorem subspaceIds_take {branches : List BranchRef}
    (h : ∀ branch ∈ branches, branch.field = .subspaceId) (n : Nat) :
    subspaceIds (branches.take n) = (subspaceIds branches).take n := by
  unfold subspaceIds
  rw [List.filter_eq_self.mpr fun branch hmem => decide_eq_true (h branch hmem),
    List.filter_eq_self.mpr fun branch hmem =>
      decide_eq_true (h branch (List.mem_of_mem_take hmem)), List.map_take]

/-- The cap counts subspaces only, when there are any. -/
theorem subspaceIds_cap (selected : List BranchRef) (n : Nat) :
    subspaceIds ((if (selected.filter (·.field = .subspaceId)).isEmpty then selected
        else selected.filter (·.field = .subspaceId)).take n) = (subspaceIds selected).take n := by
  have hsubspaces : ∀ branch ∈ selected.filter (·.field = .subspaceId),
      branch.field = .subspaceId :=
    fun branch hmem => of_decide_eq_true (List.mem_filter.mp hmem).2
  split
  · rename_i hnone
    have hnil : subspaceIds selected = [] := by
      unfold subspaceIds
      rw [List.isEmpty_iff.mp hnone]
      rfl
    have hsplit := subspaceIds_append (selected.take n) (selected.drop n)
    rw [List.take_append_drop, hnil] at hsplit
    rw [hnil, List.take_nil]
    exact (List.append_eq_nil_iff.mp hsplit.symm).1
  · rw [subspaceIds_take hsubspaces]
    unfold subspaceIds
    rw [List.filter_eq_self.mpr fun branch hmem => decide_eq_true (hsubspaces branch hmem)]

theorem subspaceIds_selectBranches (result : QueryResult) (scoreThreshold : Rat)
    (maxBranches : Nat) :
    subspaceIds (selectBranches result scoreThreshold maxBranches) =
      routedSubspaces result scoreThreshold maxBranches := by
  unfold selectBranches routedSubspaces OrderedSet.ofList
  rw [← @subspaceIds_foldl_selectRow scoreThreshold (orientingRows result) [] _ rfl]
  split
  · rename_i hmax
    have hzero : maxBranches = 0 := by omega
    rw [hzero, List.take_zero]
    rfl
  · exact subspaceIds_cap _ maxBranches

/-- The clauses of the branches are those of their subspace ids. -/
theorem map_clause_filter (branches : List BranchRef) :
    (branches.filter (·.field = .subspaceId)).map BranchRef.clause =
      (subspaceIds branches).map (.eq "subspaceId") := by
  unfold subspaceIds
  rw [List.map_map]
  apply List.map_congr_left
  intro branch hmem
  have hfield : branch.field = .subspaceId := of_decide_eq_true (List.mem_filter.mp hmem).2
  unfold BranchRef.clause
  rw [hfield]
  rfl

theorem scopedDetailWhere_eq_none {branches : List BranchRef} :
    scopedDetailWhere branches = none ↔ subspaceIds branches = [] := by
  unfold scopedDetailWhere
  rw [map_clause_filter]
  match subspaceIds branches with
  | [] => simp
  | [id] => simp
  | id :: id' :: ids => simp

/-- What the filter of some branches lets through. -/
theorem satisfiedBy_scopedDetailWhere {branches : List BranchRef} {filter : Where}
    (h : scopedDetailWhere branches = some filter) (row : Metadata) :
    filter.satisfiedBy row = true ↔
      row.lookup "embeddingType" ≠ some (.str "summary") ∧
        row.lookup "type" ≠ some (.str "bodyOfKnowledgeSummary") ∧
        ∃ id ∈ subspaceIds branches, row.lookup "subspaceId" = some (.str id) := by
  have hand (clause : Where) : (Where.and (DETAIL_CLAUSES ++ [clause])).satisfiedBy row = true ↔
      row.lookup "embeddingType" ≠ some (.str "summary") ∧
        row.lookup "type" ≠ some (.str "bodyOfKnowledgeSummary") ∧
        clause.satisfiedBy row = true := by
    rw [Where.satisfiedBy_and, List.forall_mem_append, List.forall_mem_singleton]
    simp only [DETAIL_CLAUSES, List.forall_mem_cons, Where.satisfiedBy_ne, List.not_mem_nil,
      false_implies, implies_true, and_true, and_assoc]
  unfold scopedDetailWhere at h
  rw [map_clause_filter] at h
  cases hids : subspaceIds branches with
  | nil =>
    rw [hids] at h
    cases h
  | cons id ids =>
    rw [hids] at h
    cases ids with
    | nil =>
      obtain rfl := Option.some.inj h
      simp only [hand, Where.satisfiedBy_eq, List.mem_singleton, exists_eq_left]
    | cons id' ids =>
      obtain rfl := Option.some.inj h
      rw [hand, Where.satisfiedBy_or]
      simp

/-- The filter of the second stage lets through the detail rows of the first
subspaces that the orienting rows route to. -/
theorem scoped_filter_meaning (result : QueryResult) (scoreThreshold : Rat) (maxBranches : Nat) :
    (scopedDetailWhere (selectBranches result scoreThreshold maxBranches) = none ↔
        routedSubspaces result scoreThreshold maxBranches = []) ∧
      ∀ filter, scopedDetailWhere (selectBranches result scoreThreshold maxBranches) = some filter →
        ∀ row, filter.satisfiedBy row = true ↔
          row.lookup "embeddingType" ≠ some (.str "summary") ∧
            row.lookup "type" ≠ some (.str "bodyOfKnowledgeSummary") ∧
            ∃ id ∈ routedSubspaces result scoreThreshold maxBranches,
              row.lookup "subspaceId" = some (.str id) := by
  rw [← subspaceIds_selectBranches]
  exact ⟨scopedDetailWhere_eq_none, fun _ h row => satisfiedBy_scopedDetailWhere h row⟩

/-- Two rows of a subspace and one of a root space between them. -/
def orientingPassages : QueryResult where
  documents := [["first", "second", "third"]]
  metadatas := [[[("spaceId", .str "s"), ("subspaceId", .str "a")], [("spaceId", .str "s")],
    [("subspaceId", .str "a")]]]
  distances := [[some (1 / 10), some (2 / 10), some (2 / 10)]]
  ids := [["1", "2", "3"]]

theorem scoped_filter_meaning_orientingPassages :
    ∃ filter, scopedDetailWhere (selectBranches orientingPassages (3 / 10) 2) = some filter ∧
      filter.satisfiedBy [("subspaceId", .str "a"), ("title", .str "t")] = true := by
  obtain ⟨hnone, hsome⟩ := scoped_filter_meaning orientingPassages (3 / 10) 2
  have hrouted : routedSubspaces orientingPassages (3 / 10) 2 = ["a"] := by decide +kernel
  rw [hrouted] at hnone hsome
  obtain ⟨filter, hfilter⟩ := Option.ne_none_iff_exists'.mp (mt hnone.mp (List.cons_ne_nil _ _))
  refine ⟨filter, hfilter, (hsome filter hfilter _).mpr ⟨nofun, nofun, "a", ?_, rfl⟩⟩
  exact List.mem_singleton_self _

end VirtualContributor.Retrieval
