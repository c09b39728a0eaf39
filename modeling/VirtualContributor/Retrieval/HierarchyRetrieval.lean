import VirtualContributor.Lib.PythonText
import VirtualContributor.Retrieval.KnowledgeStore

/-!
# Hierarchy-aware retrieval

The first stage of hierarchical retrieval finds orienting passages.
`select_branches` takes the branches they name, and `scoped_detail_where`
makes the filter of the second stage from them.
-/

namespace VirtualContributor.Retrieval

open Lib

def ORIENTING_WHERE : Where :=
  .or [.eq "embeddingType" "overview", .eq "embeddingType" "summary",
    .eq "type" "bodyOfKnowledgeSummary"]

/-- The clauses of `DETAIL_WHERE`. -/
def DETAIL_CLAUSES : List Where :=
  [.ne "embeddingType" "summary", .ne "type" "bodyOfKnowledgeSummary"]

inductive BranchField where
  | spaceId
  | subspaceId
deriving DecidableEq

/-- The metadata key of the field. -/
def BranchField.key : BranchField → String
  | spaceId => "spaceId"
  | subspaceId => "subspaceId"

/-- `BranchRef`: a stored branch key, which is not empty. -/
structure BranchRef where
  field : BranchField
  value : String
  nonempty : value ≠ ""
deriving DecidableEq

/-- The branch that a value of the metadata names: a text that is not blank. -/
def branchOf (field : BranchField) : Option Json → Option BranchRef
  | some (.str value) =>
    if h : isBlank value = false then
      some ⟨field, value, by rintro rfl; exact absurd h (by decide)⟩
    else none
  | _ => none

/-- `branch_from_metadata`. -/
def branchFromMetadata (metadata : Metadata) : Option BranchRef :=
  (branchOf .subspaceId (metadata.lookup "subspaceId")).or
    (branchOf .spaceId (metadata.lookup "spaceId"))

/-- The body of the loop over the orienting rows.  A row without a distance
selects no branch. -/
def selectRow (scoreThreshold : Rat) (selected : List BranchRef)
    (row : Metadata × Option Rat) : List BranchRef :=
  match row.2 with
  | none => selected
  | some distance =>
    if 1 - distance < scoreThreshold then selected
    else
      match branchFromMetadata row.1 with
      | none => selected
      | some branch => if branch ∈ selected then selected else selected ++ [branch]

/-- `select_branches`. -/
def selectBranches (result : QueryResult) (scoreThreshold : Rat) (maxBranches : Nat) :
    List BranchRef :=
  if maxBranches < 1 then []
  else
    -- rows beyond the shorter of the two lists select nothing
    let rows := (firstRow result.metadatas).zip (firstRow result.distances)
    let selected := rows.foldl (selectRow scoreThreshold) []
    let subspaces := selected.filter (·.field = .subspaceId)
    (if subspaces.isEmpty then selected else subspaces).take maxBranches

/-- The clause of one branch. -/
def BranchRef.clause (branch : BranchRef) : Where := .eq branch.field.key branch.value

/-- `scoped_detail_where`. -/
def scopedDetailWhere (branches : List BranchRef) : Option Where :=
  match (branches.filter (·.field = .subspaceId)).map BranchRef.clause with
  | [] => none
  | [clause] => some (.and (DETAIL_CLAUSES ++ [clause]))
  | clauses => some (.and (DETAIL_CLAUSES ++ [.or clauses]))

end VirtualContributor.Retrieval
