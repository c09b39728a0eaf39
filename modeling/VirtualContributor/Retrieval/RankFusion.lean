import Mathlib
import VirtualContributor.Lib.Containers
import VirtualContributor.Retrieval.KnowledgeStore

/-!
# Reciprocal rank fusion

`reciprocal_rank_fusion` combines the rankings of several arms into one.  The
dense arm is the first, and a row keeps the distance which that arm reported.
-/

namespace VirtualContributor.Retrieval

open Lib

/-- `_DENSE_ARM`. -/
def DENSE_ARM : Nat := 0

/-- A rank in an arm, or `⊤` for a document that the arm lacks. -/
abbrev ArmRank := WithTop Nat

/-- `_Candidate`: the standing of one document in every arm. -/
structure Candidate where
  docId : String
  score : Rat
  denseRank : ArmRank
  lexicalRank : ArmRank
  document : String
  metadata : Metadata
  distance : Option Rat

/-- `_Candidate.sort_key`. -/
def Candidate.sortKey (c : Candidate) : Rat ×ₗ ArmRank ×ₗ ArmRank ×ₗ String :=
  toLex (-c.score, toLex (c.denseRank, toLex (c.lexicalRank, c.docId)))

/-- The text, metadata and distance of a document. -/
structure Payload where
  document : String := ""
  metadata : Metadata := []
  distance : Option Rat := none

/-- The three dictionaries of the loop over the arms. -/
structure Fusion where
  scores : OrderedDict String Rat := .empty
  ranks : OrderedDict String (OrderedDict Nat Nat) := .empty
  payload : OrderedDict String Payload := .empty

namespace Fusion

/-- The payload after a row: the first text and metadata that are not empty
count, and only the dense arm has a distance. -/
def mergePayload (existing : Payload) (armIndex : Nat) (row : Payload) : Payload where
  document := if existing.document = "" then row.document else existing.document
  metadata := if existing.metadata.isEmpty then row.metadata else existing.metadata
  distance := if armIndex = DENSE_ARM then row.distance else existing.distance

/-- The row of an arm at a rank. -/
def rowAt (arm : QueryResult) (rank : Nat) : Payload where
  document := (firstRow arm.documents).getD rank ""
  metadata := (firstRow arm.metadatas).getD rank []
  distance := (firstRow arm.distances).getD rank none

/-- The body of the loop over the ids of an arm. -/
def addRow (k : Nat) (arm : QueryResult) (weight : Rat) (armIndex : Nat) (fusion : Fusion)
    (entry : String × Nat) : Fusion :=
  let docId := entry.1
  let rank := entry.2
  let score := (fusion.scores.get? docId).getD 0
  let perArm := (fusion.ranks.get? docId).getD .empty
  let existing := (fusion.payload.get? docId).getD {}
  { scores := fusion.scores.set docId (score + weight / ((k + rank + 1 : Nat) : Rat))
    ranks := fusion.ranks.set docId (perArm.set armIndex rank)
    payload := fusion.payload.set docId (mergePayload existing armIndex (rowAt arm rank)) }

/-- The body of the loop over the arms. -/
def addArm (k : Nat) (fusion : Fusion) (entry : (QueryResult × Rat) × Nat) : Fusion :=
  let arm := entry.1.1
  (firstRow arm.ids).zipIdx.foldl (addRow k arm entry.1.2 entry.2) fusion

/-- The candidate of one item of `scores`. -/
def candidate (fusion : Fusion) (entry : String × Rat) : Candidate :=
  let perArm := (fusion.ranks.get? entry.1).getD .empty
  let payload := (fusion.payload.get? entry.1).getD {}
  { docId := entry.1
    score := entry.2
    denseRank := ((perArm.get? DENSE_ARM).map fun rank => (rank : ArmRank)).getD ⊤
    lexicalRank := ((perArm.entries.filter (·.1 ≠ DENSE_ARM)).map fun e => (e.2 : ArmRank)).foldr
      min ⊤
    document := payload.document
    metadata := payload.metadata
    distance := payload.distance }

end Fusion

/-- Fuse the rankings of the arms.  The weights are parallel to the arms. -/
def reciprocalRankFusion (arms : List QueryResult) (k : Nat) (weights : List Rat) (limit : Nat) :
    Except Exc QueryResult :=
  if weights.length ≠ arms.length then
    .error
      { typeName := "ValueError"
        text := s!"weights has {weights.length} entries for {arms.length} arms — they must be " ++
          "parallel" }
  else
    let fusion := (arms.zip weights).zipIdx.foldl (Fusion.addArm k) {}
    let candidates := fusion.scores.entries.map fusion.candidate
    let kept := (candidates.mergeSort fun a b => a.sortKey ≤ b.sortKey).take limit
    .ok
      { documents := [kept.map Candidate.document]
        metadatas := [kept.map Candidate.metadata]
        distances := [kept.map Candidate.distance]
        ids := [kept.map Candidate.docId] }

end VirtualContributor.Retrieval
