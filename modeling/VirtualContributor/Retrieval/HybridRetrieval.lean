import VirtualContributor.Retrieval.QueryTerms
import VirtualContributor.Retrieval.RankFusion

/-!
# Hybrid retrieval

`hybrid_retrieval.retrieve` queries the store by meaning, by wording or both
at once, and fuses what both return.
-/

namespace VirtualContributor.Retrieval

open Lib

structure HybridSettings where
  hybridRetrievalEnabled : Bool
  hybridDenseWeight : Rat
  hybridLexicalWeight : Rat
  hybridRrfK : Nat
  hybridMaxTerms : Nat
  hybridMinTermLen : Nat

/-- What becomes of the lexical arm: an embedding error is raised, and any
other failure is an arm without results. -/
def keepLexical : QueryOutcome → Except Exc QueryResult
  | .ok result => .ok result
  | .error failure => if failure.isEmbedding then .error failure.toExc else .ok .empty

/-- What becomes of both arms.  The failure of the dense arm comes first. -/
def fuseOutcomes (config : HybridSettings) (limit : Nat) (outcomes : QueryOutcome × QueryOutcome) :
    Except Exc QueryResult := do
  let denseResult ← raiseFailure outcomes.1
  let lexicalResult ← keepLexical outcomes.2
  reciprocalRankFusion [denseResult, lexicalResult] config.hybridRrfK
    [config.hybridDenseWeight, config.hybridLexicalWeight] limit

/-- `hybrid_retrieval.retrieve`.  A store without `query_lexical` has no
lexical arm. -/
def retrieve (T : UnicodeText) (providesLexical : Bool) (collection query : String)
    (config : Option HybridSettings) (nResults : Nat) (filter : Option Where) :
    Retrieving QueryResult :=
  let dense : DenseQuery := { collection, query, nResults, filter }
  match config with
  | none => storeQuery dense
  | some config =>
    if !config.hybridRetrievalEnabled then storeQuery dense
    else if config.hybridLexicalWeight = 0 then storeQuery dense
    else if !providesLexical then storeQuery dense
    else
      let terms := extractTerms T query config.hybridMinTermLen config.hybridMaxTerms
      let lexical : LexicalQuery := { collection, terms, nResults, filter }
      if terms = [] then storeQuery dense
      else if config.hybridDenseWeight = 0 then do
        let outcome ← tryLexical lexical
        keepLexical outcome
      else do
        let outcomes ← gatherQueries dense lexical
        fuseOutcomes config nResults outcomes

end VirtualContributor.Retrieval
