import Mathlib.Algebra.Order.Field.Basic
import Mathlib.Algebra.Order.Ring.Rat
import VirtualContributor.Lib.Containers
import VirtualContributor.Plugins.ExpertPassages

/-!
# Lexical reranking

`core/domain/lexical_score.py` and `core/domain/rerank.py`: the blend of the
vector scores with the scores of the words that a query shares with a
document.  `math.log` is a parameter.
-/

namespace VirtualContributor.Retrieval

open Lib

/-! ## Lexical scores -/

def K1 : Rat := 12 / 10
def B : Rat := 3 / 4
def MAX_QUERY_CHARS : Nat := 8000
def MAX_QUERY_TERMS : Nat := 64
def MAX_DOCUMENT_CHARS : Nat := 100000

/-- The characters of `_TOKEN_RE`. -/
def isTokenChar (c : Char) : Bool := ('a' ≤ c && c ≤ 'z') || ('0' ≤ c && c ≤ '9')

/-- The text functions and the logarithm that the scores are built on. -/
structure Scoring where
  text : UnicodeText
  log : Rat → Rat

section Scores

variable (S : Scoring)

/-- Split text into lowercased alphanumeric terms. -/
def tokenize (text : String) : List String :=
  (((S.text.lower text).toList.splitOnP fun c => !isTokenChar c).filter (· ≠ [])).map String.ofList

/-- `text[:limit]`. -/
def textPrefix (limit : Nat) (text : String) : String := String.ofList (text.toList.take limit)

/-- `compute_idf(docs_tokens).get(term, 0.0)`. -/
def inverseFrequency (docsTokens : List (List String)) (term : String) : Rat :=
  let count := docsTokens.countP (·.contains term)
  if count = 0 then 0
  else S.log (1 + ((docsTokens.length : Rat) - count + 1 / 2) / (count + 1 / 2))

/-- The distinct terms of a query, at most `MAX_QUERY_TERMS` of them. -/
def queryTerms (query : String) : List String :=
  let terms := (OrderedSet.ofList (tokenize S (textPrefix MAX_QUERY_CHARS query))).toList
  if MAX_QUERY_TERMS < terms.length then
    (terms.mergeSort fun a b => a ≤ b).take MAX_QUERY_TERMS
  else terms

/-- What one term adds to the score of a document. -/
def termScore (docsTokens : List (List String)) (avgLen : Rat) (tokens : List String)
    (term : String) : Rat :=
  let count : Rat := tokens.count term
  if count = 0 then 0
  else
    let norm := 1 - B + B * (if avgLen = 0 then 1 else tokens.length / avgLen)
    inverseFrequency S docsTokens term * (count * (K1 + 1)) / (count + K1 * norm)

/-- Score every document against the query's terms, in `[0, 1]`. -/
def lexicalScores (query : String) (documents : List String) : List Rat :=
  let terms := queryTerms S query
  let docsTokens := documents.map fun doc => tokenize S (textPrefix MAX_DOCUMENT_CHARS doc)
  let avgLen := ((docsTokens.map List.length).sum : Rat) / documents.length
  let totalIdf := (terms.map (inverseFrequency S docsTokens)).sum
  if terms = [] || totalIdf ≤ 0 then documents.map fun _ => 0
  else
    docsTokens.map fun tokens =>
      min 1 ((terms.map (termScore S docsTokens avgLen tokens)).sum / totalIdf)

@[simp] theorem length_lexicalScores (query : String) (documents : List String) :
    (lexicalScores S query documents).length = documents.length := by
  unfold lexicalScores
  dsimp only
  split
  · rw [List.length_map]
  · rw [List.length_map, List.length_map]

end Scores

/-! ## The blend -/

/-- `1e-12`. -/
def MIN_RANGE : Rat := 1 / 10 ^ 12

/-- Rescale to `[0, 1]`, or to all zeros when the range is nearly zero. -/
def minmax (values : List Rat) : List Rat :=
  match values.min?, values.max? with
  | some low, some high =>
    if high - low < MIN_RANGE then values.map fun _ => 0
    else values.map fun v => (v - low) / (high - low)
  | _, _ => []

/-- Convex combination of the two normalised signals. -/
def blend (vectorScores lexical : List Rat) (weight : Rat) : List Rat :=
  List.zipWith (fun v lex => (1 - weight) * v + weight * lex) (minmax vectorScores) (minmax lexical)

@[simp] theorem length_minmax (values : List Rat) : (minmax values).length = values.length := by
  unfold minmax
  cases values with
  | nil => rfl
  | cons v values =>
    rw [List.min?_cons', List.max?_cons']
    dsimp only
    split <;> rw [List.length_map]

/-! ## `LexicalReranker` -/

/-- `order[:top_k]`. -/
def sliceTo {α : Type} (xs : List α) (k : Int) : List α :=
  xs.take (if k < 0 then xs.length + k else k).toNat

structure LexicalReranker where
  lexicalWeight : Rat := 6 / 10

namespace LexicalReranker

/-- Candidate indices, best first. -/
def rerank (S : Scoring) (reranker : LexicalReranker) (query : String) (documents : List String)
    (vectorScores : List Rat) (topK : Option Int := none) : Except Exc (List Nat) :=
  if documents = [] then .ok []
  else if vectorScores.length ≠ documents.length then
    .error
      { typeName := "ValueError"
        text := s!"vector_scores has {vectorScores.length} entries for " ++
          s!"{documents.length} documents; they must be parallel" }
  else
    let scores := blend vectorScores (lexicalScores S query documents) reranker.lexicalWeight
    let order := (List.range documents.length).mergeSort fun i j =>
      -scores.getD i 0 ≤ -scores.getD j 0
    match topK with
    | none => .ok order
    | some k => .ok (sliceTo order k)

/-- The reranker behind the port of the plugins. -/
def port (S : Scoring) (reranker : LexicalReranker) : Plugins.Rerank :=
  fun query documents vectorScores =>
    (reranker.rerank S query documents vectorScores).map (·.map Int.ofNat)

end LexicalReranker

end VirtualContributor.Retrieval
