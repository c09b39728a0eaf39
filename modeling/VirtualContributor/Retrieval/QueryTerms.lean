import VirtualContributor.Lib.TextTables

/-!
# Query terms

`extract_terms`: the words of a question that are worth matching as they are
written.
-/

namespace VirtualContributor.Retrieval

open Lib

def MAX_TERM_LEN : Nat := 128

def STOP_WORDS : List String :=
  ["a", "about", "above", "after", "again", "all", "also", "am", "an", "and", "any", "are", "as",
   "at", "be", "because", "been", "before", "being", "below", "between", "both", "but", "by",
   "can", "cannot", "could", "did", "do", "does", "doing", "done", "down", "during", "each",
   "few", "for", "from", "further", "had", "has", "have", "having", "he", "her", "here", "hers",
   "herself", "him", "himself", "his", "how", "i", "if", "in", "into", "is", "it", "its",
   "itself", "just", "me", "more", "most", "my", "myself", "no", "nor", "not", "now", "of",
   "off", "on", "once", "only", "or", "other", "ought", "our", "ours", "ourselves", "out",
   "over", "own", "same", "she", "should", "so", "some", "such", "than", "that", "the", "their",
   "theirs", "them", "themselves", "then", "there", "these", "they", "this", "those", "through",
   "to", "too", "under", "until", "up", "very", "was", "we", "were", "what", "when", "where",
   "which", "while", "who", "whom", "why", "will", "with", "would", "you", "your", "yours",
   "yourself", "yourselves"]

section

variable (T : UnicodeText)

/-- `_WORD_SPLIT_RE.split(text)`, with an empty piece for each further
separator of a run. -/
def wordSplit (text : String) : List String :=
  (text.toList.splitOnP fun c => !T.isWord c).map String.ofList

/-- Whether a short word is a name rather than filler. -/
def looksLikeAnIdentifier (raw : String) : Bool :=
  if raw.length < 2 then false
  else if raw ≠ T.lower raw then true
  else raw.toList.any T.isDigit && raw.toList.any T.isAlpha

/-- The loop over the pieces, with the terms found so far. -/
def collectTerms (minLen maxTerms : Nat) : List String → List String → List String
  | terms, [] => terms
  | terms, raw :: rest =>
    let term := T.casefold raw
    if raw = "" || MAX_TERM_LEN < raw.length ||
        term.length < minLen && !looksLikeAnIdentifier T raw ||
        STOP_WORDS.contains term || terms.contains term then
      collectTerms minLen maxTerms terms rest
    else if maxTerms ≤ (terms ++ [term]).length then terms ++ [term]
    else collectTerms minLen maxTerms (terms ++ [term]) rest

def extractTerms (text : String) (minLen maxTerms : Nat) : List String :=
  if text = "" then [] else collectTerms T minLen maxTerms [] (wordSplit T text)

end

end VirtualContributor.Retrieval
