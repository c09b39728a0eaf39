import VirtualContributor.Lib.Containers
import VirtualContributor.Retrieval.RuleClassifier

/-!
# Exact-match assertions

`evaluation/assertions.py`: literal facts are derived from an expected answer
by rule and looked for in the answer of a pipeline.

The tables of Unicode, the normal form C among them, are parameters.
-/

namespace VirtualContributor.Evaluation

open Lib Lib.Regex Retrieval

/-- The text functions of the assertions: `unicodedata.normalize("NFC", text)` and the
characters of `\d` beside the tables. -/
structure AssertionText extends UnicodeText where
  nfc : String → String
  isDecimal : Char → Bool

inductive AssertionKind where
  | contains
  | containsAll
deriving DecidableEq

/-- One derived fact about an expected answer. -/
structure Assertion where
  kind : AssertionKind
  values : List String
deriving DecidableEq

inductive AssertionStatus where
  | passed
  | failed
  | notApplicable
deriving DecidableEq

structure AssertionOutcome where
  status : AssertionStatus
  missing : List String := []
deriving DecidableEq

/-! ## Normalization -/

def TYPOGRAPHIC_DOUBLE_QUOTES : List Char := ['"', '“', '”']

/-- `text.replace(c, "")`. -/
def removeChar (text : String) (c : Char) : String := String.ofList (text.toList.filter (· ≠ c))

def removeQuotes (text : String) : String := TYPOGRAPHIC_DOUBLE_QUOTES.foldl removeChar text

/-- NFC, no double quotes, casefold and single spaces. -/
def normalize (T : AssertionText) (text : String) : String :=
  " ".intercalate (words (T.casefold (removeQuotes (T.nfc text))))

/-! ## Literal patterns -/

/-- `pattern.finditer(text)` from a spot on, for a pattern that matches no
empty text.  `step` gives what a match finds and where it ends. -/
def findFrom {α : Type} (step : Spot → List (α × Spot)) : Nat → Spot → List α
  | 0, _ => []
  | n + 1, spot =>
    match spot.rest with
    | [] => []
    | c :: rest =>
      match (step spot).head? with
      | none => findFrom step n ⟨some c, rest⟩
      | some (found, next) => found :: findFrom step n next

def findAll {α : Type} (step : Spot → List (α × Spot)) (text : String) : List α :=
  findFrom step text.toList.length ⟨none, text.toList⟩

/-- The text between two spots. -/
def between (first last : Spot) : String :=
  String.ofList (first.rest.take (first.rest.length - last.rest.length))

/-- A literal text of a pattern, in its own case. -/
def exactly (text : String) : Regex := spelled (· = ·) text.toList

/-- `r{0,n}` -/
def upTo (r : Regex) : Nat → Regex
  | 0 => 1
  | n + 1 => opt (r * upTo r n)

/-- `[A-Za-z]{2,}` -/
def topLevel : Regex := .chars Char.isAlpha * some' (.chars Char.isAlpha)

def isLocalPart (c : Char) : Bool := c.isAlphanum || c ∈ ['.', '_', '%', '+', '-']

def isHost (c : Char) : Bool := c.isAlphanum || c = '.' || c = '-'

def isLabel (c : Char) : Bool := c.isAlphanum || c = '-'

/-- `_EMAIL_RE` -/
def EMAIL_RE : Regex :=
  some' (.chars isLocalPart) * exactly "@" * some' (.chars isHost) * exactly "." * topLevel

/-- `(?:[A-Za-z0-9-]+\.)+` -/
def labels : Regex := some' (some' (.chars isLabel) * exactly ".")

def DOMAIN_TLDS : List String := ["com", "org", "net", "io", "edu", "gov", "co"]

section

variable (T : AssertionText)

/-- `match.group(0)` of the matches of a pattern. -/
def wholeMatch (r : Regex) (spot : Spot) : List (String × Spot) :=
  (ends T.isWord r spot).map fun last => (between spot last, last)

/-- `_DOMAIN_RE`, with `match.group(1)` and `match.group(2)`. -/
def DOMAIN_RE (spot : Spot) : List ((String × String) × Spot) := do
  let begun ← ends T.isWord (.wordBoundary * labels) spot
  let done ← ends T.isWord topLevel begun
  let last ← ends T.isWord .wordBoundary done
  return ((between spot done, between begun done), last)

/-- `[^"]{2,60}` -/
def quotedText : Regex :=
  .chars (· ≠ '"') * (.chars (· ≠ '"') * upTo (.chars (· ≠ '"')) 58)

/-- `_QUOTE_RE`, with `match.group(1)`. -/
def QUOTE_RE (spot : Spot) : List (String × Spot) := do
  let begun ← ends T.isWord (exactly "\"") spot
  let done ← ends T.isWord quotedText begun
  let last ← ends T.isWord (exactly "\"") done
  return (between begun done, last)

/-- `_LICENCE_RE` -/
def LICENCE_RE : Regex :=
  let decimals := some' (.chars T.isDecimal)
  .wordBoundary *
    anyOf [exactly "EUPL", exactly "MIT", exactly "Apache", exactly "GPL", exactly "AGPL",
      exactly "LGPL", exactly "BSD"] *
    opt (.chars (fun c => c = '-' || c = ' ') * opt (exactly "v") * decimals *
      opt (exactly "." * decimals)) *
    .wordBoundary

/-- Blank out email addresses before domain matching. -/
def maskEmails (text : String) : String := sub (ends T.isWord EMAIL_RE) " " text

/-- Extract literal quotable facts: email, bare domain, quoted phrase, licence. -/
def literalValues (answer : String) : List String :=
  let emails := findAll (wholeMatch T EMAIL_RE) answer
  let domains := ((findAll (DOMAIN_RE T) (maskEmails T answer)).filter fun found =>
    T.lower found.2 ∈ DOMAIN_TLDS).map Prod.fst
  let quoted := findAll (QUOTE_RE T) answer
  let licences := findAll (wholeMatch T (LICENCE_RE T)) answer
  (OrderedSet.ofList (emails ++ domains ++ quoted ++ licences)).toList

/-! ## Enumerations -/

def STOPWORDS : List String :=
  ["while", "through", "by", "to", "that", "where", "which", "not", "being", "or", "and", "yes",
    "no"]

/-- Remove double-quote punctuation, keeping the quoted fact itself. -/
def stripTypographicQuotes (text : String) : String := " ".intercalate (words (removeQuotes text))

/-- The loop of `_split_top_level_commas`, with the current item in reverse. -/
def splitTopLevel : Int → List Char → List Char → List (List Char)
  | _, current, [] => [current.reverse]
  | depth, current, char :: rest =>
    if char = '(' then splitTopLevel (depth + 1) (char :: current) rest
    else if char = ')' then splitTopLevel (depth - 1) (char :: current) rest
    else if char = ',' && depth = 0 then current.reverse :: splitTopLevel depth [] rest
    else splitTopLevel depth (char :: current) rest

/-- Split on commas outside parentheses so a parenthetical stays one item. -/
def splitTopLevelCommas (text : String) : List String :=
  (splitTopLevel 0 [] text.toList).map fun item => strip (String.ofList item)

/-- `_LEADING_CONJUNCTION_RE`, with `match.group(2)`. -/
def LEADING_CONJUNCTION_RE (text : String) : Option String :=
  capture T.isWord (.start * anyOf [literal "and", literal "or"] * gap) (many (.chars (· ≠ '\n')))
    .finish text

/-- The items without a conjunction before the last. -/
def dropConjunction (items : List String) : List String :=
  match items.getLast?.bind (LEADING_CONJUNCTION_RE T) with
  | some rest => items.dropLast ++ [rest]
  | none => items

/-- Whether an item has its parentheses in pairs and at most four words. -/
def isItem (item : String) : Bool :=
  item.toList.count '(' = item.toList.count ')' && (words item).length ≠ 0 &&
    (words item).length ≤ 4

def isParenthesis (c : Char) : Bool := c = '(' || c = ')'

/-- `re.split(r"\s+", item)[0].lower().strip("()")`, for an item without blanks at its begin. -/
def firstToken (item : String) : String :=
  let token := T.lower (String.ofList (item.toList.takeWhile fun c => !isPythonSpace c))
  String.ofList (((token.toList.dropWhile isParenthesis).reverse.dropWhile isParenthesis).reverse)

/-- Detect an answer that is entirely a short list of concrete items. -/
def enumerationValues (answer : String) : Option (List String) :=
  let stripped := strip answer
  if !endsWith stripped "." then none
  else
    let items := splitTopLevelCommas (String.ofList stripped.toList.dropLast)
    if items.length < 3 then none
    else
      let cleaned := ((dropConjunction T items).map strip).filter (· ≠ "")
      if cleaned.length < 3 then none
      else if !cleaned.all isItem then none
      else if firstToken T (cleaned.headD "") ∈ STOPWORDS then none
      else some (cleaned.map stripTypographicQuotes)

/-! ## Derivation and evaluation -/

/-- Mechanically derive assertions from an expected answer. -/
def deriveAssertions (expectedAnswer : String) : List Assertion :=
  let literals := literalValues T expectedAnswer
  let enumeration := (enumerationValues T expectedAnswer).getD []
  (if literals.isEmpty then [] else [⟨.contains, literals⟩]) ++
    (if enumeration.isEmpty then [] else [⟨.containsAll, enumeration⟩])

/-- Evaluate assertions against a pipeline answer by literal substring match. -/
def evaluateAssertions (answer : String) (assertions : List Assertion) : AssertionOutcome :=
  if assertions.isEmpty then { status := .notApplicable }
  else
    let missing := (assertions.flatMap Assertion.values).filter fun value =>
      !contains (normalize T answer) (normalize T value)
    if missing.isEmpty then { status := .passed } else { status := .failed, missing := missing }

end

end VirtualContributor.Evaluation
