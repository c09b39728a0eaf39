import VirtualContributor.Evaluation.Assertions
import VirtualContributor.Evaluation.Metrics
import VirtualContributor.Lib.JsonStyle

/-!
# Identities of cases, test sets and compositions

`evaluation/case_identity.py`, the digests of `evaluation/dataset.py` and the
full fingerprint of `plugins/expert/composition.py`: SHA-256 over canonical
JSON.

`EvaluationHost` has what the evaluation uses and this repository does not
define: the tables of Unicode, floats, SHA-256 and what pydantic reads at a
field of a plain type.
-/

namespace VirtualContributor.Evaluation

open Lib

/-- A character of `0123456789abcdef`. -/
def isHexDigit (c : Char) : Bool := c.isDigit || ('a' ≤ c && c ≤ 'f')

/-- `re.fullmatch(r"[0-9a-f]{64}", value)` -/
def isSha256 (value : String) : Bool :=
  value.toList.length = 64 && value.toList.all isHexDigit

/-- What is read at a field of type `int`, `float` or `bool`: a value of the type as it is, and
values of other types that pydantic converts. -/
structure Coercions (P : PythonFloats) where
  int? : Json → Option Int
  float? : Json → Option P.Float
  bool? : Json → Option Bool
  int?_int : ∀ n, int? (.int n) = some n
  float?_float : ∀ x : P.Float, float? (.float x.val) = some x
  bool?_bool : ∀ b, bool? (.bool b) = some b

structure EvaluationHost where
  unicode : AssertionText
  floats : PythonFloats
  pydantic : Coercions floats
  /-- `hashlib.sha256(….encode("utf-8")).hexdigest()` -/
  sha256 : String → String
  isSha256_sha256 : ∀ text, isSha256 (sha256 text) = true
  /-- `str(exc)` of a `ValidationError`. -/
  validationText : ReadError → String

variable (E : EvaluationHost)

/-! ## Cases -/

structure TestCase where
  question : String
  expectedAnswer : String
  relevantDocuments : List String
  assertions : List Assertion

/-- The fields of a case that its identity is made of. -/
structure CaseIdentity where
  question : String
  expectedAnswer : String
  relevantDocuments : List String
deriving DecidableEq

def TestCase.identity (case : TestCase) : CaseIdentity :=
  ⟨case.question, case.expectedAnswer, case.relevantDocuments⟩

def CASE_IDENTITY_VERSION : String := "evaluation-case-identity/v1"

def evaluationCaseIdentityPayload (case : CaseIdentity) : Json :=
  .obj [("schema", .str CASE_IDENTITY_VERSION), ("question", .str case.question),
    ("expected_answer", .str case.expectedAnswer),
    ("relevant_documents", .arr (case.relevantDocuments.map .str))]

/-- `json.dumps(value, ensure_ascii=False, sort_keys=True, separators=(",", ":"))` -/
def canonicalJson (value : Json) : String :=
  JsonStyle.dumps { ensureAscii := false, itemBlanks := 0, keyBlanks := 0 }
    E.floats.toJsonFloats (sortKeys value)

/-- The identity of a single evaluation input. -/
def evaluationCaseDigest (case : CaseIdentity) : String :=
  E.sha256 (canonicalJson E (evaluationCaseIdentityPayload case))

/-- The identity of a dataset, with the order of its cases. -/
def orderedEvaluationCaseDigest (cases : List CaseIdentity) : String :=
  E.sha256 (canonicalJson E (.arr (cases.map evaluationCaseIdentityPayload)))

def canonicalTestSetDigest (cases : List TestCase) : String :=
  orderedEvaluationCaseDigest E (cases.map TestCase.identity)

def successfulCaseDigest (case : TestCase) : String := evaluationCaseDigest E case.identity

/-! ## Compositions -/

def HIERARCHY_MODES : List String := ["flat", "hierarchical"]

/-- What the full fingerprint of a composition is the digest of. -/
def fullCompositionPayload (invariant mode : String) : String :=
  JsonStyle.dumps { itemBlanks := 0, keyBlanks := 0 } E.floats.toJsonFloats
    (sortKeys (.obj [("schema", .str "expert-composition/v7"), ("invariant", .str invariant),
      ("mode", .str mode)]))

def expertFullCompositionFingerprint (invariant mode : String) : Except String String :=
  if mode ∉ HIERARCHY_MODES then
    .error "Expert composition mode must be flat or hierarchical"
  else if !isSha256 invariant then
    .error "Expert invariant fingerprint must be a SHA-256 hex digest"
  else .ok (E.sha256 (fullCompositionPayload E invariant mode))

/-- The characters of a corpus revision behind the first. -/
def isRevisionChar (c : Char) : Bool :=
  c.isAlphanum || c ∈ ['.', '_', ':', '@', '/', '-']

/-- The pattern of a corpus revision: a letter or a digit, and up to 127 characters more. -/
def isSafeRevision (revision : String) : Bool :=
  match revision.toList with
  | [] => false
  | c :: rest => c.isAlphanum && rest.length ≤ 127 && rest.all isRevisionChar

end VirtualContributor.Evaluation
