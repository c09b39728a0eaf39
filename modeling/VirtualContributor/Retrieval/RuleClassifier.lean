import VirtualContributor.Lib.Regex
import VirtualContributor.Lib.TextTables
import VirtualContributor.Retrieval.Routing

/-!
# The rule classifier

`rule_classifier`: how much retrieval a question deserves, by its wording.
The patterns are written as in the source, one alternative after the other.
-/

namespace VirtualContributor.Retrieval

open Lib Lib.Regex

/-! ## Pieces of patterns -/

/-- Whether a lower-case letter or a sign of a pattern matches a character
with `re.IGNORECASE`. -/
def sameIgnoringCase (pattern c : Char) : Bool :=
  c.toLower = pattern || (pattern = 'i' && (c = 'İ' || c = 'ı')) ||
    (pattern = 's' && c = 'ſ') || (pattern = 'k' && c = '\u212a')

/-- A literal text of a pattern. -/
def literal (text : String) : Regex := spelled sameIgnoringCase text.toList

/-- `[...]` with some letters. -/
def oneOf (letters : List Char) : Regex := .chars fun c => letters.any (sameIgnoringCase · c)

/-- `\s+` -/
def gap : Regex := some' (.chars isPythonSpace)

/-- Literal texts with `\s+` between them. -/
def phrase : List String → Regex
  | [] => 1
  | [text] => literal text
  | text :: texts => literal text * gap * phrase texts

/-! ## Small talk -/

def MAX_CONVERSATIONAL_WORDS : Nat := 6

def MAX_CLASSIFIED_CHARS : Nat := 4096

/-- How a message of small talk begins. -/
def smallTalkOpening : Regex := anyOf [
  anyOf [literal "hi", literal "hey", literal "hello", literal "yo", literal "greetings"],
  literal "good" * gap *
    anyOf [literal "morning", literal "afternoon", literal "evening", literal "day"],
  anyOf [literal "thank" * opt (literal "s"), phrase ["thank", "you"], literal "thx", literal "ty",
    literal "cheers", phrase ["much", "appreciated"]],
  anyOf [literal "ok", literal "okay", literal "alright", literal "cool", literal "nice",
    literal "great", literal "awesome", literal "perfect", literal "excellent"],
  anyOf [phrase ["got", "it"], literal "understood", phrase ["makes", "sense"], literal "noted",
    phrase ["fair", "enough"], phrase ["will", "do"]],
  anyOf [literal "bye", literal "goodbye", phrase ["see", "you"], literal "later",
    literal "farewell", phrase ["take", "care"]],
  anyOf [literal "sorry", phrase ["my", "bad"], phrase ["no", "worries"], literal "np"],
  anyOf [phrase ["how", "are", "you"], phrase ["how's", "it", "going"], phrase ["what's", "up"],
    literal "sup"]]

/-- What may follow. -/
def smallTalkClosing : Regex := anyOf [
  literal "there", literal "all", literal "everyone", literal "again", phrase ["so", "much"],
  phrase ["a", "lot"], phrase ["very", "much"], literal "mate", literal "friend", literal "team",
  literal "that" * gap * opt (literal "was" * gap) *
    anyOf [literal "helpful", literal "great", literal "useful", literal "perfect"],
  literal "for" * gap * anyOf [literal "that", phrase ["the", "help"], phrase ["your", "help"]],
  literal "and" * gap * anyOf [literal "thank" * opt (literal "s"), literal "bye",
    literal "goodbye"],
  literal "cheers", literal "thank" * opt (literal "s"), literal "bye", literal "goodbye",
  literal "ok", literal "okay"]

/-- `[\s,!.\-–—]` -/
def isSeparator (c : Char) : Bool := isPythonSpace c || c ∈ [',', '!', '.', '-', '–', '—']

/-- `[\s,!.…\-–—]` -/
def isTrailing (c : Char) : Bool := isSeparator c || c = '…'

/-- `_CONVERSATIONAL_RE` between its anchors. -/
def smallTalk : Regex :=
  many (.chars isPythonSpace) * smallTalkOpening *
    many (some' (.chars isSeparator) * smallTalkClosing) * many (.chars isTrailing)

def CONVERSATIONAL_RE : Regex := .start * smallTalk * .finish

/-! ## Questions -/

section

variable (T : UnicodeText)

/-- `\w+` -/
def wordChars : Regex := some' (.chars T.isWord)

def COMPLEX_RE : Regex := .wordBoundary * anyOf [
  literal "compare" * opt (oneOf ['d', 's']), literal "comparison",
  literal "contrast" * opt (literal "ed" + literal "ing"),
  literal "difference" * opt (oneOf ['s']) * gap * literal "between",
  literal "differ" * opt (literal "s" + literal "ence") * gap * literal "from",
  literal "versus", literal "vs" * opt (literal "."),
  literal "relate" * opt (oneOf ['s', 'd']) * gap * literal "to",
  phrase ["relationship", "between"], phrase ["connection", "between"],
  literal "both" * gap * wordChars T * gap * literal "and",
  literal "between" * gap * wordChars T * gap * literal "and",
  literal "trade" * opt (literal "-") * literal "off" * opt (literal "s"),
  phrase ["pros", "and", "cons"],
  literal "prioriti" * oneOf ['s', 'z'] * literal "e" * opt (oneOf ['s', 'd']),
  literal "rank" * opt (literal "ing") * gap * wordChars T * gap * literal "against",
  phrase ["which", "of"] * gap * anyOf [literal "these", literal "them", literal "the"],
  literal "across" * gap *
    anyOf [literal "all", literal "multiple", literal "several", literal "both"],
  phrase ["impact", "of"] * gap * wordChars T * gap * literal "on"] * .wordBoundary

def MODERATE_RE : Regex := .start * many (.chars isPythonSpace) * anyOf [
  literal "how" * .wordBoundary, literal "why" * .wordBoundary,
  literal "explain" * .wordBoundary, literal "describe" * .wordBoundary,
  phrase ["walk", "me", "through"] * .wordBoundary,
  literal "what" * gap * anyOf [literal "happens", literal "does",
    phrase ["is", "the"] * gap *
      anyOf [literal "process", literal "purpose", literal "point", literal "rationale"]] *
    .wordBoundary,
  phrase ["tell", "me"] * gap * (literal "about" + literal "more") * .wordBoundary,
  phrase ["can", "you"] * gap *
    anyOf [literal "explain", literal "describe", literal "elaborate"] * .wordBoundary,
  phrase ["in", "what", "way"]]

/-! ## Classification -/

/-- The chosen route and why. -/
structure RoutingDecision where
  route : RouteClass
  reason : String
deriving DecidableEq

/-- `RuleQueryClassifier._is_conversational`. -/
def isConversational (message : String) : Bool :=
  if '?' ∈ message.toList then false
  else if MAX_CONVERSATIONAL_WORDS < (words message).length then false
  else isMatch T.isWord CONVERSATIONAL_RE message

/-- `message[:MAX_CLASSIFIED_CHARS]`. -/
def examined (message : String) : String :=
  String.ofList (message.toList.take MAX_CLASSIFIED_CHARS)

/-- `RuleQueryClassifier.classify`. -/
def classify (message : String) : RoutingDecision :=
  if message = "" then ⟨.SIMPLE, "empty message"⟩
  else
    let message := examined message
    if strip message = "" then ⟨.SIMPLE, "empty message"⟩
    else if isConversational T message then ⟨.CONVERSATIONAL, "whole message is small talk"⟩
    else if search T.isWord (COMPLEX_RE T) message then
      ⟨.COMPLEX, "comparative or multi-hop marker"⟩
    else if isMatch T.isWord MODERATE_RE message then ⟨.MODERATE, "explanatory opener"⟩
    else ⟨.SIMPLE, "no marker matched (default)"⟩

end

end VirtualContributor.Retrieval
