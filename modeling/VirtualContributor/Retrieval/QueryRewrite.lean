import Mathlib.Data.Rat.Floor
import VirtualContributor.Lib.PythonText

/-!
# Query rewriting

The pure parts of `query_rewrite`: the window of the conversation that a
prompt may hold, the decision to rewrite, and the check of what came back.
-/

namespace VirtualContributor.Retrieval

open Lib

inductive MessageSenderRole where
  | HUMAN
  | ASSISTANT
deriving DecidableEq

/-- `role.value`. -/
def MessageSenderRole.value : MessageSenderRole → String
  | HUMAN => "human"
  | ASSISTANT => "assistant"

/-- A formatted role: the name of the member, not its value. -/
def MessageSenderRole.str : MessageSenderRole → String
  | HUMAN => "MessageSenderRole.HUMAN"
  | ASSISTANT => "MessageSenderRole.ASSISTANT"

/-- Single turn in the conversation history. -/
structure HistoryItem where
  content : String
  role : MessageSenderRole

def DEFAULT_MAX_EXPANSION_RATIO : Rat := 8

def MIN_REWRITE_ALLOWANCE : Rat := 120

def DEFAULT_MAX_HISTORY_TURNS : Int := 20

def DEFAULT_MAX_HISTORY_CHARS : Int := 12000

/-! ## The history window -/

/-- `items[-n:]` for a positive `n`. -/
def lastItems {α : Type} (n : Nat) (items : List α) : List α := items.drop (items.length - n)

/-- The loop of `recent_history` over the turns, newest first.  The newest turn
is kept whatever its length. -/
def keepTurns (budget : Int) : List HistoryItem → List HistoryItem → List HistoryItem
  | kept, [] => kept
  | kept, item :: older =>
    let length : Int := item.content.length
    if kept ≠ [] ∧ budget < length then kept
    else keepTurns (budget - length) (item :: kept) older

/-- `recent_history`. -/
def recentHistory (history : List HistoryItem) (maxTurns maxChars : Int) : List HistoryItem :=
  let items := if 0 < maxTurns then lastItems maxTurns.toNat history else history
  if maxChars ≤ 0 then items else keepTurns maxChars [] items.reverse

/-! ## Rewrites -/

/-- `should_rewrite`; a policy says which messages to skip. -/
def shouldRewrite (message : String) (history : List HistoryItem)
    (policy : Option (String → Bool)) : Bool :=
  !history.isEmpty && !policy.any fun shouldSkipRewrite => shouldSkipRewrite message

/-- `validate_rewrite`. -/
def validateRewrite (candidate original : String) (maxExpansionRatio : Rat) : String :=
  let stripped := strip candidate
  let allowance := max (maxExpansionRatio * (strip original).length) MIN_REWRITE_ALLOWANCE
  if stripped = "" ∨ allowance < stripped.length then original else stripped

end VirtualContributor.Retrieval
