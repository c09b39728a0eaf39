import Mathlib.Data.Rat.Defs
import VirtualContributor.Web.Exception

/-!
# Routing

What a query router may decide, and the retrieval settings of each decision.
-/

namespace VirtualContributor.Retrieval

inductive RouteClass where
  | CONVERSATIONAL
  | SIMPLE
  | MODERATE
  | COMPLEX
deriving DecidableEq

/-- Retrieval settings for one route. -/
structure RetrievalProfile where
  retrieve : Bool
  nResults : Nat
  scoreThreshold : Rat
  maxContextChars : Nat

/-- `DEFAULT_ROUTING_TABLE`. -/
def DEFAULT_ROUTING_TABLE : RouteClass → Option RetrievalProfile
  | .CONVERSATIONAL =>
    some { retrieve := false, nResults := 5, scoreThreshold := 3 / 10, maxContextChars := 20000 }
  | .SIMPLE =>
    some { retrieve := true, nResults := 3, scoreThreshold := 3 / 10, maxContextChars := 20000 }
  | .MODERATE =>
    some { retrieve := true, nResults := 5, scoreThreshold := 3 / 10, maxContextChars := 20000 }
  | .COMPLEX =>
    some { retrieve := true, nResults := 10, scoreThreshold := 3 / 10, maxContextChars := 40000 }

/-- `QueryRouterPort.classify`: it may raise, and it may return something that
is no decision. -/
abbrev Classify := String → Except Exc (Option RouteClass)

end VirtualContributor.Retrieval
