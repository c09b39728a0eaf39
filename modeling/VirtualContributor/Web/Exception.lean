import Mathlib.Data.List.Basic

/-!
# Exceptions

The exceptions that cross module boundaries as values: into an error text, the
name of a type, or an `except` clause.
-/

namespace VirtualContributor

/-- The classes that some `except` clause or `isinstance` test names. -/
inductive ExcClass where
  | timeoutError
  | llmInvocationTimeoutError
  | embeddingError
  | embeddingInputError
  | embeddingPermanentError
deriving DecidableEq

/-- A raised exception: `type(exc).__name__`, `str(exc)` and the named classes
it is an instance of. -/
structure Exc where
  typeName : String
  text : String := ""
  classes : List ExcClass := []

/-- `isinstance(exc, cls)`. -/
def Exc.isInstance (exc : Exc) (cls : ExcClass) : Bool := cls ∈ exc.classes

end VirtualContributor
