import VirtualContributor.Lib.TextTables

/-!
# Document predicates

`ChromaDBAdapter._document_predicate`: the predicate over the text of a
document that is built from the terms of a query, and what the store makes of
it.  A pattern of the predicate is `(?i)` and an escaped term; the store
compares the characters by simple case folding.

* `readLiteral_escape`: an escaped term stands for itself.
* `satisfiedBy_documentPredicate`: a document satisfies the predicate when one
  of the terms occurs in it, up to case.
-/

namespace VirtualContributor.Adapters

open Lib

/-! ## The predicate -/

/-- The characters that `re.escape` puts a backslash before. -/
def isSpecial (c : Char) : Bool :=
  "()[]{}?*+-|^$\\.&~# \t\n\r\x0b\x0c".toList.contains c

/-- `re.escape(term)`. -/
def escape (term : List Char) : List Char :=
  term.flatMap fun c => if isSpecial c then ['\\', c] else [c]

/-- A `where_document` predicate: `$regex` and `$or`. -/
inductive DocumentPredicate where
  | regex (pattern : String)
  | or (clauses : List DocumentPredicate)

/-- The `$regex` of one term. -/
def termPredicate (term : String) : DocumentPredicate :=
  .regex ("(?i)" ++ String.ofList (escape term.toList))

/-- A single term uses the bare form. -/
def documentPredicate (terms : List String) : DocumentPredicate :=
  match terms.map termPredicate with
  | [predicate] => predicate
  | predicates => .or predicates

/-! ## The store -/

/-- The Unicode tables with simple case folding.  A character whose full
folding is one character folds to the same in both ways. -/
structure FoldingText extends UnicodeText where
  simpleFold : Char → Char
  foldChar_ne_nil : ∀ c, foldChar c ≠ []
  foldChar_one : ∀ c d, foldChar c = [d] → simpleFold d = simpleFold c

/-- The characters that a pattern of literal characters stands for. -/
def readLiteral : List Char → Option (List Char)
  | [] => some []
  | '\\' :: c :: rest => if isSpecial c then (readLiteral rest).map (c :: ·) else none
  | c :: rest => if isSpecial c then none else (readLiteral rest).map (c :: ·)

/-- The literal after `(?i)`. -/
def readPattern : List Char → Option (List Char)
  | '(' :: '?' :: 'i' :: ')' :: rest => readLiteral rest
  | _ => none

section Store

variable (T : FoldingText)

/-- The characters of a text, folded one by one. -/
def foldedText (text : String) : List Char := text.toList.map T.simpleFold

/-- Whether the literal of a pattern occurs in a document, up to case. -/
def matchesPattern (pattern document : String) : Bool :=
  match readPattern pattern.toList with
  | some literal => (foldedText T document).tails.any ((literal.map T.simpleFold).isPrefixOf ·)
  | none => false

mutual

/-- Whether a document satisfies a predicate. -/
def DocumentPredicate.satisfiedBy (document : String) : DocumentPredicate → Bool
  | .regex pattern => matchesPattern T pattern document
  | .or clauses => anySatisfied document clauses

/-- Whether a document satisfies some clause. -/
def anySatisfied (document : String) : List DocumentPredicate → Bool
  | [] => false
  | clause :: clauses => clause.satisfiedBy document || anySatisfied document clauses

end

/-! ## Meaning -/

theorem readLiteral_escape (term : List Char) : readLiteral (escape term) = some term := by
  induction term with
  | nil => rfl
  | cons c term ih =>
    have hcons : escape (c :: term) =
        (if isSpecial c then ['\\', c] else [c]) ++ escape term := List.flatMap_cons
    rw [hcons]
    by_cases hspecial : isSpecial c = true
    · rw [if_pos hspecial]
      show readLiteral ('\\' :: c :: escape term) = _
      rw [readLiteral, if_pos hspecial, ih]
      rfl
    · rw [if_neg hspecial]
      have hslash : c ≠ '\\' := by
        rintro rfl
        exact hspecial (by decide)
      show readLiteral (c :: escape term) = _
      rw [readLiteral, if_neg hspecial, ih]
      · rfl
      · intro d rest h
        exact absurd h hslash

theorem satisfiedBy_termPredicate {document term : String} :
    (termPredicate term).satisfiedBy T document = true ↔
      foldedText T term <:+: foldedText T document := by
  have hread : readPattern ("(?i)" ++ String.ofList (escape term.toList)).toList =
      some term.toList := by
    rw [String.toList_append, String.toList_ofList (l := escape term.toList)]
    exact readLiteral_escape term.toList
  unfold termPredicate DocumentPredicate.satisfiedBy matchesPattern
  rw [hread]
  exact tails_any_isPrefixOf

theorem anySatisfied_iff {document : String} {clauses : List DocumentPredicate} :
    anySatisfied T document clauses = true ↔
      ∃ clause ∈ clauses, clause.satisfiedBy T document = true := by
  induction clauses with
  | nil => simp [anySatisfied]
  | cons clause clauses ih =>
    rw [anySatisfied, Bool.or_eq_true, ih]
    simp

/-- One of the terms occurs in the document, up to case. -/
theorem satisfiedBy_documentPredicate {document : String} {terms : List String} :
    (documentPredicate terms).satisfiedBy T document = true ↔
      ∃ term ∈ terms, foldedText T term <:+: foldedText T document := by
  have hany : anySatisfied T document (terms.map termPredicate) = true ↔
      ∃ term ∈ terms, foldedText T term <:+: foldedText T document := by
    rw [anySatisfied_iff]
    simp only [List.mem_map, exists_exists_and_eq_and, satisfiedBy_termPredicate]
  unfold documentPredicate
  split
  · rename_i predicate hone
    rw [hone, anySatisfied, anySatisfied, Bool.or_false] at hany
    exact hany
  · rw [DocumentPredicate.satisfiedBy]
    exact hany

end Store

end VirtualContributor.Adapters
