import Mathlib
import VirtualContributor.Adapters.DocumentPredicate
import VirtualContributor.Retrieval.QueryTerms

/-!
# Terms and their documents

A word of a query is sent to the store in its full case folding, and the store
compares by simple case folding.

* `matches_own_iff`: the documents that contain a word as it was written match
  when no character of it folds to several, and else only through another word
  of the query.
-/

namespace VirtualContributor.Retrieval

open Lib Adapters

section

variable (T : FoldingText)

/-- A word of a query whose folding is one of the terms. -/
structure Kept (query : String) (minLen maxTerms : Nat) (word : String) : Prop where
  mem_words : word ∈ wordSplit T.toUnicodeText query
  folded : T.casefold word ∈ extractTerms T.toUnicodeText query minLen maxTerms

/-- No character of a word folds to several. -/
def FoldsOneByOne (word : String) : Prop := ∀ c ∈ word.toList, (T.foldChar c).length = 1

/-- Another word that the query keeps occurs in a word, up to case. -/
def HoldsAnother (query : String) (minLen maxTerms : Nat) (word : String) : Prop :=
  ∃ other, Kept T query minLen maxTerms other ∧ T.casefold other ≠ T.casefold word ∧
    foldedText T (T.casefold other) <:+: foldedText T word

variable {T}

/-! ## Terms are folded words -/

theorem mem_collectTerms {U : UnicodeText} {minLen maxTerms : Nat} {terms pieces : List String}
    {term : String} (h : term ∈ collectTerms U minLen maxTerms terms pieces) :
    term ∈ terms ∨ ∃ raw ∈ pieces, U.casefold raw = term := by
  induction pieces generalizing terms with
  | nil => exact .inl h
  | cons raw rest ih =>
    rw [collectTerms] at h
    split at h
    · obtain hterms | ⟨raw', hmem, hfold⟩ := ih h
      · exact .inl hterms
      · exact .inr ⟨raw', List.mem_cons_of_mem _ hmem, hfold⟩
    · have hsplit : term ∈ terms ++ [U.casefold raw] ∨
          ∃ raw' ∈ rest, U.casefold raw' = term := by
        split at h
        · exact .inl h
        · exact ih h
      obtain hterms | ⟨raw', hmem, hfold⟩ := hsplit
      · obtain hterms | hlast := List.mem_append.mp hterms
        · exact .inl hterms
        · exact .inr ⟨raw, List.mem_cons_self, (List.mem_singleton.mp hlast).symm⟩
      · exact .inr ⟨raw', List.mem_cons_of_mem _ hmem, hfold⟩

/-- Every term is the folding of a word that is kept. -/
theorem exists_kept {query : String} {minLen maxTerms : Nat} {term : String}
    (h : term ∈ extractTerms T.toUnicodeText query minLen maxTerms) :
    ∃ word, Kept T query minLen maxTerms word ∧ T.casefold word = term := by
  have hterm := h
  unfold extractTerms at h
  split at h
  · exact absurd h List.not_mem_nil
  · obtain hnil | ⟨word, hmem, hfold⟩ := mem_collectTerms h
    · exact absurd hnil List.not_mem_nil
    · exact ⟨word, ⟨hmem, hfold ▸ hterm⟩, hfold⟩

/-! ## Full and simple folding -/

theorem length_foldedText (text : String) : (foldedText T text).length = text.length := by
  unfold foldedText
  rw [List.length_map, String.length_toList]

/-- The full folding of a word is no shorter than the word, and longer when a
character folds to several. -/
theorem length_flatMap_foldChar (letters : List Char) :
    letters.length ≤ (letters.flatMap T.foldChar).length ∧
      ((letters.flatMap T.foldChar).length ≤ letters.length →
        ∀ c ∈ letters, (T.foldChar c).length = 1) := by
  induction letters with
  | nil => simp
  | cons c letters ih =>
    have hpos := List.length_pos_iff.mpr (T.foldChar_ne_nil c)
    rw [List.flatMap_cons, List.length_append, List.length_cons]
    refine ⟨by omega, fun hle => ?_⟩
    exact List.forall_mem_cons.mpr ⟨by omega, ih.2 (by omega)⟩

/-- Characters that fold to one fold alike in both ways. -/
theorem map_simpleFold_flatMap {letters : List Char}
    (h : ∀ c ∈ letters, (T.foldChar c).length = 1) :
    (letters.flatMap T.foldChar).map T.simpleFold = letters.map T.simpleFold := by
  induction letters with
  | nil => rfl
  | cons c letters ih =>
    obtain ⟨hc, hletters⟩ := List.forall_mem_cons.mp h
    obtain ⟨d, hd⟩ := List.length_eq_one_iff.mp hc
    rw [List.flatMap_cons, hd, List.singleton_append, List.map_cons, List.map_cons,
      T.foldChar_one c d hd, ih hletters]

/-- The folding of a word occurs in the word exactly when its characters fold
one by one. -/
theorem folding_occurs_iff {word : String} :
    foldedText T (T.casefold word) <:+: foldedText T word ↔ FoldsOneByOne T word := by
  obtain ⟨hlonger, hsame⟩ := length_flatMap_foldChar (T := T) word.toList
  have hfolding : foldedText T (T.casefold word) =
      (word.toList.flatMap T.foldChar).map T.simpleFold := by
    unfold foldedText UnicodeText.casefold
    rw [String.toList_ofList]
  rw [hfolding]
  constructor
  · intro hpart
    have hle := hpart.length_le
    rw [List.length_map, length_foldedText, ← String.length_toList] at hle
    exact hsame hle
  · intro hone
    rw [map_simpleFold_flatMap hone]
    exact List.infix_rfl

/-! ## Own documents -/

/-- A text that a document contains is there up to case. -/
theorem foldedText_infix_of_contains {document word : String} (h : contains document word = true) :
    foldedText T word <:+: foldedText T document := by
  exact (tails_any_isPrefixOf.mp h).map T.simpleFold

theorem contains_self (word : String) : contains word word = true :=
  tails_any_isPrefixOf.mpr List.infix_rfl

end

/-- Every document with a word of the query in it, as it was written, matches
exactly when no character of the word folds to several, or another word that
the query keeps occurs in it. -/
theorem matches_own_iff (T : FoldingText) (query : String) (minLen maxTerms : Nat) (word : String)
    (hkept : Kept T query minLen maxTerms word) :
    (∀ document, contains document word = true →
      (documentPredicate (extractTerms T.toUnicodeText query minLen maxTerms)).satisfiedBy T
        document = true) ↔
      FoldsOneByOne T word ∨ HoldsAnother T query minLen maxTerms word := by
  simp only [satisfiedBy_documentPredicate]
  constructor
  · intro h
    obtain ⟨term, hterm, hpart⟩ := h word (contains_self word)
    obtain ⟨other, hother, rfl⟩ := exists_kept hterm
    by_cases hsame : T.casefold other = T.casefold word
    · rw [hsame] at hpart
      exact .inl (folding_occurs_iff.mp hpart)
    · exact .inr ⟨other, hother, hsame, hpart⟩
  · intro h document hcontains
    have hdocument := foldedText_infix_of_contains (T := T) hcontains
    obtain hone | ⟨other, hother, _, hpart⟩ := h
    · exact ⟨T.casefold word, hkept.folded, (folding_occurs_iff.mpr hone).trans hdocument⟩
    · exact ⟨T.casefold other, hother.folded, hpart.trans hdocument⟩

/-! ## A word with a sharp s -/

/-- Tables of ASCII and the sharp s, which folds to two letters. -/
def germanText : FoldingText where
  toUnicodeText :=
    { asciiUnicode with
      foldChar c := if c = 'ß' then ['s', 's'] else [c.toLower]
      isWord c := c.isAlphanum || c = '_' || c = 'ß' }
  simpleFold := Char.toLower
  foldChar_ne_nil c := by
    dsimp only
    split <;> exact List.cons_ne_nil _ _
  foldChar_one c d h := by
    dsimp only at h
    split at h
    · cases h
    · obtain rfl := List.singleton_inj.mp h
      exact Char.toLower_toLower_eq_toLower c

theorem matches_own_iff_berlin :
    (documentPredicate (extractTerms germanText.toUnicodeText "Wo ist Berlin?" 3 8)).satisfiedBy
      germanText "Das ist Berlin." = true := by
  have hones : FoldsOneByOne germanText "Berlin" :=
    List.all_iff_forall_prop.mp (by decide +kernel)
  exact (matches_own_iff germanText "Wo ist Berlin?" 3 8 "Berlin"
    ⟨by decide +kernel, by decide +kernel⟩).mpr (.inl hones) _ (by decide +kernel)

theorem sharp_s_misses_own_document :
    Kept germanText "Straße" 3 8 "Straße" ∧ contains "Straße" "Straße" = true ∧
      (documentPredicate (extractTerms germanText.toUnicodeText "Straße" 3 8)).satisfiedBy
        germanText "Straße" = false := by
  refine ⟨⟨by decide +kernel, by decide +kernel⟩, by decide +kernel, by decide +kernel⟩

end VirtualContributor.Retrieval
