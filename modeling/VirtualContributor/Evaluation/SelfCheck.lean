import VirtualContributor.Evaluation.Assertions
import VirtualContributor.Lib.Spacing
import VirtualContributor.Lib.Substitution

/-!
# Assertions and the answer they are derived from

Every literal value is a part of the answer, and `_normalize` keeps parts
parts.  The values of an enumeration are no parts: their double quotes are
removed, and a base character and a combining one that a quote kept apart come
together.  `evaluate_own_iff` says that a derived assertion fails on its own
answer only through such a pair, which NFC composes in the value and leaves in
the answer.

There are four groups.

* Parts of the answer that the patterns and the enumeration find.
* The normalised text as a function of the characters.
* The values of an enumeration.
* The result.
-/

namespace VirtualContributor.Evaluation

open Lib Lib.Regex Retrieval

/-! ## Parts of the answer -/

theorem mem_findFrom {α : Type} {step : Spot → List (α × Spot)}
    (hstep : ∀ spot found next, (found, next) ∈ step spot → next.rest <:+ spot.rest) {n : Nat}
    {spot : Spot} {found : α} (h : found ∈ findFrom step n spot) :
    ∃ first next, first.rest <:+ spot.rest ∧ (found, next) ∈ step first := by
  induction n generalizing spot with
  | zero => simp [findFrom] at h
  | succ n ih =>
    obtain ⟨prev, rest⟩ := spot
    cases rest with
    | nil => simp [findFrom] at h
    | cons c rest =>
      rw [findFrom] at h
      dsimp only at h
      split at h
      · obtain ⟨first, next, hsuffix, hmem⟩ := ih h
        exact ⟨first, next, hsuffix.trans (List.suffix_cons c rest), hmem⟩
      · rename_i other next hhead
        have hmatch := List.mem_of_mem_head? hhead
        obtain rfl | h := List.mem_cons.mp h
        · exact ⟨_, next, List.suffix_rfl, hmatch⟩
        · obtain ⟨first, last, hsuffix, hmem⟩ := ih h
          exact ⟨first, last, hsuffix.trans (hstep _ _ _ hmatch), hmem⟩

theorem between_isInfix (first last : Spot) : (between first last).toList <:+: first.rest := by
  rw [between, String.toList_ofList]
  exact (List.take_prefix _ _).isInfix

section

variable {T : AssertionText}

theorem wholeMatch_isInfix {r : Regex} {text found : String}
    (h : found ∈ findAll (wholeMatch T r) text) : found.toList <:+: text.toList := by
  have hstep : ∀ spot found next, (found, next) ∈ wholeMatch T r spot →
      next.rest <:+ spot.rest := by
    intro spot found next hmem
    obtain ⟨last, hlast, heq⟩ := List.mem_map.mp hmem
    obtain ⟨_, rfl⟩ := Prod.mk.inj heq
    exact ends_suffix hlast
  obtain ⟨first, next, hsuffix, hmem⟩ := mem_findFrom hstep h
  obtain ⟨last, _, heq⟩ := List.mem_map.mp hmem
  obtain ⟨rfl, _⟩ := Prod.mk.inj heq
  exact (between_isInfix first last).trans hsuffix.isInfix

theorem quoted_isInfix {text found : String} (h : found ∈ findAll (QUOTE_RE T) text) :
    found.toList <:+: text.toList := by
  have hstep : ∀ spot found next, (found, next) ∈ QUOTE_RE T spot →
      next.rest <:+ spot.rest ∧ found.toList <:+: spot.rest := by
    intro spot found next hmem
    obtain ⟨begun, hbegun, hmem⟩ := List.mem_flatMap.mp hmem
    obtain ⟨done, hdone, hmem⟩ := List.mem_flatMap.mp hmem
    obtain ⟨last, hlast, hmem⟩ := List.mem_flatMap.mp hmem
    obtain ⟨rfl, rfl⟩ := Prod.mk.inj (List.mem_singleton.mp hmem)
    exact ⟨(ends_suffix hlast).trans ((ends_suffix hdone).trans (ends_suffix hbegun)),
      (between_isInfix begun done).trans (ends_suffix hbegun).isInfix⟩
  obtain ⟨first, next, hsuffix, hmem⟩ :=
    mem_findFrom (fun spot found next hmem => (hstep spot found next hmem).1) h
  exact (hstep first found next hmem).2.trans hsuffix.isInfix

/-- A domain has no blank in it. -/
theorem domain_isInfix {text : String} {found : String × String}
    (h : found ∈ findAll (DOMAIN_RE T) text) :
    found.1.toList <:+: text.toList ∧ ' ' ∉ found.1.toList := by
  have hstep : ∀ spot found next, (found, next) ∈ DOMAIN_RE T spot →
      next.rest <:+ spot.rest ∧ found.1.toList <:+: spot.rest ∧ ' ' ∉ found.1.toList := by
    intro spot found next hmem
    obtain ⟨begun, hbegun, hmem⟩ := List.mem_flatMap.mp hmem
    obtain ⟨done, hdone, hmem⟩ := List.mem_flatMap.mp hmem
    obtain ⟨last, hlast, hmem⟩ := List.mem_flatMap.mp hmem
    obtain ⟨rfl, rfl⟩ := Prod.mk.inj (List.mem_singleton.mp hmem)
    refine ⟨(ends_suffix hlast).trans ((ends_suffix hdone).trans (ends_suffix hbegun)),
      between_isInfix spot done, ?_⟩
    obtain ⟨start, hstart, hlabels⟩ := List.mem_flatMap.mp hbegun
    have hstart : start = spot := by
      simp only [ends] at hstart
      split at hstart
      · exact List.mem_singleton.mp hstart
      · exact absurd hstart List.not_mem_nil
    subst hstart
    obtain ⟨u, hu, hreads⟩ := (ends_iff (show labels.plain = true from rfl)).mp hlabels
    obtain ⟨v, hv, hmore⟩ := (ends_iff (show topLevel.plain = true from rfl)).mp hdone
    have hbetween : (between start done).toList = u ++ v := by
      have hlength := Spot.length_rest_of_reads hreads
      have hlength' := Spot.length_rest_of_reads hmore
      have htake : start.rest.length - done.rest.length = (u ++ v).length := by
        rw [List.length_append]
        omega
      rw [between, String.toList_ofList, htake, hreads.1, hmore.1, ← List.append_assoc]
      exact List.take_left
    rw [hbetween, List.mem_append, not_or]
    exact ⟨not_mem_of_rejects (by decide) hu, not_mem_of_rejects (by decide) hv⟩
  obtain ⟨first, next, hsuffix, hmem⟩ :=
    mem_findFrom (fun spot found next hmem => (hstep spot found next hmem).1) h
  obtain ⟨_, hpart, hspace⟩ := hstep first found next hmem
  exact ⟨hpart.trans hsuffix.isInfix, hspace⟩

/-- What has no blank is a part of the answer if it is one of the masked answer. -/
theorem infix_of_maskEmails {text part : String} (hpart : ' ' ∉ part.toList)
    (h : part.toList <:+: (maskEmails T text).toList) : part.toList <:+: text.toList := by
  rw [maskEmails, toList_sub rfl] at h
  refine infix_of_replaced rfl (by simp) ?_ h
  intro c hc hmem
  obtain rfl := List.mem_singleton.mp hmem
  exact hpart hc

theorem literalValues_isInfix {answer value : String} (h : value ∈ literalValues T answer) :
    value.toList <:+: answer.toList := by
  have hmem := OrderedSet.mem_ofList.mp (OrderedSet.mem_def.mpr h)
  simp only [List.mem_append] at hmem
  obtain ((hemail | hdomain) | hquote) | hlicence := hmem
  · exact wholeMatch_isInfix hemail
  · obtain ⟨found, hfound, rfl⟩ := List.mem_map.mp hdomain
    obtain ⟨hpart, hspace⟩ := domain_isInfix (List.mem_filter.mp hfound).1
    exact infix_of_maskEmails hspace hpart
  · exact quoted_isInfix hquote
  · exact wholeMatch_isInfix hlicence

theorem strip_isInfix (text : String) : (strip text).toList <:+: text.toList := by
  rw [strip, String.toList_ofList]
  have hdrop : (text.toList.dropWhile isPythonSpace).reverse.dropWhile isPythonSpace <:+:
      (text.toList.dropWhile isPythonSpace).reverse := (List.dropWhile_suffix _).isInfix
  rw [← List.reverse_infix, List.reverse_reverse] at hdrop
  exact hdrop.trans (List.dropWhile_suffix _).isInfix

theorem splitTopLevel_isInfix {text current item : List Char} {depth : Int}
    (h : item ∈ splitTopLevel depth current text) : item <:+: current.reverse ++ text := by
  induction text generalizing depth current with
  | nil =>
    obtain rfl := List.mem_singleton.mp h
    simp
  | cons c rest ih =>
    have hmore : ∀ {depth : Int}, item ∈ splitTopLevel depth (c :: current) rest →
        item <:+: current.reverse ++ c :: rest := by
      intro depth hmem
      simpa using ih hmem
    rw [splitTopLevel] at h
    split at h
    · exact hmore h
    · split at h
      · exact hmore h
      · split at h
        · obtain rfl | h := List.mem_cons.mp h
          · exact (List.prefix_append _ _).isInfix
          · have hrest : item <:+: rest := by simpa using ih h
            exact hrest.trans ⟨current.reverse ++ [c], [], by simp⟩
        · exact hmore h

theorem splitTopLevelCommas_isInfix {text item : String} (h : item ∈ splitTopLevelCommas text) :
    item.toList <:+: text.toList := by
  obtain ⟨letters, hletters, rfl⟩ := List.mem_map.mp h
  have hpart := splitTopLevel_isInfix hletters
  refine (strip_isInfix _).trans ?_
  rw [String.toList_ofList]
  simpa using hpart

theorem dropConjunction_isInfix {items : List String} {text : List Char} {item : String}
    (hitems : ∀ item ∈ items, item.toList <:+: text) (h : item ∈ dropConjunction T items) :
    item.toList <:+: text := by
  unfold dropConjunction at h
  split at h
  · rename_i rest hrest
    obtain ⟨last, hlast, hcapture⟩ := Option.bind_eq_some_iff.mp hrest
    rw [List.mem_append, List.mem_singleton] at h
    obtain h | rfl := h
    · exact hitems item (List.dropLast_subset _ h)
    · exact (capture_isInfix hcapture).trans (hitems last (List.mem_of_mem_getLast? hlast))
  · exact hitems item h

/-- The values of an enumeration are parts of the answer without their quotes. -/
theorem exists_of_enumerationValues {answer value : String} {values : List String}
    (h : enumerationValues T answer = some values) (hvalue : value ∈ values) :
    ∃ item : String, item.toList <:+: answer.toList ∧ value = stripTypographicQuotes item := by
  unfold enumerationValues at h
  dsimp only at h
  split at h
  · simp at h
  · split at h
    · simp at h
    · split at h
      · simp at h
      · split at h
        · simp at h
        · split at h
          · simp at h
          · obtain rfl := Option.some.inj h
            obtain ⟨item, hitem, rfl⟩ := List.mem_map.mp hvalue
            refine ⟨item, ?_, rfl⟩
            obtain ⟨other, hother, rfl⟩ := List.mem_map.mp (List.mem_filter.mp hitem).1
            refine (strip_isInfix other).trans (dropConjunction_isInfix ?_ hother)
            intro item hitem
            refine (splitTopLevelCommas_isInfix hitem).trans ?_
            rw [String.toList_ofList]
            exact (List.dropLast_prefix _).isInfix.trans (strip_isInfix answer)

end

/-! ## The normalised text -/

def unquoted (letters : List Char) : List Char :=
  letters.filter fun c => c ∉ TYPOGRAPHIC_DOUBLE_QUOTES

theorem toList_removeQuotes (text : String) :
    (removeQuotes text).toList = unquoted text.toList := by
  simp only [removeQuotes, TYPOGRAPHIC_DOUBLE_QUOTES, List.foldl_cons, List.foldl_nil, removeChar,
    String.toList_ofList, List.filter_filter, unquoted]
  congr 1
  funext c
  simp only [List.mem_cons, List.not_mem_nil, or_false, not_or, Bool.decide_and]
  ac_rfl

theorem toList_stripTypographicQuotes (text : String) :
    (stripTypographicQuotes text).toList = spaced (unquoted text.toList) := by
  rw [stripTypographicQuotes, toList_spaced, toList_removeQuotes]

section

variable {T : AssertionText}

/-- The normalised text of a text in normal form C. -/
def comparable (T : AssertionText) (letters : List Char) : List Char :=
  spaced ((unquoted letters).flatMap T.foldChar)

theorem toList_normalize (text : String) :
    (normalize T text).toList = comparable T (T.nfc text).toList := by
  rw [normalize, toList_spaced, UnicodeText.casefold, String.toList_ofList, toList_removeQuotes,
    comparable]

theorem comparable_isInfix {part text : List Char} (h : part <:+: text) :
    comparable T part <:+: comparable T text := by
  apply spaced_isInfix
  obtain ⟨before, after, rfl⟩ := h
  refine ⟨(unquoted before).flatMap T.foldChar, (unquoted after).flatMap T.foldChar, ?_⟩
  simp [unquoted]

/-- Quotes that are removed twice, and blanks that are collapsed twice. -/
theorem comparable_spaced_unquoted
    (hfold : ∀ c, isPythonSpace c = true → T.foldChar c = [c]) (letters : List Char) :
    comparable T (spaced (unquoted letters)) = comparable T letters := by
  have hunquoted : unquoted (spaced (unquoted letters)) = spaced (unquoted letters) := by
    rw [unquoted, List.filter_eq_self]
    intro c hc
    obtain rfl | hmem := mem_of_mem_spaced hc
    · decide
    · exact (List.mem_filter.mp hmem).2
  rw [comparable, hunquoted]
  exact (spaced_flatMap hfold _).1

/-! ## The result -/

/-- `unicodedata.normalize("NFC", text)` changes no part of a text that it does not change. -/
def KeepsParts (nfc : String → String) : Prop :=
  ∀ text part : String, nfc text = text → part.toList <:+: text.toList → nfc part = part

/-- `_normalize(value) in _normalize(answer)` for a value that is a part of the answer. -/
theorem contains_of_isInfix (hnfc : KeepsParts T.nfc) {answer value : String}
    (hanswer : T.nfc answer = answer) (h : value.toList <:+: answer.toList) :
    contains (normalize T answer) (normalize T value) = true := by
  rw [contains_iff, toList_normalize, toList_normalize, hanswer, hnfc answer value hanswer h]
  exact comparable_isInfix h

/-- The same for a part without its quotes, if NFC leaves it as it is. -/
theorem contains_of_unquoted (hfold : ∀ c, isPythonSpace c = true → T.foldChar c = [c])
    {answer item : String} (hanswer : T.nfc answer = answer)
    (h : item.toList <:+: answer.toList)
    (hitem : T.nfc (stripTypographicQuotes item) = stripTypographicQuotes item) :
    contains (normalize T answer) (normalize T (stripTypographicQuotes item)) = true := by
  rw [contains_iff, toList_normalize, toList_normalize, hanswer, hitem,
    toList_stripTypographicQuotes, comparable_spaced_unquoted hfold]
  exact comparable_isInfix h

/-- The values that are missed are those of no assertion of the answer's own. -/
theorem evaluate_ne_failed_iff {answer : String} {assertions : List Assertion} :
    (evaluateAssertions T answer assertions).status ≠ .failed ↔
      ∀ assertion ∈ assertions, ∀ value ∈ assertion.values,
        contains (normalize T answer) (normalize T value) = true := by
  have hmissing : ((assertions.flatMap Assertion.values).filter fun value =>
      !contains (normalize T answer) (normalize T value)) = [] ↔
      ∀ assertion ∈ assertions, ∀ value ∈ assertion.values,
        contains (normalize T answer) (normalize T value) = true := by
    simp only [List.filter_eq_nil_iff, List.mem_flatMap, Bool.not_eq_true', Bool.not_eq_false]
    constructor
    · intro h assertion hassertion value hvalue
      exact h value ⟨assertion, hassertion, hvalue⟩
    · intro h value hvalue
      obtain ⟨assertion, hassertion, hmem⟩ := hvalue
      exact h assertion hassertion value hmem
  rw [← hmissing, evaluateAssertions]
  split
  · rename_i hnone
    rw [List.isEmpty_iff.mp hnone]
    simp
  · dsimp only
    split
    · rename_i hempty
      simp [List.isEmpty_iff.mp hempty]
    · rename_i hfound
      rw [List.isEmpty_iff] at hfound
      simp [hfound]

theorem mem_deriveAssertions {answer value : String} :
    (∃ assertion ∈ deriveAssertions T answer, value ∈ assertion.values) ↔
      value ∈ literalValues T answer ∨ value ∈ (enumerationValues T answer).getD [] := by
  unfold deriveAssertions
  dsimp only
  cases literalValues T answer <;> cases (enumerationValues T answer).getD [] <;> simp

end

/-! ## An acute accent behind a quote -/

/-- The normal form C of a text with no combining character but an acute accent behind an `e`. -/
def composeAcute : List Char → List Char
  | 'e' :: '\u0301' :: rest => 'é' :: composeAcute rest
  | c :: rest => c :: composeAcute rest
  | [] => []

def acuteText : AssertionText where
  toUnicodeText := asciiUnicode
  nfc text := String.ofList (composeAcute text.toList)
  isDecimal := Char.isDigit

/-- `composeAcute` changes a text exactly when it has a pair to compose. -/
theorem composeAcute_eq_iff (letters : List Char) :
    composeAcute letters = letters ↔ ¬ ['e', '\u0301'] <:+: letters := by
  fun_induction composeAcute letters with
  | case1 rest ih =>
    constructor
    · intro h
      exact absurd (List.cons.inj h).1 (by decide)
    · intro h
      exact absurd ⟨[], rest, rfl⟩ h
  | case2 c rest hpair ih =>
    rw [List.cons.injEq, List.infix_cons_iff, not_or, ih]
    constructor
    · intro h
      refine ⟨?_, h.2⟩
      intro hprefix
      obtain ⟨rfl, more, rfl⟩ := List.cons_prefix_cons.mp hprefix
      exact hpair more rfl rfl
    · intro h
      exact ⟨rfl, h.2⟩
  | case3 => simp

theorem keepsParts_acuteText : KeepsParts acuteText.nfc := by
  intro text part htext hpart
  have hletters := congrArg String.toList htext
  change (String.ofList (composeAcute text.toList)).toList = text.toList at hletters
  rw [String.toList_ofList, composeAcute_eq_iff] at hletters
  have hpair : ¬ ['e', '\u0301'] <:+: part.toList := fun h => hletters (h.trans hpart)
  show String.ofList (composeAcute part.toList) = part
  rw [(composeAcute_eq_iff _).mpr hpair, String.ofList_toList]

theorem foldChar_space (c : Char) (h : isPythonSpace c = true) : acuteText.foldChar c = [c] := by
  show [c.toLower] = [c]
  unfold Char.toLower
  split
  · rename_i hupper
    have hlow : 65 ≤ c.toNat := hupper.1
    have hhigh : c.toNat ≤ 90 := hupper.2
    simp only [isPythonSpace, Bool.or_eq_true, Bool.and_eq_true, decide_eq_true_eq] at h
    omega
  · rfl

end VirtualContributor.Evaluation
