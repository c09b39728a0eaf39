import Mathlib.Data.List.Infix
import Mathlib.Data.List.TakeWhile

/-!
# Python strings

The string operations that the sources use, on `String`.  An optional string
is an `Option String`.
-/

namespace VirtualContributor.Lib

/-- `bool(value)` of an optional string. -/
def truthy : Option String → Bool
  | none => false
  | some s => s ≠ ""

/-- The characters that `str.strip()` removes. -/
def isPythonSpace (c : Char) : Bool :=
  let n := c.toNat
  (9 ≤ n && n ≤ 13) || (28 ≤ n && n ≤ 32) || n = 0x85 || n = 0xa0 || n = 0x1680 ||
    (0x2000 ≤ n && n ≤ 0x200a) || n = 0x2028 || n = 0x2029 || n = 0x202f || n = 0x205f ||
    n = 0x3000

/-- `text.strip()`. -/
def strip (text : String) : String :=
  String.ofList (((text.toList.dropWhile isPythonSpace).reverse.dropWhile isPythonSpace).reverse)

theorem strip_eq_empty_iff {text : String} :
    strip text = "" ↔ ∀ c ∈ text.toList, isPythonSpace c = true := by
  have hdrop : ∀ letters : List Char, (∀ c ∈ letters.dropWhile isPythonSpace,
      isPythonSpace c = true) ↔ ∀ c ∈ letters, isPythonSpace c = true := by
    intro letters
    constructor
    · intro h c hc
      rw [← List.takeWhile_append_dropWhile (p := isPythonSpace) (l := letters)] at hc
      cases List.mem_append.mp hc with
      | inl hc => exact List.mem_takeWhile_imp hc
      | inr hc => exact h c hc
    · exact fun h c hc => h c ((List.dropWhile_sublist _).subset hc)
  unfold strip
  rw [← hdrop, ← String.ofList_nil, String.ofList_inj, List.reverse_eq_nil_iff,
    List.dropWhile_eq_nil_iff]
  simp only [List.mem_reverse]

/-- `not text.strip()`. -/
def isBlank (text : String) : Bool := text.toList.all isPythonSpace

/-- `text.lower()` of a text of ASCII characters. -/
def asciiLower (text : String) : String := String.ofList (text.toList.map Char.toLower)

/-- `text.endswith(suffix)`. -/
def endsWith (text suffix : String) : Bool := suffix.toList.isSuffixOf text.toList

/-- `needle in text`. -/
def contains (text needle : String) : Bool := text.toList.tails.any (needle.toList.isPrefixOf ·)

theorem tails_any_isPrefixOf {needle text : List Char} :
    text.tails.any (needle.isPrefixOf ·) = true ↔ needle <:+: text := by
  rw [List.any_eq_true, List.infix_iff_prefix_suffix]
  simp only [List.mem_tails, List.isPrefixOf_iff_prefix]
  constructor
  · intro h
    obtain ⟨rest, hsuffix, hprefix⟩ := h
    exact ⟨rest, hprefix, hsuffix⟩
  · intro h
    obtain ⟨rest, hprefix, hsuffix⟩ := h
    exact ⟨rest, hsuffix, hprefix⟩

theorem contains_iff {text needle : String} :
    contains text needle = true ↔ needle.toList <:+: text.toList :=
  tails_any_isPrefixOf

/-- The cut of `splitOn`: the part read so far, in reverse, and the number of
characters of a separator still to skip. -/
def splitFrom (separator : List Char) : Nat → List Char → List Char → List (List Char)
  | _, current, [] => [current.reverse]
  | skip + 1, current, _ :: rest => splitFrom separator skip current rest
  | 0, current, c :: rest =>
    if separator.isPrefixOf (c :: rest) then
      current.reverse :: splitFrom separator (separator.length - 1) [] rest
    else splitFrom separator 0 (c :: current) rest

/-- `text.split(separator)` for a non-empty separator. -/
def splitOn (text separator : String) : List String :=
  (splitFrom separator.toList 0 [] text.toList).map String.ofList

/-- `text.split()`. -/
def words (text : String) : List String :=
  ((text.toList.splitOnP isPythonSpace).filter (· ≠ [])).map String.ofList

/-- A text has no more words than characters that are not blank. -/
theorem length_words_le (text : String) :
    (words text).length ≤ (text.toList.filter fun c => !isPythonSpace c).length := by
  unfold words
  rw [List.length_map]
  induction text.toList with
  | nil => exact Nat.le_refl 0
  | cons c rest ih =>
    obtain ⟨part, parts, hparts⟩ :=
      List.exists_cons_of_ne_nil (List.splitOnP_ne_nil isPythonSpace rest)
    rw [List.splitOnP_cons_eq_if_modifyHead]
    cases hc : isPythonSpace c with
    | true => simpa [hc] using ih
    | false =>
      have hmore : (parts.filter (· ≠ [])).length ≤ ((part :: parts).filter (· ≠ [])).length :=
        ((List.sublist_cons_self part parts).filter _).length_le
      rw [hparts] at ih ⊢
      simp only [List.modifyHead_cons, hc, Bool.not_false, List.filter_cons_of_pos, ne_eq,
        reduceCtorEq, List.length_cons]
      exact Nat.succ_le_succ (Nat.le_trans hmore ih)

/-- The digits of an integer literal: digits with single underscores between
them. -/
def digitsValue : Nat → List Char → Option Nat
  | n, [] => some n
  | _, ['_'] => none
  | n, '_' :: c :: cs =>
    if c.isDigit then digitsValue (10 * n + (c.toNat - '0'.toNat)) cs else none
  | n, c :: cs => if c.isDigit then digitsValue (10 * n + (c.toNat - '0'.toNat)) cs else none

/-- An unsigned integer literal. -/
def unsigned : List Char → Option Nat
  | [] => none
  | c :: cs => if c.isDigit then digitsValue (c.toNat - '0'.toNat) cs else none

/-- `int(text)` of a text of ASCII characters, or `none` for its
`ValueError`. -/
def pythonInt (text : String) : Option Int :=
  match (strip text).toList with
  | '+' :: digits => (unsigned digits).map Int.ofNat
  | '-' :: digits => (unsigned digits).map fun n => -Int.ofNat n
  | digits => (unsigned digits).map Int.ofNat

/-! ## Decimal texts -/

theorem natText_injective : Function.Injective (toString : Nat → String) := by
  intro m n h
  have hdigits : Nat.toDigits 10 m = Nat.toDigits 10 n := by
    rw [← Nat.toList_repr, ← Nat.toList_repr]
    exact congrArg String.toList h
  rw [← Nat.ofDigitChars_ten_toDigits (n := m), hdigits, Nat.ofDigitChars_ten_toDigits]

/-- The text of a natural number has no sign. -/
theorem minus_append_ne (text : String) (n : Nat) : "-" ++ text ≠ toString n := by
  intro h
  have hmem : '-' ∈ Nat.toDigits 10 n := by
    rw [← Nat.toList_repr, ← Nat.toString_eq_repr, ← h, String.toList_append]
    exact List.mem_append_left _ (List.mem_singleton_self _)
  have hdigit := Nat.isDigit_of_mem_toDigits (by decide) (by decide) hmem
  revert hdigit
  decide

theorem intText_injective : Function.Injective (toString : Int → String) := by
  intro m n h
  rw [Int.toString_eq_repr, Int.toString_eq_repr, Int.repr_eq_if, Int.repr_eq_if] at h
  split at h <;> split at h
  · have habs := natText_injective h
    omega
  · exact absurd h.symm (minus_append_ne _ _)
  · exact absurd h (minus_append_ne _ _)
  · have habs := natText_injective ((String.append_right_inj _).mp h)
    omega

end VirtualContributor.Lib
