import VirtualContributor.Lib.Checks
import VirtualContributor.Retrieval.SmallTalk
import VirtualContributor.Web.Exception

/-!
# Skipping the rewrite

`_ConversationalSkipPolicy`: small talk is not rewritten, but for the
acknowledgements that may mean "yes, do it".  The policy compares the message
with their list after a normalisation of its own, which leaves the blanks
between two words as they are.
-/

namespace VirtualContributor.Retrieval

open Lib Lib.Regex

/-- `_AMBIGUOUS_ACKNOWLEDGEMENTS`. -/
def AMBIGUOUS_ACKNOWLEDGEMENTS : List String :=
  ["ok", "okay", "k", "kk", "alright", "all right", "right", "will do", "later", "got it",
    "gotcha", "noted", "understood", "sounds good", "fine", "cool", "yep", "yeah", "yup"]

/-- The tables of `str.lower` and `unicodedata.category`: the lower case of a
character, which is that of a text but for a final sigma, and the characters
of a category `P`. -/
structure CaseTables extends UnicodeText where
  isPunctuation : Char → Bool
  lowerChar : Char → List Char
  lower_eq : ∀ text : String, 'Σ' ∉ text.toList →
    (lower text).toList = text.toList.flatMap lowerChar
  lowerChar_ascii : ∀ c : Char, c.toNat < 128 → lowerChar c = [c.toLower]
  lowerChar_longS : lowerChar 'ſ' = ['ſ']
  lowerChar_kelvin : lowerChar '\u212a' = ['k']
  lowerChar_sign : ∀ c : Char, isPunctuation c = true ∨ isPythonSpace c = true → lowerChar c = [c]
  punctuation_letter : ∀ c : Char, isPunctuation c = true → letterOf c = none
  punctuation_sigma : isPunctuation 'Σ' = false

section

variable (T : CaseTables)

/-- The loop over the end of a text, which is read backwards.  Behind a sign
that was dropped the blanks go too. -/
def dropSigns : Bool → List Char → List Char
  | _, [] => []
  | afterSign, c :: rest =>
    if afterSign && isPythonSpace c then dropSigns true rest
    else if T.isPunctuation c then dropSigns true rest
    else c :: rest

/-- `_normalise`. -/
def normalise (message : String) : String :=
  let stripped := T.lower (strip message)
  String.ofList (dropSigns T false stripped.toList.reverse).reverse

/-- `should_skip_rewrite`.  An exception of the classifier is swallowed. -/
def shouldSkipRewrite (classifier : String → Except Exc RoutingDecision) (message : String) :
    Bool :=
  if normalise T message ∈ AMBIGUOUS_ACKNOWLEDGEMENTS then false
  else
    match classifier message with
    | .error _ => false
    | .ok decision => decision.route = .CONVERSATIONAL

/-- The shipped classifier. -/
def ruleQueryClassifier (message : String) : Except Exc RoutingDecision :=
  .ok (classify T.toUnicodeText message)

end

/-! ## Spellings -/

/-- Whether a character differs from a lower-case letter in case only: their
simple case folding is the same. -/
def sameLetter (a c : Char) : Bool :=
  c.toLower = a || (a = 's' && c = 'ſ') || (a = 'k' && c = '\u212a')

/-- A way to write an acknowledgement: its words in any case, with blanks
before and between them, and blanks and punctuation behind them. -/
structure Spelling (T : CaseTables) (acknowledgement : String) where
  lead : List Char
  first : List Char
  more : List (List Char × List Char)
  tail : List Char
  lead_blank : ∀ c ∈ lead, isPythonSpace c = true
  words_cases : List.Forall₂ (fun text word =>
    List.Forall₂ (fun a c => sameLetter a c = true) text.toList word) (words acknowledgement)
      (first :: more.map Prod.snd)
  gaps_blank : ∀ e ∈ more, e.1 ≠ [] ∧ ∀ c ∈ e.1, isPythonSpace c = true
  tail_signs : ∀ c ∈ tail, T.isPunctuation c = true ∨ isPythonSpace c = true

namespace Spelling

variable {T : CaseTables} {acknowledgement : String} (s : Spelling T acknowledgement)

/-- The words with the blanks between them. -/
def body : List Char := s.first ++ s.more.flatMap fun e => e.1 ++ e.2

def message : String := String.ofList (s.lead ++ (s.body ++ s.tail))

/-- Single spaces between the words, and no long s. -/
structure Plain : Prop where
  gaps : ∀ e ∈ s.more, e.1 = [' ']
  letters : 'ſ' ∉ s.body

/-- The signs after the words that are examined. -/
def examinedTail : List Char :=
  s.tail.take (MAX_CLASSIFIED_CHARS - (s.lead ++ s.body).length)

/-! ## The words -/

theorem sameIgnoringCase_of_sameLetter {a c : Char} (h : sameLetter a c = true) :
    sameIgnoringCase a c = true := by
  unfold sameLetter at h
  unfold sameIgnoringCase
  simp only [Bool.or_eq_true, Bool.and_eq_true, decide_eq_true_eq] at h ⊢
  obtain (hlower | hlong) | hkelvin := h
  · exact .inl (.inl (.inl hlower))
  · exact .inl (.inr hlong)
  · exact .inr hkelvin

theorem letterOf_of_sameLetter {a c : Char} (ha : a.isLower = true)
    (h : sameLetter a c = true) : letterOf c = some a := by
  rw [letterOf_eq_of_same (by unfold isPatternChar; rw [ha]; rfl)
      (sameIgnoringCase_of_sameLetter h),
    letterOf_of_isLower ha]

/-- Words in any case with blanks between them are a spelled phrase. -/
theorem spells_of_cases {texts : List String} {first : List Char}
    {more : List (List Char × List Char)}
    (hcases : List.Forall₂ (fun text word =>
      List.Forall₂ (fun a c => sameLetter a c = true) text.toList word) texts
        (first :: more.map Prod.snd))
    (hblank : ∀ e ∈ more, e.1 ≠ [] ∧ ∀ c ∈ e.1, isPythonSpace c = true) :
    Spells texts (first ++ more.flatMap fun e => e.1 ++ e.2) := by
  induction more generalizing texts first with
  | nil =>
    cases hcases with
    | cons hfirst hrest =>
      cases hrest
      rw [List.flatMap_nil, List.append_nil]
      exact spells_singleton.mpr (hfirst.imp fun a c h => sameIgnoringCase_of_sameLetter h)
  | cons e more ih =>
    obtain ⟨hgap, hgaps⟩ := List.forall_mem_cons.mp hblank
    cases hcases with
    | cons hfirst hrest =>
      have hword := spells_singleton.mpr (hfirst.imp fun a c h => sameIgnoringCase_of_sameLetter h)
      have hmore := ih hrest hgaps
      cases hrest with
      | cons hnext hothers =>
        refine spells_cons_cons.mpr ⟨_, e.1, _, hword, hgap, hmore, ?_⟩
        rw [List.flatMap_cons, List.append_assoc]

theorem spells_body : Spells (words acknowledgement) s.body :=
  spells_of_cases s.words_cases s.gaps_blank

theorem isPhrase_words : ∀ acknowledgement ∈ AMBIGUOUS_ACKNOWLEDGEMENTS,
    isPhrase (words acknowledgement) = true := by
  decide

end Spelling

/-! ## Phrases that are cut -/

/-- The runs of letters that are left of a phrase that is cut. -/
def cutRuns : List String → List (List (List (Option Char)))
  | [] => []
  | text :: texts =>
    ((List.range text.toList.length).map fun i => letterRuns (text.toList.take i)) ++
      (cutRuns texts).map fun runs => letterRuns text.toList ++ runs

theorem letterRuns_take_text {text : String} {word : List Char}
    (htext : isPhraseText text = true) (h : Spells [text] word) {k : Nat} (hk : k < word.length) :
    letterRuns (word.take k) ∈
      (List.range text.toList.length).map fun i => letterRuns (text.toList.take i) := by
  have hmap := map_letterOf_of_spells htext h
  have hlength := congrArg List.length hmap
  rw [List.length_map, List.length_map] at hlength
  refine List.mem_map.mpr ⟨k, List.mem_range.mpr (hlength ▸ hk), letterRuns_congr ?_⟩
  rw [List.map_take, List.map_take, hmap]

/-- A cut phrase has the runs of a cut. -/
theorem letterRuns_take_mem {texts : List String} {word : List Char}
    (hphrase : isPhrase texts = true) (h : Spells texts word) :
    ∀ k < word.length, letterRuns (word.take k) ∈ cutRuns texts := by
  have hne : 0 < word.length ∧ ∀ k < word.length, letterRuns (word.take k) ∈ cutRuns texts := by
    apply spells_induction (motive := fun texts word => 0 < word.length ∧
      ∀ k < word.length, letterRuns (word.take k) ∈ cutRuns texts) _ _ hphrase h
    · intro text word htext h
      obtain ⟨c, rest, rfl, -⟩ := head_map_letterOf htext h
      exact ⟨Nat.zero_lt_succ _, fun k hk =>
        List.mem_append_left _ (letterRuns_take_text htext h hk)⟩
    · intro text first blanks texts rest htext hfirst hne hblanks ih
      obtain ⟨hpos, ih⟩ := ih
      have hruns := letterRuns_congr (map_letterOf_of_spells htext hfirst)
      refine ⟨by rw [List.length_append, List.length_append]; omega, fun k hk => ?_⟩
      by_cases hcut : k < first.length
      · -- the cut is in the first text
        rw [List.take_append_of_le_length (Nat.le_of_lt hcut)]
        exact List.mem_append_left _ (letterRuns_take_text htext hfirst hcut)
      · obtain ⟨j, rfl⟩ := Nat.exists_eq_add_of_le (Nat.not_lt.mp hcut)
        rw [List.take_length_add_append]
        apply List.mem_append_right
        rw [List.mem_map]
        by_cases hblank : j ≤ blanks.length
        · -- the cut is in the blanks
          refine ⟨[], ih 0 hpos, ?_⟩
          rw [List.take_append_of_le_length hblank, letterRuns_append_right first
            fun c hc => hblanks c ((List.take_sublist _ _).subset hc), hruns, List.append_nil]
        · obtain ⟨i, rfl⟩ := Nat.exists_eq_add_of_le (Nat.le_of_not_le hblank)
          rw [List.length_append, List.length_append] at hk
          refine ⟨_, ih i (by omega), ?_⟩
          rw [List.take_length_add_append, letterRuns_append_signs first _ hne hblanks, hruns]
  exact hne.2

/-! ## The lower case of a spelling -/

theorem lt_of_toLower_isLower {c : Char} (h : c.toLower.isLower = true) : c.toNat < 128 := by
  have hletter : letterOf c ≠ none := by
    rw [letterOf_eq rfl (by unfold isPatternChar; rw [h]; rfl), if_pos h]
    exact Option.some_ne_none _
  have hfour : ∀ d ∈ ['İ', 'ı', 'ſ', '\u212a'], d.toLower.isLower = false :=
    List.all_iff_forall_prop.mp (by decide)
  cases letter_range hletter with
  | inl hmem =>
    rw [hfour c hmem] at h
    exact absurd h Bool.false_ne_true
  | inr hrange => omega

section

variable {T : CaseTables}

/-- A letter in any case has the letter as its lower case, but for a long s. -/
theorem lowerChar_of_sameLetter {a c : Char} (ha : a.isLower = true)
    (h : sameLetter a c = true) :
    ∃ d, T.lowerChar c = [d] ∧ letterOf d = some a ∧ (c ≠ 'ſ' → d = a) := by
  unfold sameLetter at h
  simp only [Bool.or_eq_true, Bool.and_eq_true, decide_eq_true_eq] at h
  obtain (rfl | ⟨rfl, rfl⟩) | ⟨rfl, rfl⟩ := h
  · exact ⟨_, T.lowerChar_ascii c (lt_of_toLower_isLower ha), letterOf_of_isLower ha, fun _ => rfl⟩
  · exact ⟨_, T.lowerChar_longS, by decide, fun hne => absurd rfl hne⟩
  · exact ⟨_, T.lowerChar_kelvin, by decide, fun _ => rfl⟩

theorem flatMap_lowerChar_signs {signs : List Char}
    (h : ∀ c ∈ signs, T.isPunctuation c = true ∨ isPythonSpace c = true) :
    signs.flatMap T.lowerChar = signs := by
  induction signs with
  | nil => rfl
  | cons c signs ih =>
    obtain ⟨hc, hsigns⟩ := List.forall_mem_cons.mp h
    rw [List.flatMap_cons, T.lowerChar_sign c hc, ih hsigns]
    rfl

/-- Dropping signs ends at a character that is none. -/
theorem dropSigns_append {signs : List Char} {c : Char} (rest : List Char)
    (hsigns : ∀ d ∈ signs, T.isPunctuation d = true ∨ isPythonSpace d = true)
    (hc : T.isPunctuation c = false ∧ isPythonSpace c = false) :
    dropSigns T true (signs ++ c :: rest) = c :: rest := by
  induction signs with
  | nil =>
    rw [List.nil_append, dropSigns, hc.1, hc.2]
    rfl
  | cons d signs ih =>
    obtain ⟨hd, hsigns⟩ := List.forall_mem_cons.mp hsigns
    rw [List.cons_append, dropSigns, ih hsigns, Bool.true_and]
    cases hd with
    | inl hd => rw [hd, if_pos rfl, ite_self]
    | inr hd => rw [if_pos hd]

/-- A text whose last characters are signs, of which the very last is no
blank. -/
theorem dropSigns_eq {signs : List Char} {c : Char} (rest : List Char)
    (hsigns : ∀ d ∈ signs, T.isPunctuation d = true ∨ isPythonSpace d = true)
    (hhead : ∀ d ∈ signs.head?, isPythonSpace d = false)
    (hc : T.isPunctuation c = false ∧ isPythonSpace c = false) :
    dropSigns T false (signs ++ c :: rest) = c :: rest := by
  cases signs with
  | nil =>
    rw [List.nil_append, dropSigns, hc.1]
    rfl
  | cons d signs =>
    obtain ⟨hd, hsigns⟩ := List.forall_mem_cons.mp hsigns
    have hsign : T.isPunctuation d = true := by
      cases hd with
      | inl hd => exact hd
      | inr hd =>
        rw [hhead d rfl] at hd
        exact absurd hd Bool.false_ne_true
    rw [List.cons_append, dropSigns, Bool.false_and, hsign, dropSigns_append rest hsigns hc]
    rfl

end

namespace Spelling

variable {T : CaseTables} {acknowledgement : String} (s : Spelling T acknowledgement)

theorem isLower_words : ∀ acknowledgement ∈ AMBIGUOUS_ACKNOWLEDGEMENTS,
    ∀ text ∈ words acknowledgement, ∀ a ∈ text.toList, a.isLower = true := by
  have hall : ∀ acknowledgement ∈ AMBIGUOUS_ACKNOWLEDGEMENTS,
      ∀ text ∈ words acknowledgement, text.toList.all Char.isLower = true := by
    decide
  intro acknowledgement hmem text htext
  exact List.all_eq_true.mp (hall acknowledgement hmem text htext)

/-- The characters of the words are letters in some case. -/
theorem letter_of_mem_word (hlist : acknowledgement ∈ AMBIGUOUS_ACKNOWLEDGEMENTS)
    {word : List Char} (hword : word ∈ s.first :: s.more.map Prod.snd) {c : Char} (hc : c ∈ word) :
    ∃ a : Char, a.isLower = true ∧ sameLetter a c = true := by
  obtain ⟨text, htext, hcases⟩ := exists_left_of_forall₂ s.words_cases hword
  obtain ⟨a, ha, hsame⟩ := exists_left_of_forall₂ hcases hc
  exact ⟨a, isLower_words acknowledgement hlist text htext a ha, hsame⟩

/-- A character of the body is a blank, or a letter in some case. -/
theorem mem_body (hlist : acknowledgement ∈ AMBIGUOUS_ACKNOWLEDGEMENTS) {c : Char}
    (hc : c ∈ s.body) :
    isPythonSpace c = true ∨ ∃ a : Char, a.isLower = true ∧ sameLetter a c = true := by
  unfold body at hc
  rw [List.mem_append, List.mem_flatMap] at hc
  cases hc with
  | inl hc => exact .inr (s.letter_of_mem_word hlist List.mem_cons_self hc)
  | inr hc =>
    obtain ⟨e, he, hc⟩ := hc
    cases List.mem_append.mp hc with
    | inl hc => exact .inl ((s.gaps_blank e he).2 c hc)
    | inr hc =>
      exact .inr (s.letter_of_mem_word hlist
        (List.mem_cons_of_mem _ (List.mem_map_of_mem he)) hc)

/-- The body begins with no blank. -/
theorem head_body (hlist : acknowledgement ∈ AMBIGUOUS_ACKNOWLEDGEMENTS) :
    ∃ c rest, s.body = c :: rest ∧ isPythonSpace c = false := by
  obtain ⟨c, rest, hbody, hletter⟩ := head_of_spells (isPhrase_words _ hlist) s.spells_body
  refine ⟨c, rest, hbody, Bool.eq_false_iff.mpr fun hblank => hletter ?_⟩
  exact letterOf_of_isPythonSpace hblank

/-- The body ends with a letter in some case. -/
theorem last_body (hlist : acknowledgement ∈ AMBIGUOUS_ACKNOWLEDGEMENTS) :
    ∃ front c, s.body = front ++ [c] ∧ isPythonSpace c = false ∧
      ∃ a : Char, a.isLower = true ∧ sameLetter a c = true := by
  obtain ⟨front, c, hbody, hletter⟩ := last_of_spells (isPhrase_words _ hlist) s.spells_body
  have hblank : isPythonSpace c = false :=
    Bool.eq_false_iff.mpr fun hblank => hletter (letterOf_of_isPythonSpace hblank)
  refine ⟨front, c, hbody, hblank, ?_⟩
  have hmem : c ∈ s.body := by
    rw [hbody]
    exact List.mem_append_right _ (List.mem_singleton_self c)
  cases s.mem_body hlist hmem with
  | inl h =>
    rw [hblank] at h
    exact absurd h Bool.false_ne_true
  | inr h => exact h

/-! ## What the policy compares -/

/-- Stripping leaves the body and the signs up to the last that is no blank. -/
theorem toList_strip_message (hlist : acknowledgement ∈ AMBIGUOUS_ACKNOWLEDGEMENTS) :
    (strip s.message).toList = s.body ++ (s.tail.reverse.dropWhile isPythonSpace).reverse := by
  obtain ⟨c, rest, hhead, hc⟩ := s.head_body hlist
  obtain ⟨front, d, hlast, hd, -⟩ := s.last_body hlist
  have hlead : (s.lead ++ (s.body ++ s.tail)).dropWhile isPythonSpace = s.body ++ s.tail := by
    rw [List.dropWhile_append_of_pos s.lead_blank, hhead, List.cons_append,
      List.dropWhile_cons_of_neg (by rw [hc]; exact Bool.false_ne_true)]
  have hbody : s.body.reverse.dropWhile isPythonSpace = s.body.reverse := by
    rw [hlast, List.reverse_append, List.reverse_singleton, List.singleton_append,
      List.dropWhile_cons_of_neg (by rw [hd]; exact Bool.false_ne_true)]
  have htail : (s.tail.reverse ++ s.body.reverse).dropWhile isPythonSpace =
      s.tail.reverse.dropWhile isPythonSpace ++ s.body.reverse := by
    rw [List.dropWhile_append, hbody]
    split
    · rename_i hempty
      rw [List.isEmpty_iff.mp hempty, List.nil_append]
    · rfl
  unfold strip message
  rw [String.toList_ofList, String.toList_ofList, hlead, List.reverse_append, htail,
    List.reverse_append, List.reverse_reverse]

theorem not_mem_body (hlist : acknowledgement ∈ AMBIGUOUS_ACKNOWLEDGEMENTS) {c : Char}
    (hblank : isPythonSpace c = false) (hletter : letterOf c = none) : c ∉ s.body := by
  intro h
  cases s.mem_body hlist h with
  | inl h =>
    rw [hblank] at h
    exact Bool.false_ne_true h
  | inr h =>
    obtain ⟨a, ha, hsame⟩ := h
    rw [letterOf_of_sameLetter ha hsame] at hletter
    exact Option.some_ne_none a hletter

theorem sigma_not_mem (hlist : acknowledgement ∈ AMBIGUOUS_ACKNOWLEDGEMENTS) {signs : List Char}
    (hsigns : ∀ c ∈ signs, T.isPunctuation c = true ∨ isPythonSpace c = true) :
    'Σ' ∉ s.body ++ signs := by
  rw [List.mem_append]
  apply not_or_intro (s.not_mem_body hlist (by decide) (by decide))
  intro h
  cases hsigns _ h with
  | inl h =>
    rw [T.punctuation_sigma] at h
    exact Bool.false_ne_true h
  | inr h => exact absurd h (by decide)

/-- The policy compares the lower case of the body. -/
theorem normalise_message (hlist : acknowledgement ∈ AMBIGUOUS_ACKNOWLEDGEMENTS) :
    normalise T s.message = String.ofList (s.body.flatMap T.lowerChar) := by
  have hsigns : ∀ c ∈ (s.tail.reverse.dropWhile isPythonSpace).reverse,
      T.isPunctuation c = true ∨ isPythonSpace c = true := by
    intro c hc
    rw [List.mem_reverse] at hc
    exact s.tail_signs c (List.mem_reverse.mp ((List.dropWhile_sublist _).subset hc))
  obtain ⟨front, c, hlast, -, a, ha, hsame⟩ := s.last_body hlist
  obtain ⟨d, hd, hletter, -⟩ := lowerChar_of_sameLetter (T := T) ha hsame
  have hdrop : T.isPunctuation d = false ∧ isPythonSpace d = false := by
    constructor
    · rw [Bool.eq_false_iff]
      intro hsign
      rw [T.punctuation_letter d hsign] at hletter
      exact Option.some_ne_none a hletter.symm
    · rw [Bool.eq_false_iff]
      intro hblank
      rw [letterOf_of_isPythonSpace hblank] at hletter
      exact Option.some_ne_none a hletter.symm
  have hbody : s.body.flatMap T.lowerChar = front.flatMap T.lowerChar ++ [d] := by
    rw [hlast, List.flatMap_append, List.flatMap_singleton, hd]
  have hlower : (T.lower (strip s.message)).toList =
      s.body.flatMap T.lowerChar ++ (s.tail.reverse.dropWhile isPythonSpace).reverse := by
    have hsigma := s.sigma_not_mem hlist hsigns
    rw [← s.toList_strip_message hlist] at hsigma
    rw [T.lower_eq _ hsigma, s.toList_strip_message hlist, List.flatMap_append,
      flatMap_lowerChar_signs hsigns]
  unfold normalise
  dsimp only
  rw [hlower, hbody, List.reverse_append, List.reverse_append, List.reverse_reverse,
    List.reverse_singleton, List.singleton_append, dropSigns_eq _ _ _ hdrop, List.reverse_cons,
    List.reverse_reverse]
  · intro e he
    exact hsigns e (List.mem_reverse.mpr he)
  · intro e he
    have hhead := List.head?_dropWhile_not isPythonSpace s.tail.reverse
    rw [he] at hhead
    exact hhead

/-- The blanks of the lower case are the blanks between the words. -/
theorem filter_lower_body (hlist : acknowledgement ∈ AMBIGUOUS_ACKNOWLEDGEMENTS) :
    (s.body.flatMap T.lowerChar).filter isPythonSpace = s.more.flatMap Prod.fst := by
  have hword : ∀ word ∈ s.first :: s.more.map Prod.snd,
      (word.flatMap T.lowerChar).filter isPythonSpace = [] := by
    intro word hword
    rw [List.filter_eq_nil_iff]
    intro d hd hblank
    obtain ⟨c, hc, hd⟩ := List.mem_flatMap.mp hd
    obtain ⟨a, ha, hsame⟩ := s.letter_of_mem_word hlist hword hc
    obtain ⟨d', hlower, hletter, -⟩ := lowerChar_of_sameLetter (T := T) ha hsame
    rw [hlower, List.mem_singleton] at hd
    rw [← hd, letterOf_of_isPythonSpace hblank] at hletter
    exact Option.some_ne_none a hletter.symm
  obtain ⟨hfirst, hmore⟩ := List.forall_mem_cons.mp hword
  unfold body
  rw [List.flatMap_append, List.filter_append, hfirst, List.nil_append, List.flatMap_assoc,
    List.filter_flatMap]
  apply List.flatMap_congr
  intro e he
  have hgap : (e.1.flatMap T.lowerChar) = e.1 :=
    flatMap_lowerChar_signs fun c hc => .inr ((s.gaps_blank e he).2 c hc)
  rw [List.flatMap_append, List.filter_append, hgap,
    hmore e.2 (List.mem_map_of_mem he), List.append_nil, List.filter_eq_self]
  exact (s.gaps_blank e he).2

/-- A word without a long s is its text in lower case. -/
theorem lower_word {text : String} {word : List Char}
    (htext : ∀ a ∈ text.toList, a.isLower = true)
    (hcases : List.Forall₂ (fun a c => sameLetter a c = true) text.toList word)
    (hlong : 'ſ' ∉ word) : word.flatMap T.lowerChar = text.toList := by
  generalize text.toList = letters at htext hcases
  induction hcases with
  | nil => rfl
  | cons hsame hrest ih =>
    obtain ⟨ha, hletters⟩ := List.forall_mem_cons.mp htext
    obtain ⟨hc, hword⟩ := not_or.mp (mt List.mem_cons.mpr hlong)
    obtain ⟨d, hlower, -, hd⟩ := lowerChar_of_sameLetter (T := T) ha hsame
    rw [List.flatMap_cons, hlower, hd (Ne.symm hc), ih hword hletters]
    rfl

/-- Texts with single spaces between them. -/
def joined : List String → List Char
  | [] => []
  | text :: texts => text.toList ++ texts.flatMap fun text => ' ' :: text.toList

theorem joined_words : ∀ acknowledgement ∈ AMBIGUOUS_ACKNOWLEDGEMENTS,
    String.ofList (joined (words acknowledgement)) = acknowledgement := by
  decide

/-- Words behind single spaces, without a long s, are their texts in lower
case. -/
theorem lower_more {texts : List String} {more : List (List Char × List Char)}
    (hlower : ∀ text ∈ texts, ∀ a ∈ text.toList, a.isLower = true)
    (hcases : List.Forall₂ (fun text word =>
      List.Forall₂ (fun a c => sameLetter a c = true) text.toList word) texts (more.map Prod.snd))
    (hgaps : ∀ e ∈ more, e.1 = [' ']) (hlong : ∀ e ∈ more, 'ſ' ∉ e.2) :
    (more.flatMap fun e => e.1 ++ e.2).flatMap T.lowerChar =
      texts.flatMap fun text => ' ' :: text.toList := by
  induction more generalizing texts with
  | nil =>
    cases hcases
    rfl
  | cons e more ih =>
    obtain ⟨hgap, hgaps⟩ := List.forall_mem_cons.mp hgaps
    obtain ⟨hword, hlong⟩ := List.forall_mem_cons.mp hlong
    cases hcases with
    | cons hfirst hrest =>
      obtain ⟨htext, hlower⟩ := List.forall_mem_cons.mp hlower
      have hspace : T.lowerChar ' ' = [' '] := T.lowerChar_ascii ' ' (by decide)
      rw [List.flatMap_cons, List.flatMap_append, List.flatMap_append, ih hlower hrest hgaps hlong,
        lower_word htext hfirst hword, hgap, List.flatMap_singleton, hspace, List.flatMap_cons]
      rfl

/-- A plain spelling is the acknowledgement in lower case. -/
theorem lower_body (hlist : acknowledgement ∈ AMBIGUOUS_ACKNOWLEDGEMENTS) (hplain : s.Plain) :
    String.ofList (s.body.flatMap T.lowerChar) = acknowledgement := by
  have hletters := hplain.letters
  have hlower := isLower_words acknowledgement hlist
  have hcases := s.words_cases
  have hjoined := joined_words acknowledgement hlist
  unfold body at hletters ⊢
  rw [List.mem_append, not_or] at hletters
  generalize words acknowledgement = texts at hlower hcases hjoined
  cases hcases with
  | cons hfirst hrest =>
    obtain ⟨htext, hlower⟩ := List.forall_mem_cons.mp hlower
    have hlong : ∀ e ∈ s.more, 'ſ' ∉ e.2 := fun e he hc =>
      hletters.2 (List.mem_flatMap.mpr ⟨e, he, List.mem_append_right _ hc⟩)
    rw [List.flatMap_append, lower_word htext hfirst hletters.1,
      lower_more hlower hrest hplain.gaps hlong]
    exact hjoined

/-- The policy holds back exactly the plain spellings. -/
theorem held_back_iff (hlist : acknowledgement ∈ AMBIGUOUS_ACKNOWLEDGEMENTS) :
    normalise T s.message ∈ AMBIGUOUS_ACKNOWLEDGEMENTS ↔ s.Plain := by
  rw [s.normalise_message hlist]
  constructor
  · intro hheld
    have hlong : ∀ text ∈ AMBIGUOUS_ACKNOWLEDGEMENTS, 'ſ' ∉ text.toList := by decide
    have hspaces : ∀ text ∈ AMBIGUOUS_ACKNOWLEDGEMENTS,
        (text.toList.filter isPythonSpace).Sublist [' '] := by decide
    refine ⟨fun e he => ?_, fun hmem => ?_⟩
    · have hsublist := hspaces _ hheld
      rw [String.toList_ofList, s.filter_lower_body hlist, List.flatMap_def] at hsublist
      have hgap : e.1.Sublist [' '] :=
        (List.sublist_flatten_of_mem (List.mem_map_of_mem he)).trans hsublist
      exact hgap.eq_of_length_le (List.length_pos_iff.mpr (s.gaps_blank e he).1)
    · have hfree := hlong _ hheld
      rw [String.toList_ofList] at hfree
      apply hfree
      refine List.mem_flatMap.mpr ⟨'ſ', hmem, ?_⟩
      rw [T.lowerChar_longS]
      exact List.mem_singleton_self _
  · intro hplain
    rw [s.lower_body hlist hplain]
    exact hlist

/-! ## What the classifier sees -/

/-- The acknowledgements that the policy's normalisation may miss: of two
words, or with an s. -/
def MISSABLE : List String := ["will do", "all right", "got it", "sounds good", "understood"]

/-- Those among them that the small-talk pattern has. -/
def RECOGNISED : List String := ["will do", "got it", "understood"]

theorem examined_of_cut (hcut : MAX_CLASSIFIED_CHARS < (s.lead ++ s.body).length) :
    (examined s.message).toList = s.lead.take MAX_CLASSIFIED_CHARS ++
      s.body.take (MAX_CLASSIFIED_CHARS - s.lead.length) := by
  unfold message
  rw [toList_examined, String.toList_ofList, ← List.append_assoc,
    List.take_append_of_le_length (Nat.le_of_lt hcut), List.take_append]

theorem examined_of_le (hle : (s.lead ++ s.body).length ≤ MAX_CLASSIFIED_CHARS) :
    (examined s.message).toList = s.lead ++ (s.body ++ s.examinedTail) := by
  unfold message examinedTail
  rw [toList_examined, String.toList_ofList, ← List.append_assoc, List.take_append,
    List.take_of_length_le hle, List.append_assoc]

theorem lead_letterless : ∀ c ∈ s.lead, letterOf c = none := fun c hc =>
  letterOf_of_isPythonSpace (s.lead_blank c hc)

theorem tail_letterless : ∀ c ∈ s.examinedTail, letterOf c = none := by
  intro c hc
  cases s.tail_signs c ((List.take_sublist _ _).subset hc) with
  | inl h => exact T.punctuation_letter c h
  | inr h => exact letterOf_of_isPythonSpace h

theorem mem_list_of_missable : ∀ acknowledgement ∈ MISSABLE,
    acknowledgement ∈ AMBIGUOUS_ACKNOWLEDGEMENTS := by
  decide

/-- A spelling that is cut within its words is no small talk. -/
theorem not_smallTalk_of_cut (hmiss : acknowledgement ∈ MISSABLE)
    (hcut : MAX_CLASSIFIED_CHARS < (s.lead ++ s.body).length) :
    ¬ SmallTalk (examined s.message) := by
  have hcuts : ∀ acknowledgement ∈ MISSABLE, ∀ runs ∈ cutRuns (words acknowledgement),
      ∀ texts ∈ openingPhrases, ¬ phraseRuns texts <+: runs := by
    decide
  have hlist := mem_list_of_missable acknowledgement hmiss
  intro h
  obtain ⟨texts, htexts, more, hruns, -⟩ := runs_of_smallTalk h.in_full
  rw [s.examined_of_cut hcut, letterRuns_append_left _ fun c hc =>
    s.lead_letterless c ((List.take_sublist _ _).subset hc)] at hruns
  have hinside : MAX_CLASSIFIED_CHARS - s.lead.length < s.body.length := by
    obtain ⟨c, rest, hbody, -⟩ := s.head_body hlist
    rw [List.length_append, hbody, List.length_cons] at hcut
    rw [hbody, List.length_cons]
    omega
  have hmem := letterRuns_take_mem (isPhrase_words _ hlist) s.spells_body _ hinside
  exact hcuts acknowledgement hmiss _ hmem texts htexts ⟨more, hruns.symm⟩

/-- Behind the last letter of a text there is no letterless rest before it. -/
theorem eq_nil_of_letterless {x a front : List Char} {c : Char} (h : x ++ a = front ++ [c])
    (hc : letterOf c ≠ none) (ha : ∀ d ∈ a, letterOf d = none) : a = [] := by
  cases List.eq_nil_or_concat a with
  | inl hnil => exact hnil
  | inr hlast =>
    obtain ⟨rest, d, rfl⟩ := hlast
    rw [List.concat_eq_append] at h ha ⊢
    rw [← List.append_assoc] at h
    obtain ⟨-, hd⟩ := List.append_inj' h rfl
    rw [List.singleton_inj] at hd
    exact absurd (ha c (hd ▸ List.mem_append_right _ (List.mem_singleton_self d))) hc

/-- A text has one split into a part that ends with a letter and a part
without letters. -/
theorem suffix_eq_of_letterless {x y u v : List Char} (h : x ++ u = y ++ v)
    (hx : ∃ front c, x = front ++ [c] ∧ letterOf c ≠ none)
    (hy : ∃ front c, y = front ++ [c] ∧ letterOf c ≠ none)
    (hu : ∀ c ∈ u, letterOf c = none) (hv : ∀ c ∈ v, letterOf c = none) : u = v := by
  obtain ⟨_, _, hxlast, hxletter⟩ := hx
  obtain ⟨_, _, hylast, hyletter⟩ := hy
  cases List.append_eq_append_iff.mp h with
  | inl h =>
    obtain ⟨a, hya, rfl⟩ := h
    have hnil : a = [] := eq_nil_of_letterless (hya.symm.trans hylast) hyletter
      fun d hd => hu d (List.mem_append_left _ hd)
    rw [hnil, List.nil_append]
  | inr h =>
    obtain ⟨a, hxa, rfl⟩ := h
    have hnil : a = [] := eq_nil_of_letterless (hxa.symm.trans hxlast) hxletter
      fun d hd => hv d (List.mem_append_left _ hd)
    rw [hnil, List.nil_append]

theorem ends_append {x y : List Char}
    (h : ∃ front c, y = front ++ [c] ∧ letterOf c ≠ none) :
    ∃ front c, x ++ y = front ++ [c] ∧ letterOf c ≠ none := by
  obtain ⟨front, c, rfl, hc⟩ := h
  exact ⟨x ++ front, c, (List.append_assoc _ _ _).symm, hc⟩

theorem letterRuns_examined_of_le (hlist : acknowledgement ∈ AMBIGUOUS_ACKNOWLEDGEMENTS)
    (hle : (s.lead ++ s.body).length ≤ MAX_CLASSIFIED_CHARS) :
    letterRuns (examined s.message).toList = phraseRuns (words acknowledgement) := by
  rw [s.examined_of_le hle, letterRuns_append_left _ s.lead_letterless,
    letterRuns_append_right _ s.tail_letterless,
    letterRuns_of_spells (isPhrase_words _ hlist) s.spells_body]

/-- The signs of a spelling that is small talk are those of the pattern. -/
theorem trailing_of_smallTalk (hmiss : acknowledgement ∈ MISSABLE)
    (hle : (s.lead ++ s.body).length ≤ MAX_CLASSIFIED_CHARS)
    (h : SmallTalk (examined s.message)) :
    acknowledgement ∈ RECOGNISED ∧ ∀ c ∈ s.examinedTail, isTrailing c = true := by
  have hprefix : ∀ acknowledgement ∈ MISSABLE, ∀ texts ∈ openingPhrases,
      phraseRuns texts <+: phraseRuns (words acknowledgement) →
        acknowledgement ∈ RECOGNISED ∧ phraseRuns texts = phraseRuns (words acknowledgement) := by
    decide
  have hlist := mem_list_of_missable acknowledgement hmiss
  obtain ⟨texts, htexts, more, hruns, hshape⟩ := runs_of_smallTalk h.in_full
  rw [s.letterRuns_examined_of_le hlist hle] at hruns
  obtain ⟨hrecognised, hsame⟩ := hprefix acknowledgement hmiss texts htexts ⟨more, hruns.symm⟩
  rw [← hsame, List.self_eq_append_right] at hruns
  obtain ⟨lead, opening, tail, -, hspells, htail, hword⟩ := hshape hruns
  rw [s.examined_of_le hle, ← List.append_assoc, ← List.append_assoc lead] at hword
  refine ⟨hrecognised, ?_⟩
  have hbody := last_of_spells (isPhrase_words _ hlist) s.spells_body
  have hopening := last_of_spells (isPhrase_opening texts htexts) hspells
  rw [suffix_eq_of_letterless hword (ends_append hbody) (ends_append hopening) s.tail_letterless
    fun c hc => letterOf_of_isTrailing (htail c hc)]
  exact htail

theorem smallTalk_iff_of_le (hmiss : acknowledgement ∈ MISSABLE)
    (hle : (s.lead ++ s.body).length ≤ MAX_CLASSIFIED_CHARS) :
    SmallTalk (examined s.message) ↔ acknowledgement ∈ RECOGNISED ∧
      (∀ c ∈ s.examinedTail, isTrailing c = true) ∧
        (words (examined s.message)).length ≤ MAX_CONVERSATIONAL_WORDS := by
  constructor
  · intro h
    obtain ⟨hrecognised, htail⟩ := s.trailing_of_smallTalk hmiss hle h
    exact ⟨hrecognised, htail, h.few_words⟩
  · intro h
    obtain ⟨hrecognised, htail, hwords⟩ := h
    have hopening : ∀ acknowledgement ∈ RECOGNISED, words acknowledgement ∈ openingPhrases := by
      decide
    refine ⟨?_, hwords, ?_⟩
    · rw [s.examined_of_le hle, List.mem_append, List.mem_append, not_or, not_or]
      refine ⟨fun hmem => ?_, s.not_mem_body (mem_list_of_missable _ hmiss) (by decide) (by decide),
        fun hmem => ?_⟩
      · exact absurd (s.lead_blank _ hmem) (by decide)
      · exact absurd (htail _ hmem) (by decide)
    · rw [s.examined_of_le hle, mem_smallTalk_iff]
      exact ⟨s.lead, s.body, [], s.examinedTail, s.lead_blank,
        ⟨words acknowledgement, hopening _ hrecognised, s.spells_body⟩,
        Language.nil_mem_kstar _, htail, rfl⟩

/-- One word without an s is plain however it is written. -/
theorem plain_of_not_missable (hlist : acknowledgement ∈ AMBIGUOUS_ACKNOWLEDGEMENTS)
    (hmiss : acknowledgement ∉ MISSABLE) : s.Plain := by
  have hwords : ∀ acknowledgement ∈ AMBIGUOUS_ACKNOWLEDGEMENTS, acknowledgement ∉ MISSABLE →
      (words acknowledgement).length = 1 ∧ ∀ text ∈ words acknowledgement, 's' ∉ text.toList := by
    decide
  obtain ⟨hone, hfree⟩ := hwords acknowledgement hlist hmiss
  have hlength := s.words_cases.length_eq
  rw [hone, List.length_cons, List.length_map] at hlength
  have hmore : s.more = [] := List.length_eq_zero_iff.mp (Nat.succ.inj hlength).symm
  constructor
  · rw [hmore]
    exact List.forall_mem_nil _
  · unfold body
    rw [hmore, List.flatMap_nil, List.append_nil]
    intro hmem
    obtain ⟨text, htext, hcases⟩ := exists_left_of_forall₂ s.words_cases List.mem_cons_self
    obtain ⟨a, ha, hsame⟩ := exists_left_of_forall₂ hcases hmem
    have hletter := letterOf_of_sameLetter (isLower_words _ hlist text htext a ha) hsame
    have hs : 's' = a := Option.some.inj hletter
    exact hfree text htext (hs ▸ ha)

end Spelling

/-- The policy with the shipped classifier skips what it does not hold back
and the classifier takes for small talk. -/
theorem shouldSkipRewrite_eq_false_iff {T : CaseTables} {message : String} :
    shouldSkipRewrite T (ruleQueryClassifier T) message = false ↔
      normalise T message ∈ AMBIGUOUS_ACKNOWLEDGEMENTS ∨ ¬ SmallTalk (examined message) := by
  rw [← classify_route_iff (T := T.toUnicodeText)]
  unfold shouldSkipRewrite ruleQueryClassifier
  split
  · exact iff_of_true rfl (.inl (by assumption))
  · rename_i hnot
    rw [decide_eq_false_iff_not, or_iff_right hnot]

/-- A spelling of an ambiguous acknowledgement is rewritten exactly when it is
plain, or the small-talk pattern does not have it, or it is cut within its
words, or the signs that are examined behind it are not all of the pattern's,
or there are more than six words of them. -/
theorem acknowledgement_rewritten_iff (T : CaseTables) (acknowledgement : String)
    (hlist : acknowledgement ∈ AMBIGUOUS_ACKNOWLEDGEMENTS) (s : Spelling T acknowledgement) :
    shouldSkipRewrite T (ruleQueryClassifier T) s.message = false ↔
      s.Plain ∨ acknowledgement ∉ Spelling.RECOGNISED ∨
        MAX_CLASSIFIED_CHARS < (s.lead ++ s.body).length ∨
          (∃ c ∈ s.examinedTail, isTrailing c = false) ∨
            MAX_CONVERSATIONAL_WORDS < (words (examined s.message)).length := by
  rw [shouldSkipRewrite_eq_false_iff, s.held_back_iff hlist]
  apply or_congr_right'
  intro hplain
  have hmiss : acknowledgement ∈ Spelling.MISSABLE := by
    by_contra hnot
    exact hplain (s.plain_of_not_missable hlist hnot)
  by_cases hcut : MAX_CLASSIFIED_CHARS < (s.lead ++ s.body).length
  · exact iff_of_true (s.not_smallTalk_of_cut hmiss hcut) (.inr (.inl hcut))
  · rw [s.smallTalk_iff_of_le hmiss (Nat.not_lt.mp hcut), not_and_or, not_and_or,
      or_iff_right hcut, Nat.not_le]
    simp only [not_forall, Bool.not_eq_true, exists_prop]

theorem toLower_of_isPythonSpace {c : Char} (h : isPythonSpace c = true) : c.toLower = c := by
  have hA : 'A'.val.toNat = 65 := rfl
  have hZ : 'Z'.val.toNat = 90 := rfl
  have hc : c.val.toNat = c.toNat := rfl
  unfold isPythonSpace at h
  simp only [Bool.or_eq_true, Bool.and_eq_true, decide_eq_true_eq] at h
  unfold Char.toLower
  rw [dif_neg]
  intro hupper
  have hlow : 'A'.val.toNat ≤ c.val.toNat := UInt32.le_iff_toNat_le.mp hupper.1
  have hhigh : c.val.toNat ≤ 'Z'.val.toNat := UInt32.le_iff_toNat_le.mp hupper.2
  omega

/-- The tables that know ASCII and the letters that fold to it. -/
def asciiCases : CaseTables where
  toUnicodeText := { asciiUnicode with
    lower := fun text => String.ofList
      (text.toList.map fun c => if c = '\u212a' then 'k' else c.toLower) }
  isPunctuation c := c ∈ [',', '!', '.', '-', '–', '—', '…', '?']
  lowerChar c := [if c = '\u212a' then 'k' else c.toLower]
  lower_eq text _ := by
    rw [String.toList_ofList, List.map_eq_flatMap]
  lowerChar_ascii c hc := by
    rw [if_neg]
    rintro rfl
    exact absurd hc (by decide)
  lowerChar_longS := by decide
  lowerChar_kelvin := by decide
  lowerChar_sign c hc := by
    have hsigns : ∀ d ∈ [',', '!', '.', '-', '–', '—', '…', '?'],
        (if d = '\u212a' then 'k' else d.toLower) = d :=
      List.all_iff_forall_prop.mp (by decide)
    cases hc with
    | inl hc => rw [hsigns c (of_decide_eq_true hc)]
    | inr hc =>
      rw [if_neg, toLower_of_isPythonSpace hc]
      rintro rfl
      exact absurd hc (by decide)
  punctuation_letter c hc := by
    have hsigns : ∀ d ∈ [',', '!', '.', '-', '–', '—', '…', '?'], letterOf d = none :=
      List.all_iff_forall_prop.mp (by decide)
    exact hsigns c (of_decide_eq_true hc)
  punctuation_sigma := by decide

/-- "got it" with two spaces. -/
def wideGotIt : Spelling asciiCases "got it" where
  lead := []
  first := "got".toList
  more := [("  ".toList, "it".toList)]
  tail := []
  lead_blank := List.forall_mem_nil _
  words_cases := by decide
  gaps_blank := List.forall_mem_singleton.mpr ⟨by decide, List.all_iff_forall_prop.mp (by decide)⟩
  tail_signs := List.forall_mem_nil _

/-- An acknowledgement with two spaces is not rewritten. -/
theorem wide_acknowledgement_skipped :
    ¬ ∀ (T : CaseTables) (acknowledgement : String) (s : Spelling T acknowledgement),
        acknowledgement ∈ AMBIGUOUS_ACKNOWLEDGEMENTS →
          shouldSkipRewrite T (ruleQueryClassifier T) s.message = false := by
  intro hnever
  have hskipped := hnever asciiCases "got it" wideGotIt (by decide)
  revert hskipped
  decide +kernel

theorem acknowledgement_rewritten_iff_wideGotIt :
    shouldSkipRewrite asciiCases (ruleQueryClassifier asciiCases) wideGotIt.message = false ↔
      wideGotIt.Plain ∨ "got it" ∉ Spelling.RECOGNISED ∨
        MAX_CLASSIFIED_CHARS < (wideGotIt.lead ++ wideGotIt.body).length ∨
          (∃ c ∈ wideGotIt.examinedTail, isTrailing c = false) ∨
            MAX_CONVERSATIONAL_WORDS < (words (examined wideGotIt.message)).length :=
  acknowledgement_rewritten_iff asciiCases "got it" (by decide) wideGotIt

end VirtualContributor.Retrieval
