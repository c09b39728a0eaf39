import Mathlib.Data.Bool.AllAny
import VirtualContributor.Retrieval.RuleClassifier

/-!
# Small talk

What the pattern of the classifier says of a message: it is an opening phrase
between blanks and closing phrases, so its runs of letters are those of the
phrases.  The classifier answers `CONVERSATIONAL` exactly when the part of the
message it examines is small talk (`classify_route_iff`).
-/

namespace VirtualContributor.Retrieval

open Lib Lib.Regex Computability

/-! ## Runs of letters -/

/-- The letter of a pattern that a character stands for. -/
def letterOf (c : Char) : Option Char :=
  if c = 'İ' || c = 'ı' then some 'i'
  else if c = 'ſ' then some 's'
  else if c = '\u212a' then some 'k'
  else if c.toLower.isLower then some c.toLower
  else none

/-- The runs of letters of a text, without regard to case. -/
def letterRuns (text : List Char) : List (List (Option Char)) :=
  ((text.map letterOf).splitOnP Option.isNone).filter (· ≠ [])

@[simp] theorem letterRuns_nil : letterRuns [] = [] := rfl

theorem letterRuns_append_cons (x y : List Char) {c : Char} (hc : letterOf c = none) :
    letterRuns (x ++ c :: y) = letterRuns x ++ letterRuns y := by
  unfold letterRuns
  rw [List.map_append, List.map_cons, List.splitOnP_append_cons _ _ (by rw [hc]; rfl),
    List.filter_append]

/-- Signs after a text do not change its runs. -/
theorem letterRuns_append_right (x : List Char) {y : List Char}
    (hy : ∀ c ∈ y, letterOf c = none) : letterRuns (x ++ y) = letterRuns x := by
  induction y generalizing x with
  | nil => rw [List.append_nil]
  | cons c y ih =>
    have hrest : letterRuns y = [] := by
      have hnil := ih [] fun d hd => hy d (List.mem_cons_of_mem _ hd)
      exact hnil
    rw [letterRuns_append_cons x y (hy c List.mem_cons_self), hrest, List.append_nil]

/-- Signs before a text do not change its runs. -/
theorem letterRuns_append_left {x : List Char} (y : List Char)
    (hx : ∀ c ∈ x, letterOf c = none) : letterRuns (x ++ y) = letterRuns y := by
  induction x with
  | nil => rfl
  | cons c x ih =>
    have hcons := letterRuns_append_cons [] (x ++ y) (hx c List.mem_cons_self)
    rw [List.cons_append]
    rw [List.nil_append] at hcons
    rw [hcons, letterRuns_nil, List.nil_append]
    exact ih fun d hd => hx d (List.mem_cons_of_mem _ hd)

/-- Signs between two texts keep their runs apart. -/
theorem letterRuns_append_signs (x y : List Char) {signs : List Char} (hne : signs ≠ [])
    (hsigns : ∀ c ∈ signs, letterOf c = none) :
    letterRuns (x ++ (signs ++ y)) = letterRuns x ++ letterRuns y := by
  obtain ⟨c, signs, rfl⟩ := List.exists_cons_of_ne_nil hne
  obtain ⟨hc, hsigns⟩ := List.forall_mem_cons.mp hsigns
  rw [List.cons_append, letterRuns_append_cons x _ hc, letterRuns_append_left y hsigns]

theorem letterRuns_cons_ne_nil {c : Char} (x : List Char) (hc : letterOf c ≠ none) :
    letterRuns (c :: x) ≠ [] := by
  obtain ⟨a, ha⟩ := Option.ne_none_iff_exists'.mp hc
  obtain ⟨run, runs, hruns⟩ :=
    List.exists_cons_of_ne_nil (List.splitOnP_ne_nil Option.isNone (x.map letterOf))
  unfold letterRuns
  rw [List.map_cons, List.splitOnP_cons_eq_if_modifyHead, ha, hruns]
  simp

theorem letterRuns_eq_nil_iff {x : List Char} :
    letterRuns x = [] ↔ ∀ c ∈ x, letterOf c = none := by
  constructor
  · intro h
    induction x with
    | nil => exact List.forall_mem_nil _
    | cons c x ih =>
      by_cases hc : letterOf c = none
      · have hcons := letterRuns_append_cons [] x hc
        rw [List.nil_append, h, letterRuns_nil, List.nil_append] at hcons
        exact List.forall_mem_cons.mpr ⟨hc, ih hcons.symm⟩
      · exact absurd h (letterRuns_cons_ne_nil x hc)
  · intro h
    have hnil := letterRuns_append_right [] h
    exact hnil

theorem letterRuns_congr {x y : List Char} (h : x.map letterOf = y.map letterOf) :
    letterRuns x = letterRuns y := by
  unfold letterRuns
  rw [h]

/-- A letter is one of four that are not ASCII, or it is ASCII. -/
theorem letter_range {c : Char} (h : letterOf c ≠ none) :
    c ∈ ['İ', 'ı', 'ſ', '\u212a'] ∨ (65 ≤ c.toNat ∧ c.toNat ≤ 122) := by
  by_contra hnot
  simp only [List.mem_cons, List.not_mem_nil, or_false, not_or] at hnot
  obtain ⟨⟨h1, h2, h3, h4⟩, hrange⟩ := hnot
  apply h
  unfold letterOf
  rw [if_neg (by simp [h1, h2]), if_neg h3, if_neg h4, if_neg]
  unfold Char.isLower Char.toLower
  simp only [ge_iff_le, Bool.and_eq_true, decide_eq_true_eq, UInt32.le_iff_toNat_le]
  have hA : 'A'.val.toNat = 65 := rfl
  have hZ : 'Z'.val.toNat = 90 := rfl
  have ha : 'a'.val.toNat = 97 := rfl
  have hz : 'z'.val.toNat = 122 := rfl
  have hc : c.val.toNat = c.toNat := rfl
  split <;> rw [hA, hZ] at * <;> omega

theorem letterOf_of_isPythonSpace {c : Char} (h : isPythonSpace c = true) : letterOf c = none := by
  by_contra hletter
  have hfour : ∀ d ∈ ['İ', 'ı', 'ſ', '\u212a'], isPythonSpace d = false :=
    List.all_iff_forall_prop.mp (by decide)
  cases letter_range hletter with
  | inl hmem =>
    rw [hfour c hmem] at h
    exact Bool.false_ne_true h
  | inr hrange =>
    unfold isPythonSpace at h
    simp only [Bool.or_eq_true, Bool.and_eq_true, decide_eq_true_eq] at h
    omega

theorem letterOf_of_isSeparator {c : Char} (h : isSeparator c = true) : letterOf c = none := by
  have hsigns : ∀ d ∈ [',', '!', '.', '-', '–', '—'], letterOf d = none :=
    List.all_iff_forall_prop.mp (by decide)
  unfold isSeparator at h
  rw [Bool.or_eq_true, decide_eq_true_eq] at h
  cases h with
  | inl h => exact letterOf_of_isPythonSpace h
  | inr h => exact hsigns c h

theorem letterOf_of_isTrailing {c : Char} (h : isTrailing c = true) : letterOf c = none := by
  unfold isTrailing at h
  rw [Bool.or_eq_true, decide_eq_true_eq] at h
  cases h with
  | inl h => exact letterOf_of_isSeparator h
  | inr h => rw [h]; decide

/-! ## Spelled phrases -/

/-- The characters of the patterns' phrases. -/
def isPatternChar (a : Char) : Bool := a.isLower || a = '\''

theorem toLower_of_isLower {a : Char} (h : a.isLower = true) : a.toLower = a := by
  unfold Char.isLower at h
  simp only [ge_iff_le, Bool.and_eq_true, decide_eq_true_eq, UInt32.le_iff_toNat_le] at h
  unfold Char.toLower
  rw [dif_neg]
  intro hupper
  have hle : a.val.toNat ≤ 'Z'.val.toNat := UInt32.le_iff_toNat_le.mp hupper.2
  have hlt : 'Z'.val.toNat < 'a'.val.toNat := by decide
  omega

/-- Away from the four letters that are not ASCII, a character stands for its
lower case. -/
theorem letterOf_eq {c a : Char} (hlower : c.toLower = a) (ha : isPatternChar a = true) :
    letterOf c = if a.isLower then some a else none := by
  have hne : ∀ d : Char, d.toLower = d → isPatternChar d = false → c ≠ d := by
    intro d hd hnot hcd
    rw [hcd, hd] at hlower
    rw [hlower, ha] at hnot
    exact Bool.false_ne_true hnot.symm
  unfold letterOf
  rw [if_neg, if_neg (hne _ (by decide) (by decide)), if_neg (hne _ (by decide) (by decide)),
    hlower]
  rw [Bool.or_eq_true, decide_eq_true_eq, decide_eq_true_eq]
  exact not_or_intro (hne _ (by decide) (by decide)) (hne _ (by decide) (by decide))

theorem letterOf_patternChar {a : Char} (ha : isPatternChar a = true) :
    letterOf a = if a.isLower then some a else none := by
  apply letterOf_eq _ ha
  unfold isPatternChar at ha
  rw [Bool.or_eq_true, decide_eq_true_eq] at ha
  cases ha with
  | inl ha => exact toLower_of_isLower ha
  | inr ha => rw [ha]; decide

theorem letterOf_of_isLower {a : Char} (h : a.isLower = true) : letterOf a = some a := by
  have ha : isPatternChar a = true := by
    unfold isPatternChar
    rw [h]
    rfl
  rw [letterOf_patternChar ha, if_pos h]

/-- A character that a letter of a phrase matches stands for it. -/
theorem letterOf_eq_of_same {a c : Char} (ha : isPatternChar a = true)
    (h : sameIgnoringCase a c = true) : letterOf c = letterOf a := by
  unfold sameIgnoringCase at h
  simp only [Bool.or_eq_true, Bool.and_eq_true, decide_eq_true_eq] at h
  obtain ((hlower | ⟨rfl, rfl | rfl⟩) | ⟨rfl, rfl⟩) | ⟨rfl, rfl⟩ := h
  · rw [letterOf_eq hlower ha, letterOf_patternChar ha]
  · decide
  · decide
  · decide
  · decide

/-- What a literal text of a pattern is made of. -/
def textParts (text : String) : List Regex := text.toList.map fun c => .chars (sameIgnoringCase c)

/-- What `\s+` is made of. -/
def gapParts : List Regex := [.chars isPythonSpace, many (.chars isPythonSpace)]

/-- What literal texts with `\s+` between them are made of. -/
def phraseParts : List String → List Regex
  | [] => []
  | [text] => textParts text
  | text :: texts => textParts text ++ gapParts ++ phraseParts texts

/-- The opening phrases. -/
def openingPhrases : List (List String) :=
  [["hi"], ["hey"], ["hello"], ["yo"], ["greetings"], ["good", "morning"], ["good", "afternoon"],
    ["good", "evening"], ["good", "day"], ["thanks"], ["thank"], ["thank", "you"], ["thx"], ["ty"],
    ["cheers"], ["much", "appreciated"], ["ok"], ["okay"], ["alright"], ["cool"], ["nice"],
    ["great"], ["awesome"], ["perfect"], ["excellent"], ["got", "it"], ["understood"],
    ["makes", "sense"], ["noted"], ["fair", "enough"], ["will", "do"], ["bye"], ["goodbye"],
    ["see", "you"], ["later"], ["farewell"], ["take", "care"], ["sorry"], ["my", "bad"],
    ["no", "worries"], ["np"], ["how", "are", "you"], ["how's", "it", "going"], ["what's", "up"],
    ["sup"]]

/-- The closing phrases. -/
def closingPhrases : List (List String) :=
  [["there"], ["all"], ["everyone"], ["again"], ["so", "much"], ["a", "lot"], ["very", "much"],
    ["mate"], ["friend"], ["team"], ["that", "was", "helpful"], ["that", "was", "great"],
    ["that", "was", "useful"], ["that", "was", "perfect"], ["that", "helpful"], ["that", "great"],
    ["that", "useful"], ["that", "perfect"], ["for", "that"], ["for", "the", "help"],
    ["for", "your", "help"], ["and", "thanks"], ["and", "thank"], ["and", "bye"],
    ["and", "goodbye"], ["cheers"], ["thanks"], ["thank"], ["bye"], ["goodbye"], ["ok"], ["okay"]]

theorem expand_smallTalkOpening : smallTalkOpening.expand = openingPhrases.map phraseParts := rfl

theorem expand_smallTalkClosing : smallTalkClosing.expand = closingPhrases.map phraseParts := rfl

/-- A phrase as it is written in a message. -/
def Spells (texts : List String) (word : List Char) : Prop := word ∈ sequence (phraseParts texts)

theorem mem_language_iff_phrases {r : Regex} {phrases : List (List String)}
    (h : r.expand = phrases.map phraseParts) {word : List Char} :
    word ∈ r.language ↔ ∃ texts ∈ phrases, Spells texts word := by
  rw [mem_language_iff_expand, h]
  simp only [List.mem_map, exists_exists_and_eq_and]
  rfl

/-- A literal text matches a character for each of its own. -/
theorem spells_singleton {text : String} {word : List Char} :
    Spells [text] word ↔
      List.Forall₂ (fun a c => sameIgnoringCase a c = true) text.toList word := by
  rw [← mem_language_spelled, ← sequence_chars]
  rfl

/-- A phrase is its first text, blanks, and the other texts. -/
theorem spells_cons_cons {text next : String} {texts : List String} {word : List Char} :
    Spells (text :: next :: texts) word ↔
      ∃ first blanks rest, Spells [text] first ∧
        (blanks ≠ [] ∧ ∀ c ∈ blanks, isPythonSpace c = true) ∧ Spells (next :: texts) rest ∧
        word = first ++ (blanks ++ rest) := by
  show word ∈ sequence (textParts text ++ gapParts ++ phraseParts (next :: texts)) ↔ _
  rw [sequence_append, sequence_append, mul_assoc, Language.mem_mul]
  simp only [Language.mem_mul]
  constructor
  · intro h
    obtain ⟨first, hfirst, tail, ⟨blanks, hblanks, rest, hrest, rfl⟩, rfl⟩ := h
    exact ⟨first, blanks, rest, hfirst, mem_sequence_chars_many.mp hblanks, hrest, rfl⟩
  · intro h
    obtain ⟨first, blanks, rest, hfirst, hblanks, hrest, rfl⟩ := h
    exact ⟨first, hfirst, blanks ++ rest,
      ⟨blanks, mem_sequence_chars_many.mpr hblanks, rest, hrest, rfl⟩, rfl⟩

/-- A text of a phrase begins and ends with a letter. -/
def isPhraseText (text : String) : Bool :=
  text.toList.all isPatternChar && text.toList.head?.any Char.isLower &&
    text.toList.getLast?.any Char.isLower

def isPhrase (texts : List String) : Bool := !texts.isEmpty && texts.all isPhraseText

theorem isPhrase_opening : ∀ texts ∈ openingPhrases, isPhrase texts = true := by decide +kernel

theorem isPhrase_closing : ∀ texts ∈ closingPhrases, isPhrase texts = true := by decide +kernel

/-- A written phrase is a text, or a text, blanks and a written phrase. -/
theorem spells_induction {motive : List String → List Char → Prop}
    (single : ∀ text word, isPhraseText text = true → Spells [text] word → motive [text] word)
    (cons : ∀ text first blanks texts rest, isPhraseText text = true → Spells [text] first →
      blanks ≠ [] → (∀ c ∈ blanks, letterOf c = none) → motive texts rest →
        motive (text :: texts) (first ++ (blanks ++ rest)))
    {texts : List String} {word : List Char} (hphrase : isPhrase texts = true)
    (h : Spells texts word) : motive texts word := by
  unfold isPhrase at hphrase
  rw [Bool.and_eq_true, List.all_eq_true] at hphrase
  induction texts generalizing word with
  | nil => exact absurd hphrase.1 (by decide)
  | cons text texts ih =>
    obtain ⟨htext, htexts⟩ := List.forall_mem_cons.mp hphrase.2
    cases texts with
    | nil => exact single text word htext h
    | cons next texts =>
      obtain ⟨first, blanks, rest, hfirst, ⟨hne, hblanks⟩, hrest, rfl⟩ := spells_cons_cons.mp h
      exact cons text first blanks (next :: texts) rest htext hfirst hne
        (fun c hc => letterOf_of_isPythonSpace (hblanks c hc)) (ih ⟨rfl, htexts⟩ hrest)

/-- The letters of a written text are those of the pattern. -/
theorem map_letterOf_of_spells {text : String} {word : List Char}
    (htext : isPhraseText text = true) (h : Spells [text] word) :
    word.map letterOf = text.toList.map letterOf := by
  rw [spells_singleton] at h
  unfold isPhraseText at htext
  rw [Bool.and_eq_true, Bool.and_eq_true, List.all_eq_true] at htext
  replace htext := htext.1.1
  generalize text.toList = letters at h htext
  induction h with
  | nil => rfl
  | cons hsame hrest ih =>
    obtain ⟨hfirst, htail⟩ := List.forall_mem_cons.mp htext
    rw [List.map_cons, List.map_cons, letterOf_eq_of_same hfirst hsame, ih htail]

/-- The runs of letters of a phrase. -/
def phraseRuns (texts : List String) : List (List (Option Char)) :=
  texts.flatMap fun text => letterRuns text.toList

theorem letterRuns_of_spells {texts : List String} {word : List Char}
    (hphrase : isPhrase texts = true) (h : Spells texts word) :
    letterRuns word = phraseRuns texts := by
  apply spells_induction (motive := fun texts word => letterRuns word = phraseRuns texts) _ _
    hphrase h
  · intro text word htext h
    unfold phraseRuns
    rw [List.flatMap_singleton]
    exact letterRuns_congr (map_letterOf_of_spells htext h)
  · intro text first blanks texts rest htext hfirst hne hblanks ih
    unfold phraseRuns at ih ⊢
    rw [letterRuns_append_signs first rest hne hblanks, ih, List.flatMap_cons,
      letterRuns_congr (map_letterOf_of_spells htext hfirst)]

theorem head_map_letterOf {text : String} {word : List Char}
    (htext : isPhraseText text = true) (h : Spells [text] word) :
    ∃ c rest, word = c :: rest ∧ letterOf c ≠ none := by
  have hmap := congrArg List.head? (map_letterOf_of_spells htext h)
  unfold isPhraseText at htext
  rw [Bool.and_eq_true, Bool.and_eq_true, Option.any_eq_true] at htext
  obtain ⟨a, ha, hlower⟩ := htext.1.2
  rw [List.head?_map, List.head?_map, ha, Option.map_some, letterOf_of_isLower hlower] at hmap
  obtain ⟨c, hc, hletter⟩ := Option.map_eq_some_iff.mp hmap
  obtain ⟨rest, hword⟩ := List.head?_eq_some_iff.mp hc
  exact ⟨c, rest, hword, by rw [hletter]; exact Option.some_ne_none a⟩

theorem last_map_letterOf {text : String} {word : List Char}
    (htext : isPhraseText text = true) (h : Spells [text] word) :
    ∃ front c, word = front ++ [c] ∧ letterOf c ≠ none := by
  have hmap := congrArg List.getLast? (map_letterOf_of_spells htext h)
  unfold isPhraseText at htext
  rw [Bool.and_eq_true, Option.any_eq_true] at htext
  obtain ⟨a, ha, hlower⟩ := htext.2
  rw [List.getLast?_map, List.getLast?_map, ha, Option.map_some, letterOf_of_isLower hlower] at hmap
  obtain ⟨c, hc, hletter⟩ := Option.map_eq_some_iff.mp hmap
  obtain ⟨front, hword⟩ := List.getLast?_eq_some_iff.mp hc
  exact ⟨front, c, hword, by rw [hletter]; exact Option.some_ne_none a⟩

/-- A written phrase begins with a letter. -/
theorem head_of_spells {texts : List String} {word : List Char}
    (hphrase : isPhrase texts = true) (h : Spells texts word) :
    ∃ c rest, word = c :: rest ∧ letterOf c ≠ none := by
  apply spells_induction
    (motive := fun _ word => ∃ c rest, word = c :: rest ∧ letterOf c ≠ none) _ _ hphrase h
  · intro text word htext h
    exact head_map_letterOf htext h
  · intro text first blanks texts rest htext hfirst _ _ _
    obtain ⟨c, tail, rfl, hletter⟩ := head_map_letterOf htext hfirst
    exact ⟨c, tail ++ (blanks ++ rest), rfl, hletter⟩

/-- A written phrase ends with a letter. -/
theorem last_of_spells {texts : List String} {word : List Char}
    (hphrase : isPhrase texts = true) (h : Spells texts word) :
    ∃ front c, word = front ++ [c] ∧ letterOf c ≠ none := by
  apply spells_induction
    (motive := fun _ word => ∃ front c, word = front ++ [c] ∧ letterOf c ≠ none) _ _ hphrase h
  · intro text word htext h
    exact last_map_letterOf htext h
  · intro text first blanks texts rest htext hfirst _ _ ih
    obtain ⟨front, c, rfl, hletter⟩ := ih
    exact ⟨first ++ (blanks ++ front), c, by simp only [List.append_assoc], hletter⟩

/-! ## The shape of small talk -/

/-- Closing phrases, each behind separators. -/
def closings : Regex := many (some' (.chars isSeparator) * smallTalkClosing)

/-- Small talk is an opening phrase between blanks and closings, before signs. -/
theorem mem_smallTalk_iff {word : List Char} :
    word ∈ smallTalk.language ↔ ∃ lead opening middle tail,
      (∀ c ∈ lead, isPythonSpace c = true) ∧ (∃ texts ∈ openingPhrases, Spells texts opening) ∧
        middle ∈ closings.language ∧ (∀ c ∈ tail, isTrailing c = true) ∧
        word = lead ++ (opening ++ (middle ++ tail)) := by
  have hlanguage : smallTalk.language = (many (.chars isPythonSpace)).language *
      (smallTalkOpening.language * (closings.language * (many (.chars isTrailing)).language)) := by
    unfold smallTalk
    rw [language_mul, language_mul, language_mul, mul_assoc, mul_assoc]
    rfl
  rw [hlanguage]
  simp only [Language.mem_mul, mem_language_many_chars,
    mem_language_iff_phrases expand_smallTalkOpening]
  constructor
  · intro h
    obtain ⟨lead, hlead, _, ⟨opening, hopening, _, ⟨middle, hmiddle, tail, htail, rfl⟩, rfl⟩,
      rfl⟩ := h
    exact ⟨lead, opening, middle, tail, hlead, hopening, hmiddle, htail, rfl⟩
  · intro h
    obtain ⟨lead, opening, middle, tail, hlead, hopening, hmiddle, htail, rfl⟩ := h
    exact ⟨lead, hlead, _, ⟨opening, hopening, _, ⟨middle, hmiddle, tail, htail, rfl⟩, rfl⟩, rfl⟩

/-- Closings are nothing, or a sign and a text with letters. -/
theorem letters_of_closings {middle : List Char} (h : middle ∈ closings.language) :
    middle = [] ∨
      ∃ c rest, middle = c :: rest ∧ letterOf c = none ∧ letterRuns rest ≠ [] := by
  obtain ⟨parts, rfl, hparts⟩ := Language.mem_kstar_iff_exists_nonempty.mp h
  cases parts with
  | nil => exact .inl rfl
  | cons part parts =>
    obtain ⟨separators, hseparators, closing, hclosing, hpart⟩ :=
      Language.mem_mul.mp (hparts part List.mem_cons_self).1
    obtain ⟨one, ⟨c, hc, rfl⟩, more, -, rfl⟩ := Language.mem_mul.mp hseparators
    obtain ⟨texts, htexts, hspells⟩ :=
      (mem_language_iff_phrases expand_smallTalkClosing).mp hclosing
    obtain ⟨d, rest, rfl, hd⟩ := head_of_spells (isPhrase_closing texts htexts) hspells
    refine .inr ⟨c, more ++ d :: rest ++ parts.flatten, ?_, letterOf_of_isSeparator hc, ?_⟩
    · rw [List.flatten_cons, ← hpart]
      rfl
    · intro hnil
      apply hd
      apply letterRuns_eq_nil_iff.mp hnil
      exact List.mem_append_left _ (List.mem_append_right _ List.mem_cons_self)

/-- The runs of small talk are those of an opening phrase and of closings.
Without closings there are blanks before the phrase and signs after it. -/
theorem runs_of_smallTalk {word : List Char} (h : word ∈ smallTalk.language) :
    ∃ texts ∈ openingPhrases, ∃ more, letterRuns word = phraseRuns texts ++ more ∧
      (more = [] → ∃ lead opening tail, (∀ c ∈ lead, letterOf c = none) ∧ Spells texts opening ∧
        (∀ c ∈ tail, isTrailing c = true) ∧ word = lead ++ (opening ++ tail)) := by
  obtain ⟨lead, opening, middle, tail, hlead, ⟨texts, htexts, hspells⟩, hmiddle, htail, rfl⟩ :=
    mem_smallTalk_iff.mp h
  have hblanks : ∀ c ∈ lead, letterOf c = none := fun c hc => letterOf_of_isPythonSpace (hlead c hc)
  have hsigns : ∀ c ∈ tail, letterOf c = none := fun c hc => letterOf_of_isTrailing (htail c hc)
  have hruns := letterRuns_of_spells (isPhrase_opening texts htexts) hspells
  refine ⟨texts, htexts, ?_⟩
  cases letters_of_closings hmiddle with
  | inl hnil =>
    refine ⟨[], ?_, fun _ => ⟨lead, opening, tail, hblanks, hspells, htail, by rw [hnil]; rfl⟩⟩
    rw [hnil, List.nil_append, letterRuns_append_left _ hblanks,
      letterRuns_append_right _ hsigns, hruns, List.append_nil]
  | inr hcons =>
    obtain ⟨c, rest, rfl, hc, hne⟩ := hcons
    refine ⟨letterRuns rest, ?_, fun hnil => absurd hnil hne⟩
    rw [letterRuns_append_left _ hblanks, List.cons_append, letterRuns_append_cons _ _ hc,
      letterRuns_append_right _ hsigns, hruns]

/-- Small talk has a letter. -/
theorem letterRuns_ne_nil_of_smallTalk {word : List Char} (h : word ∈ smallTalk.language) :
    letterRuns word ≠ [] := by
  have hphrases : ∀ texts ∈ openingPhrases, phraseRuns texts ≠ [] := by decide +kernel
  obtain ⟨texts, htexts, more, hruns, -⟩ := runs_of_smallTalk h
  rw [hruns]
  exact List.append_ne_nil_of_left_ne_nil (hphrases texts htexts) more

/-- A line break after small talk belongs to it. -/
theorem smallTalk_append_newline {word : List Char} (h : word ∈ smallTalk.language) :
    word ++ ['\n'] ∈ smallTalk.language := by
  rw [mem_smallTalk_iff] at h ⊢
  obtain ⟨lead, opening, middle, tail, hlead, hopening, hmiddle, htail, rfl⟩ := h
  refine ⟨lead, opening, middle, tail ++ ['\n'], hlead, hopening, hmiddle, ?_, ?_⟩
  · intro c hc
    cases List.mem_append.mp hc with
    | inl hc => exact htail c hc
    | inr hc => rw [List.mem_singleton.mp hc]; decide
  · simp only [List.append_assoc]

/-! ## What the classifier decides -/

/-- A message of small talk. -/
structure SmallTalk (message : String) : Prop where
  no_question : '?' ∉ message.toList
  few_words : (words message).length ≤ MAX_CONVERSATIONAL_WORDS
  in_full : message.toList ∈ smallTalk.language

theorem isMatch_conversational_iff {isWord : Char → Bool} {message : String} :
    isMatch isWord CONVERSATIONAL_RE message = true ↔ message.toList ∈ smallTalk.language := by
  unfold CONVERSATIONAL_RE
  rw [isMatch_anchored_iff (by rfl)]
  constructor
  · intro h
    cases h with
    | inl h => exact h
    | inr h =>
      obtain ⟨word, hword, hmessage⟩ := h
      rw [hmessage]
      exact smallTalk_append_newline hword
  · exact .inl

variable {T : UnicodeText} {message : String}

theorem isConversational_iff : isConversational T message = true ↔ SmallTalk message := by
  unfold isConversational
  constructor
  · intro h
    split at h
    · exact absurd h Bool.false_ne_true
    · split at h
      · exact absurd h Bool.false_ne_true
      · exact ⟨by assumption, Nat.not_lt.mp (by assumption), isMatch_conversational_iff.mp h⟩
  · intro h
    rw [if_neg h.no_question, if_neg (Nat.not_lt.mpr h.few_words)]
    exact isMatch_conversational_iff.mpr h.in_full

/-- Small talk is not blank. -/
theorem SmallTalk.strip_ne_empty (h : SmallTalk message) : strip message ≠ "" := by
  intro hblank
  apply letterRuns_ne_nil_of_smallTalk h.in_full
  rw [letterRuns_eq_nil_iff]
  exact fun c hc => letterOf_of_isPythonSpace (strip_eq_empty_iff.mp hblank c hc)

/-- The route is `CONVERSATIONAL` when the examined part is small talk. -/
theorem classify_route_iff :
    (classify T message).route = .CONVERSATIONAL ↔ SmallTalk (examined message) := by
  unfold classify
  dsimp only
  constructor
  · intro h
    split at h
    · exact absurd h (by decide)
    · split at h
      · exact absurd h (by decide)
      · split at h
        · exact isConversational_iff.mp (by assumption)
        · split at h
          · exact absurd h (by decide)
          · split at h
            · exact absurd h (by decide)
            · exact absurd h (by decide)
  · intro h
    have hne : message ≠ "" := by
      intro hmessage
      rw [hmessage] at h
      exact h.strip_ne_empty rfl
    rw [if_neg hne, if_neg h.strip_ne_empty, if_pos (isConversational_iff.mpr h)]

/-- A message that is not cut is examined as it is. -/
theorem examined_eq_self (h : message.length ≤ MAX_CLASSIFIED_CHARS) :
    examined message = message := by
  unfold examined
  rw [List.take_of_length_le (by rw [String.length_toList]; exact h), String.ofList_toList]

/-- What is cut off leaves the message small talk. -/
structure HarmlessCut (message : String) : Prop where
  no_question : '?' ∉ message.toList.drop MAX_CLASSIFIED_CHARS
  few_words : (words message).length ≤ MAX_CONVERSATIONAL_WORDS
  in_full : message.toList ∈ smallTalk.language

theorem toList_examined (message : String) :
    (examined message).toList = message.toList.take MAX_CLASSIFIED_CHARS := by
  unfold examined
  rw [String.toList_ofList]

/-- If the examined part is small talk, the message is when the cut is
harmless. -/
theorem smallTalk_iff_harmlessCut (h : SmallTalk (examined message)) :
    SmallTalk message ↔ HarmlessCut message := by
  have hquestion := h.no_question
  rw [toList_examined] at hquestion
  constructor
  · intro hmessage
    exact ⟨fun hmem => hmessage.no_question ((List.drop_sublist _ _).subset hmem),
      hmessage.few_words, hmessage.in_full⟩
  · intro hcut
    refine ⟨?_, hcut.few_words, hcut.in_full⟩
    rw [← List.take_append_drop MAX_CLASSIFIED_CHARS message.toList, List.mem_append]
    exact not_or_intro hquestion hcut.no_question

/-- The route judges the whole message exactly when the message is not cut,
or the part that is left is not small talk, or the cut is harmless. -/
theorem classify_judges_whole_iff (T : UnicodeText) (message : String) :
    ((classify T message).route = .CONVERSATIONAL → SmallTalk message) ↔
      message.length ≤ MAX_CLASSIFIED_CHARS ∨ ¬ SmallTalk (examined message) ∨
        HarmlessCut message := by
  rw [classify_route_iff]
  constructor
  · intro h
    by_cases hexamined : SmallTalk (examined message)
    · exact .inr (.inr ((smallTalk_iff_harmlessCut hexamined).mp (h hexamined)))
    · exact .inr (.inl hexamined)
  · intro h hexamined
    obtain hshort | hnot | hcut := h
    · rw [examined_eq_self hshort] at hexamined
      exact hexamined
    · exact absurd hexamined hnot
    · exact (smallTalk_iff_harmlessCut hexamined).mpr hcut

/-- A greeting, blanks up to the limit, and a question. -/
def paddedQuestion : String :=
  String.ofList ("hi".toList ++ List.replicate 4094 ' ' ++ "what is X?".toList)

theorem examined_paddedQuestion :
    examined paddedQuestion = String.ofList ("hi".toList ++ List.replicate 4094 ' ') := by
  have hlength : ("hi".toList ++ List.replicate 4094 ' ').length = MAX_CLASSIFIED_CHARS := by
    rw [List.length_append, List.length_replicate]
    rfl
  unfold examined paddedQuestion
  rw [String.toList_ofList, List.take_left' hlength]

theorem smallTalk_padded (n : Nat) :
    SmallTalk (String.ofList ("hi".toList ++ List.replicate n ' ')) := by
  constructor
  · rw [String.toList_ofList]
    simp
  · refine Nat.le_trans (length_words_le _) ?_
    rw [String.toList_ofList, List.filter_append, List.filter_replicate_of_neg (by decide)]
    decide
  · rw [String.toList_ofList, mem_smallTalk_iff]
    refine ⟨[], "hi".toList, [], List.replicate n ' ', List.forall_mem_nil _, ?_, ?_, ?_, rfl⟩
    · exact ⟨["hi"], by decide, spells_singleton.mpr (by decide)⟩
    · exact Language.nil_mem_kstar _
    · intro c hc
      rw [List.eq_of_mem_replicate hc]
      decide

/-- The padded question is taken for small talk. -/
theorem padded_question_is_conversational :
    ¬ ∀ (T : UnicodeText) (message : String),
        (classify T message).route = .CONVERSATIONAL → SmallTalk message := by
  intro hwhole
  have hroute : (classify asciiUnicode paddedQuestion).route = .CONVERSATIONAL := by
    rw [classify_route_iff, examined_paddedQuestion]
    exact smallTalk_padded 4094
  apply (hwhole asciiUnicode paddedQuestion hroute).no_question
  unfold paddedQuestion
  rw [String.toList_ofList]
  exact List.mem_append_right _ (by decide)

end VirtualContributor.Retrieval
