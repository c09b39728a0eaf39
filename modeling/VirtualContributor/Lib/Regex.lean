import Mathlib.Computability.Language
import Mathlib.Logic.Relation

/-!
# Regular expressions

A pattern is tried at a spot of a text, the character before it and the rest
after it.  `ends` lists the spots where a match may end, in the order in which
a backtracking matcher tries them.  `ends_iff` says which these are for a
pattern without assertions: those behind a word of its language.
-/

namespace VirtualContributor.Lib

open Computability

/-- A pattern.  `start`, `finish` and `wordBoundary` are `^`, `$` and `\b`. -/
inductive Regex where
  | empty
  | chars (accepts : Char → Bool)
  | seq (left right : Regex)
  | alt (left right : Regex)
  | star (greedy : Bool) (body : Regex)
  | start
  | finish
  | wordBoundary

/-- A place in a text. -/
structure Spot where
  prev : Option Char
  rest : List Char
deriving DecidableEq

namespace Regex

instance : One Regex := ⟨.empty⟩

instance : Mul Regex := ⟨.seq⟩

instance : Add Regex := ⟨.alt⟩

/-! ## Derived patterns -/

/-- `r*` -/
def many (r : Regex) : Regex := .star true r

/-- `r+` -/
def some' (r : Regex) : Regex := r * many r

/-- `r?` -/
def opt (r : Regex) : Regex := r + 1

/-- `r|s|...` -/
def anyOf : List Regex → Regex
  | [] => .chars fun _ => false
  | [r] => r
  | r :: rs => r + anyOf rs

/-- The characters of a word one after the other, each matched as `same` says. -/
def spelled (same : Char → Char → Bool) (word : List Char) : Regex :=
  word.foldr (fun c r => .chars (same c) * r) 1

/-! ## Matching -/

/-- One round after the other of `step`, each of which must consume something. -/
def repeated (step : Spot → List Spot) (greedy : Bool) : Nat → Spot → List Spot
  | 0, spot => [spot]
  | n + 1, spot =>
    let more := ((step spot).filter fun next => next.rest.length < spot.rest.length).flatMap
      (repeated step greedy n)
    if greedy then more ++ [spot] else spot :: more

/-- Where a match that starts at a spot may end. -/
def ends (isWord : Char → Bool) : Regex → Spot → List Spot
  | .empty, spot => [spot]
  | .chars accepts, spot =>
    match spot.rest with
    | [] => []
    | c :: rest => if accepts c then [⟨c, rest⟩] else []
  | .seq left right, spot => (ends isWord left spot).flatMap (ends isWord right)
  | .alt left right, spot => ends isWord left spot ++ ends isWord right spot
  | .star greedy body, spot => repeated (ends isWord body) greedy spot.rest.length spot
  | .start, spot => if spot.prev = none then [spot] else []
  | .finish, spot => if spot.rest = [] || spot.rest = ['\n'] then [spot] else []
  | .wordBoundary, spot =>
    if spot.prev.any isWord ≠ spot.rest.head?.any isWord then [spot] else []

/-- The spots of a text from a character on. -/
def spots : Option Char → List Char → List Spot
  | prev, [] => [⟨prev, []⟩]
  | prev, c :: rest => ⟨prev, c :: rest⟩ :: spots (some c) rest

/-- `bool(re.match(pattern, text))`. -/
def isMatch (isWord : Char → Bool) (r : Regex) (text : String) : Bool :=
  !(ends isWord r ⟨none, text.toList⟩).isEmpty

/-- `bool(re.search(pattern, text))`. -/
def search (isWord : Char → Bool) (r : Regex) (text : String) : Bool :=
  (spots none text.toList).any fun spot => !(ends isWord r spot).isEmpty

/-- The text between the first `opening` and the `closing` after it, as the
group of `re.search` with the pattern `opening(body)closing`. -/
def capture (isWord : Char → Bool) (opening body closing : Regex) (text : String) :
    Option String :=
  let groups := do
    let from' ← spots none text.toList
    let begun ← ends isWord opening from'
    let done ← ends isWord body begun
    let _ ← ends isWord closing done
    return begun.rest.take (begun.rest.length - done.rest.length)
  groups.head?.map String.ofList

/-- `pattern.sub(replacement, text)` from a spot on, for a pattern that matches no
empty text.  `step` gives the spots where a match may end. -/
def subFrom (step : Spot → List Spot) (replacement : List Char) : Nat → Spot → List Char
  | 0, spot => spot.rest
  | n + 1, spot =>
    match spot.rest with
    | [] => []
    | c :: rest =>
      match (step spot).head? with
      | none => c :: subFrom step replacement n ⟨c, rest⟩
      | some next => replacement ++ subFrom step replacement n next

/-- `pattern.sub(replacement, text)`. -/
def sub (step : Spot → List Spot) (replacement text : String) : String :=
  String.ofList (subFrom step replacement.toList text.toList.length ⟨none, text.toList⟩)

/-! ## Languages -/

/-- The words that a pattern matches; an assertion consumes nothing. -/
def language : Regex → Language Char
  | .empty => 1
  | .chars accepts => {word | ∃ c, accepts c = true ∧ word = [c]}
  | .seq left right => language left * language right
  | .alt left right => language left + language right
  | .star _ body => (language body)∗
  | .start => 1
  | .finish => 1
  | .wordBoundary => 1

/-- Whether a pattern has no assertion. -/
def plain : Regex → Bool
  | .empty => true
  | .chars _ => true
  | .seq left right => plain left && plain right
  | .alt left right => plain left && plain right
  | .star _ body => plain body
  | .start => false
  | .finish => false
  | .wordBoundary => false

@[simp] theorem language_one : (1 : Regex).language = 1 := rfl

@[simp] theorem language_mul (r s : Regex) : (r * s).language = r.language * s.language := rfl

@[simp] theorem language_add (r s : Regex) : (r + s).language = r.language + s.language := rfl

@[simp] theorem language_many (r : Regex) : r.many.language = r.language∗ := rfl

@[simp] theorem mem_language_chars {accepts : Char → Bool} {word : List Char} :
    word ∈ (chars accepts).language ↔ ∃ c, accepts c = true ∧ word = [c] := Iff.rfl

/-- A pattern for one character after the other. -/
theorem mem_language_many_chars {accepts : Char → Bool} {word : List Char} :
    word ∈ (chars accepts).many.language ↔ ∀ c ∈ word, accepts c = true := by
  rw [language_many, Language.mem_kstar]
  constructor
  · intro h c hc
    obtain ⟨parts, hword, hparts⟩ := h
    rw [hword, List.mem_flatten] at hc
    obtain ⟨part, hpart, hc⟩ := hc
    obtain ⟨d, hd, hone⟩ := hparts part hpart
    rw [hone, List.mem_singleton] at hc
    rw [hc]
    exact hd
  · intro h
    refine ⟨word.map fun c => [c], ?_, ?_⟩
    · rw [← List.flatMap_def, List.flatMap_singleton']
    · intro part hpart
      obtain ⟨c, hc, hone⟩ := List.mem_map.mp hpart
      exact ⟨c, h c hc, hone.symm⟩

theorem mem_language_spelled {same : Char → Char → Bool} {pattern word : List Char} :
    word ∈ (spelled same pattern).language ↔
      List.Forall₂ (fun c d => same c d = true) pattern word := by
  induction pattern generalizing word with
  | nil => exact List.forall₂_nil_left_iff.symm
  | cons c pattern ih =>
    show word ∈ (chars (same c)).language * (spelled same pattern).language ↔ _
    rw [Language.mem_mul, List.forall₂_cons_left_iff]
    constructor
    · intro h
      obtain ⟨one, ⟨d, hd, hone⟩, rest, hrest, hword⟩ := h
      refine ⟨d, rest, hd, ih.mp hrest, ?_⟩
      rw [← hword, hone]
      rfl
    · intro h
      obtain ⟨d, rest, hd, hrest, hword⟩ := h
      exact ⟨[d], ⟨d, hd, rfl⟩, rest, ih.mpr hrest, hword.symm⟩

/-! ## Alternatives one by one -/

/-- The sequences that the alternatives of a pattern come to; its repetitions
and assertions stay as they are. -/
def expand : Regex → List (List Regex)
  | .empty => [[]]
  | .seq left right => (expand left).flatMap fun u => (expand right).map fun v => u ++ v
  | .alt left right => expand left ++ expand right
  | r => [[r]]

/-- The words of a sequence. -/
def sequence (parts : List Regex) : Language Char := (parts.map language).prod

@[simp] theorem sequence_nil : sequence [] = 1 := rfl

theorem sequence_cons (r : Regex) (parts : List Regex) :
    sequence (r :: parts) = r.language * sequence parts := by
  unfold sequence
  rw [List.map_cons, List.prod_cons]

theorem sequence_append (u v : List Regex) : sequence (u ++ v) = sequence u * sequence v := by
  unfold sequence
  rw [List.map_append, List.prod_append]

theorem sequence_chars (same : Char → Char → Bool) (letters : List Char) :
    sequence (letters.map fun c => .chars (same c)) = (spelled same letters).language := by
  induction letters with
  | nil => rfl
  | cons c letters ih =>
    rw [List.map_cons, sequence_cons, ih]
    rfl

/-- `r+` for one character matches the texts of such characters that are not
empty. -/
theorem mem_sequence_chars_many {accepts : Char → Bool} {word : List Char} :
    word ∈ sequence [chars accepts, many (chars accepts)] ↔
      word ≠ [] ∧ ∀ c ∈ word, accepts c = true := by
  rw [sequence_cons, sequence_cons, sequence_nil, mul_one, Language.mem_mul]
  constructor
  · intro h
    obtain ⟨one, ⟨c, hc, rfl⟩, rest, hrest, rfl⟩ := h
    exact ⟨List.cons_ne_nil c rest,
      List.forall_mem_cons.mpr ⟨hc, mem_language_many_chars.mp hrest⟩⟩
  · intro h
    obtain ⟨c, rest, rfl⟩ := List.exists_cons_of_ne_nil h.1
    obtain ⟨hc, hrest⟩ := List.forall_mem_cons.mp h.2
    exact ⟨[c], ⟨c, hc, rfl⟩, rest, mem_language_many_chars.mpr hrest, rfl⟩

/-- A pattern matches the words of its sequences. -/
theorem mem_language_iff_expand {r : Regex} {word : List Char} :
    word ∈ r.language ↔ ∃ parts ∈ expand r, word ∈ sequence parts := by
  induction r generalizing word with
  | empty => simp [expand, language]
  | seq left right ihl ihr =>
    rw [language, Language.mem_mul, expand]
    constructor
    · intro h
      obtain ⟨u, hu, v, hv, hword⟩ := h
      obtain ⟨us, hus, hu⟩ := ihl.mp hu
      obtain ⟨vs, hvs, hv⟩ := ihr.mp hv
      refine ⟨us ++ vs, List.mem_flatMap.mpr ⟨us, hus, List.mem_map_of_mem hvs⟩, ?_⟩
      rw [sequence_append, ← hword]
      exact Language.append_mem_mul hu hv
    · intro h
      obtain ⟨parts, hparts, hword⟩ := h
      obtain ⟨us, hus, hparts⟩ := List.mem_flatMap.mp hparts
      obtain ⟨vs, hvs, rfl⟩ := List.mem_map.mp hparts
      rw [sequence_append] at hword
      obtain ⟨u, hu, v, hv, hword⟩ := Language.mem_mul.mp hword
      exact ⟨u, ihl.mpr ⟨us, hus, hu⟩, v, ihr.mpr ⟨vs, hvs, hv⟩, hword⟩
  | alt left right ihl ihr =>
    rw [language, Language.mem_add, ihl, ihr, expand, ← exists_or]
    apply exists_congr
    intro parts
    rw [List.mem_append, or_and_right]
  | _ => simp [expand, sequence_cons]

end Regex

/-! ## Spots -/

/-- A spot is behind another by a word. -/
def Spot.Reads (spot : Spot) (word : List Char) (next : Spot) : Prop :=
  spot.rest = word ++ next.rest ∧ next.prev = word.getLast?.or spot.prev

namespace Spot

variable {spot next : Spot}

@[simp] theorem reads_nil : spot.Reads [] next ↔ next = spot := by
  cases spot
  cases next
  simp only [Reads, List.nil_append, List.getLast?_nil, Option.none_or, mk.injEq]
  constructor
  · exact fun h => ⟨h.2, h.1.symm⟩
  · exact fun h => ⟨h.2.symm, h.1⟩

theorem reads_append {u v : List Char} :
    spot.Reads (u ++ v) next ↔ ∃ middle : Spot, spot.Reads u middle ∧ middle.Reads v next := by
  constructor
  · intro h
    refine ⟨⟨u.getLast?.or spot.prev, v ++ next.rest⟩, ⟨?_, rfl⟩, rfl, ?_⟩
    · rw [h.1, List.append_assoc]
    · rw [h.2, List.getLast?_append, Option.or_assoc]
  · intro h
    obtain ⟨middle, hu, hv⟩ := h
    refine ⟨?_, ?_⟩
    · rw [hu.1, hv.1, List.append_assoc]
    · rw [hv.2, hu.2, List.getLast?_append, Option.or_assoc]

theorem length_rest_of_reads {word : List Char} (h : spot.Reads word next) :
    spot.rest.length = word.length + next.rest.length := by
  rw [h.1, List.length_append]

end Spot

namespace Regex

/-- A round that consumes something. -/
def Progress (step : Spot → List Spot) (spot next : Spot) : Prop :=
  next ∈ step spot ∧ next.rest.length < spot.rest.length

/-- The rounds of a repetition lead to the spots that steps with progress
lead to. -/
theorem mem_repeated_iff {step : Spot → List Spot} {greedy : Bool} {n : Nat} {spot last : Spot}
    (hn : spot.rest.length ≤ n) :
    last ∈ repeated step greedy n spot ↔ Relation.ReflTransGen (Progress step) spot last := by
  induction n generalizing spot with
  | zero =>
    rw [repeated, List.mem_singleton]
    constructor
    · exact fun h => h ▸ .refl
    · intro h
      cases Relation.ReflTransGen.cases_head h with
      | inl h => exact h.symm
      | inr h =>
        obtain ⟨next, hnext, -⟩ := h
        have hless := hnext.2
        omega
  | succ n ih =>
    have hmem : last ∈ repeated step greedy (n + 1) spot ↔
        last ∈ ((step spot).filter fun next => next.rest.length < spot.rest.length).flatMap
          (repeated step greedy n) ∨ last = spot := by
      rw [repeated]
      split
      · rw [List.mem_append, List.mem_singleton]
      · rw [List.mem_cons, or_comm]
    rw [hmem, Relation.ReflTransGen.cases_head_iff, or_comm, eq_comm]
    apply or_congr Iff.rfl
    rw [List.mem_flatMap]
    apply exists_congr
    intro next
    rw [List.mem_filter, decide_eq_true_eq]
    apply and_congr_right
    intro hnext
    exact ih (by omega)

/-- A match of a pattern without assertions ends behind a word of its
language, and behind each such word there is one. -/
theorem ends_iff {isWord : Char → Bool} {r : Regex} (h : r.plain = true) {spot last : Spot} :
    last ∈ ends isWord r spot ↔ ∃ word ∈ r.language, spot.Reads word last := by
  induction r generalizing spot last with
  | empty =>
    rw [ends, List.mem_singleton]
    simp only [language, Language.mem_one, exists_eq_left, Spot.reads_nil]
  | chars accepts =>
    obtain ⟨prev, rest⟩ := spot
    cases rest with
    | nil =>
      simp only [ends, List.not_mem_nil, mem_language_chars, false_iff, Spot.Reads]
      intro h
      obtain ⟨word, ⟨c, -, rfl⟩, hword, -⟩ := h
      simp at hword
    | cons c rest =>
      have hone : last ∈ ends isWord (.chars accepts) ⟨prev, c :: rest⟩ ↔
          accepts c = true ∧ last = ⟨c, rest⟩ := by
        simp only [ends]
        split
        · simp_all
        · simp_all
      rw [hone]
      constructor
      · intro h
        exact ⟨[c], ⟨c, h.1, rfl⟩, by rw [h.2]; exact ⟨rfl, rfl⟩⟩
      · intro h
        obtain ⟨word, ⟨d, hd, rfl⟩, hword, hprev⟩ := h
        obtain ⟨rfl, hrest⟩ := List.cons.inj hword
        refine ⟨hd, ?_⟩
        cases last
        simp_all
  | seq left right ihl ihr =>
    rw [plain, Bool.and_eq_true] at h
    rw [ends, List.mem_flatMap]
    constructor
    · intro hmem
      obtain ⟨middle, hleft, hright⟩ := hmem
      obtain ⟨u, hu, hspot⟩ := (ihl h.1).mp hleft
      obtain ⟨v, hv, hmiddle⟩ := (ihr h.2).mp hright
      exact ⟨u ++ v, Language.append_mem_mul hu hv, Spot.reads_append.mpr ⟨middle, hspot, hmiddle⟩⟩
    · intro hmem
      obtain ⟨word, hword, hreads⟩ := hmem
      obtain ⟨u, hu, v, hv, rfl⟩ := Language.mem_mul.mp hword
      obtain ⟨middle, hspot, hmiddle⟩ := Spot.reads_append.mp hreads
      exact ⟨middle, (ihl h.1).mpr ⟨u, hu, hspot⟩, (ihr h.2).mpr ⟨v, hv, hmiddle⟩⟩
  | alt left right ihl ihr =>
    rw [plain, Bool.and_eq_true] at h
    rw [ends, List.mem_append, ihl h.1, ihr h.2, ← exists_or]
    apply exists_congr
    intro word
    rw [← or_and_right]
    rfl
  | star greedy body ih =>
    rw [ends, mem_repeated_iff (Nat.le_refl _)]
    constructor
    · intro hrun
      induction hrun using Relation.ReflTransGen.head_induction_on with
      | refl => exact ⟨[], Language.nil_mem_kstar _, Spot.reads_nil.mpr rfl⟩
      | head hstep _ ihrun =>
        obtain ⟨u, hu, hspot⟩ := (ih h).mp hstep.1
        obtain ⟨v, hv, hmiddle⟩ := ihrun
        refine ⟨u ++ v, ?_, Spot.reads_append.mpr ⟨_, hspot, hmiddle⟩⟩
        show u ++ v ∈ body.language∗
        rw [← Language.one_add_self_mul_kstar_eq_kstar]
        exact Or.inr (Language.append_mem_mul hu hv)
    · intro hmem
      obtain ⟨word, hword, hreads⟩ := hmem
      obtain ⟨parts, rfl, hparts⟩ := Language.mem_kstar_iff_exists_nonempty.mp hword
      clear hword
      induction parts generalizing spot with
      | nil =>
        rw [Spot.reads_nil.mp hreads]
      | cons part parts ihparts =>
        obtain ⟨middle, hspot, hmiddle⟩ := Spot.reads_append.mp hreads
        have hpart := hparts part (List.mem_cons_self)
        have hlength := Spot.length_rest_of_reads hspot
        have hpos := List.length_pos_iff.mpr hpart.2
        refine .head ⟨(ih h).mpr ⟨part, hpart.1, hspot⟩, by omega⟩ ?_
        exact ihparts (fun y hy => hparts y (List.mem_cons_of_mem _ hy)) hmiddle
  | start => exact absurd h (by decide)
  | finish => exact absurd h (by decide)
  | wordBoundary => exact absurd h (by decide)

theorem isMatch_iff {isWord : Char → Bool} {r : Regex} {text : String} :
    isMatch isWord r text = true ↔ ∃ last, last ∈ ends isWord r ⟨none, text.toList⟩ := by
  unfold isMatch
  rw [Bool.not_eq_true', ← Bool.not_eq_true, List.isEmpty_iff]
  constructor
  · exact List.exists_mem_of_ne_nil _
  · intro h
    obtain ⟨last, hlast⟩ := h
    exact List.ne_nil_of_mem hlast

/-- A pattern between `^` and `$` matches a text that is a word of its
language, but for a line break at the end. -/
theorem isMatch_anchored_iff {isWord : Char → Bool} {body : Regex} (h : body.plain = true)
    {text : String} :
    isMatch isWord (.start * body * .finish) text = true ↔
      text.toList ∈ body.language ∨ ∃ word ∈ body.language, text.toList = word ++ ['\n'] := by
  have hends : ∀ last, last ∈ ends isWord (.start * body * .finish) ⟨none, text.toList⟩ ↔
      last ∈ ends isWord body ⟨none, text.toList⟩ ∧ (last.rest = [] ∨ last.rest = ['\n']) := by
    intro last
    show last ∈ (([⟨none, text.toList⟩] : List Spot).flatMap (ends isWord body)).flatMap
      (ends isWord .finish) ↔ _
    rw [List.flatMap_singleton, List.mem_flatMap]
    simp only [ends, Bool.or_eq_true, decide_eq_true_eq]
    constructor
    · intro hmem
      obtain ⟨middle, hmiddle, hlast⟩ := hmem
      split at hlast
      · rw [List.mem_singleton.mp hlast]
        exact ⟨hmiddle, by assumption⟩
      · exact absurd hlast List.not_mem_nil
    · intro hmem
      refine ⟨last, hmem.1, ?_⟩
      rw [if_pos hmem.2]
      exact List.mem_singleton_self _
  rw [isMatch_iff]
  constructor
  · intro hmatch
    obtain ⟨last, hlast⟩ := hmatch
    obtain ⟨hbody, hend⟩ := (hends last).mp hlast
    obtain ⟨word, hword, hreads⟩ := (ends_iff h).mp hbody
    have hrest : text.toList = word ++ last.rest := hreads.1
    cases hend with
    | inl hend =>
      rw [hend, List.append_nil] at hrest
      exact .inl (hrest ▸ hword)
    | inr hend => exact .inr ⟨word, hword, by rw [hrest, hend]⟩
  · intro hword
    cases hword with
    | inl hword =>
      refine ⟨⟨text.toList.getLast?.or none, []⟩, (hends _).mpr ⟨(ends_iff h).mpr ?_, .inl rfl⟩⟩
      exact ⟨text.toList, hword, (List.append_nil _).symm, rfl⟩
    | inr hword =>
      obtain ⟨word, hword, htext⟩ := hword
      refine ⟨⟨word.getLast?.or none, ['\n']⟩, (hends _).mpr ⟨(ends_iff h).mpr ?_, .inr rfl⟩⟩
      exact ⟨word, hword, htext, rfl⟩

theorem rest_of_mem_spots {prev : Option Char} {text : List Char} {spot : Spot}
    (h : spot ∈ spots prev text) : spot.rest <:+ text := by
  induction text generalizing prev with
  | nil =>
    rw [spots, List.mem_singleton] at h
    rw [h]
  | cons c text ih =>
    rw [spots, List.mem_cons] at h
    cases h with
    | inl h => rw [h]
    | inr h => exact (ih h).trans (List.suffix_cons c text)

/-- A capture begins where its opening matches. -/
theorem exists_opening_of_capture {isWord : Char → Bool} {opening body closing : Regex}
    {text group : String} (h : capture isWord opening body closing text = some group) :
    ∃ spot ∈ spots none text.toList, ∃ begun, begun ∈ ends isWord opening spot := by
  unfold capture at h
  obtain ⟨letters, hletters, -⟩ := Option.map_eq_some_iff.mp h
  have hmem := List.mem_of_mem_head? hletters
  obtain ⟨spot, hspot, hrest⟩ := List.mem_flatMap.mp hmem
  obtain ⟨begun, hbegun, -⟩ := List.mem_flatMap.mp hrest
  exact ⟨spot, hspot, begun, hbegun⟩

/-! ## Parts of a text -/

theorem repeated_suffix {step : Spot → List Spot}
    (hstep : ∀ spot, ∀ next ∈ step spot, next.rest <:+ spot.rest) {greedy : Bool} {n : Nat}
    {spot next : Spot} (h : next ∈ repeated step greedy n spot) : next.rest <:+ spot.rest := by
  induction n generalizing spot with
  | zero =>
    rw [repeated, List.mem_singleton] at h
    rw [h]
  | succ n ih =>
    have hmore : next = spot ∨ next ∈ ((step spot).filter fun next =>
        next.rest.length < spot.rest.length).flatMap (repeated step greedy n) := by
      rw [repeated] at h
      split at h
      · rw [List.mem_append, List.mem_singleton] at h
        exact h.symm
      · rw [List.mem_cons] at h
        exact h
    obtain rfl | hmore := hmore
    · exact List.suffix_rfl
    · obtain ⟨middle, hmiddle, hnext⟩ := List.mem_flatMap.mp hmore
      exact (ih hnext).trans (hstep spot middle (List.mem_filter.mp hmiddle).1)

theorem suffix_of_mem_guard {condition : Prop} [Decidable condition] {spot last : Spot}
    (h : last ∈ if condition then [spot] else []) : last.rest <:+ spot.rest := by
  split at h
  · rw [List.mem_singleton.mp h]
  · exact absurd h List.not_mem_nil

/-- A match ends further on in the text. -/
theorem ends_suffix {isWord : Char → Bool} {r : Regex} {spot last : Spot}
    (h : last ∈ ends isWord r spot) : last.rest <:+ spot.rest := by
  induction r generalizing spot last with
  | empty =>
    rw [ends, List.mem_singleton] at h
    rw [h]
  | chars accepts =>
    obtain ⟨prev, rest⟩ := spot
    cases rest with
    | nil => exact absurd h List.not_mem_nil
    | cons c rest =>
      simp only [ends] at h
      split at h
      · rw [List.mem_singleton.mp h]
        exact List.suffix_cons c rest
      · exact absurd h List.not_mem_nil
  | seq left right ihl ihr =>
    obtain ⟨middle, hmiddle, hlast⟩ := List.mem_flatMap.mp h
    exact (ihr hlast).trans (ihl hmiddle)
  | alt left right ihl ihr =>
    cases List.mem_append.mp h with
    | inl h => exact ihl h
    | inr h => exact ihr h
  | star greedy body ih => exact repeated_suffix (fun spot next hnext => ih hnext) h
  | start => exact suffix_of_mem_guard h
  | finish => exact suffix_of_mem_guard h
  | wordBoundary => exact suffix_of_mem_guard h

/-- A capture is a part of the text. -/
theorem capture_isInfix {isWord : Char → Bool} {opening body closing : Regex} {text group : String}
    (h : capture isWord opening body closing text = some group) :
    group.toList <:+: text.toList := by
  unfold capture at h
  obtain ⟨letters, hletters, rfl⟩ := Option.map_eq_some_iff.mp h
  obtain ⟨spot, hspot, hrest⟩ := List.mem_flatMap.mp (List.mem_of_mem_head? hletters)
  obtain ⟨begun, hbegun, hrest⟩ := List.mem_flatMap.mp hrest
  obtain ⟨done, _, hrest⟩ := List.mem_flatMap.mp hrest
  obtain ⟨last, _, hgroup⟩ := List.mem_flatMap.mp hrest
  rw [String.toList_ofList, List.mem_singleton.mp hgroup]
  exact (List.take_prefix _ _).isInfix.trans
    ((ends_suffix hbegun).trans (rest_of_mem_spots hspot)).isInfix

end Regex

end VirtualContributor.Lib
