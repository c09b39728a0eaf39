import VirtualContributor.Lib.Regex

/-!
# Substitution with a pattern

`sub` replaces the matches of a pattern in a text.  For a pattern without
assertions that matches no empty text, what it does to a text is a function of
the text alone, `replaced`.

There are three groups.

* What a match leaves of a text.  `tails` is `ends` without the character
  before a spot.
* Substitution as a recursion on the text.
* Delimiters.  A character that the pattern matches nowhere splits the text:
  the substitution works on each side of it alone (`replaced_append`), and
  where it occurs in the result it occurs in the text (`exists_of_replaced`).
-/

namespace VirtualContributor.Lib

/-- Behind a part without a character, the first place of the character is later. -/
theorem exists_of_append_eq {α : Type} {part rest before after : List α} {a : α}
    (ha : a ∉ part) (h : part ++ rest = before ++ a :: after) :
    ∃ middle, before = part ++ middle ∧ rest = middle ++ a :: after := by
  induction part generalizing before with
  | nil => exact ⟨before, rfl, h⟩
  | cons b part ih =>
    rw [List.mem_cons, not_or] at ha
    cases before with
    | nil => exact absurd (List.cons.inj h).1.symm ha.1
    | cons c before =>
      obtain ⟨rfl, htail⟩ := List.cons.inj h
      obtain ⟨middle, rfl, hrest⟩ := ih ha.2 htail
      exact ⟨middle, rfl, hrest⟩

/-- What has nothing of the part before it is in the part behind it. -/
theorem infix_of_append {α : Type} {part before after : List α} (hpart : ∀ a ∈ part, a ∉ before)
    (h : part <:+: before ++ after) : part <:+: after := by
  induction before with
  | nil => exact h
  | cons b before ih =>
    rw [List.cons_append, List.infix_cons_iff] at h
    obtain h | h := h
    · cases part with
      | nil => exact List.nil_infix
      | cons a part =>
        obtain ⟨rfl, _⟩ := List.cons_prefix_cons.mp h
        exact absurd List.mem_cons_self (hpart a List.mem_cons_self)
    · exact ih (fun a ha hmem => hpart a ha (List.mem_cons_of_mem _ hmem)) h

namespace Regex

/-! ## What a match leaves -/

def repeatedTails (step : List Char → List (List Char)) (greedy : Bool) :
    Nat → List Char → List (List Char)
  | 0, text => [text]
  | n + 1, text =>
    let more := ((step text).filter fun next => next.length < text.length).flatMap
      (repeatedTails step greedy n)
    if greedy then more ++ [text] else text :: more

/-- The rest of a text behind a match at its begin, in the order of `ends`. -/
def tails : Regex → List Char → List (List Char)
  | .empty, text => [text]
  | .chars accepts, text =>
    match text with
    | [] => []
    | c :: rest => if accepts c then [rest] else []
  | .seq left right, text => (tails left text).flatMap (tails right)
  | .alt left right, text => tails left text ++ tails right text
  | .star greedy body, text => repeatedTails (tails body) greedy text.length text
  | _, _ => []

theorem map_rest_repeated {step : Spot → List Spot} {stepTails : List Char → List (List Char)}
    (hstep : ∀ spot, (step spot).map Spot.rest = stepTails spot.rest) (greedy : Bool) (n : Nat)
    (spot : Spot) :
    (repeated step greedy n spot).map Spot.rest = repeatedTails stepTails greedy n spot.rest := by
  induction n generalizing spot with
  | zero => rfl
  | succ n ih =>
    have hmore : (((step spot).filter fun next => next.rest.length < spot.rest.length).flatMap
        (repeated step greedy n)).map Spot.rest =
        ((stepTails spot.rest).filter fun next => next.length < spot.rest.length).flatMap
          (repeatedTails stepTails greedy n) := by
      rw [← hstep, List.filter_map, List.flatMap_map, List.map_flatMap]
      simp only [ih]
      rfl
    rw [repeated, repeatedTails]
    split
    · rw [List.map_append, hmore]
      rfl
    · rw [List.map_cons, hmore]

theorem map_rest_ends {isWord : Char → Bool} {r : Regex} (h : r.plain = true) (spot : Spot) :
    (ends isWord r spot).map Spot.rest = tails r spot.rest := by
  induction r generalizing spot with
  | empty => rfl
  | chars accepts =>
    obtain ⟨prev, rest⟩ := spot
    cases rest with
    | nil => rfl
    | cons c rest =>
      simp only [ends, tails]
      split <;> rfl
  | seq left right ihl ihr =>
    rw [plain, Bool.and_eq_true] at h
    rw [ends, tails, List.map_flatMap, ← ihl h.1, List.flatMap_map]
    simp only [ihr h.2]
  | alt left right ihl ihr =>
    rw [plain, Bool.and_eq_true] at h
    rw [ends, tails, List.map_append, ihl h.1, ihr h.2]
  | star greedy body ih => exact map_rest_repeated (ih h) greedy _ spot
  | start => simp [plain] at h
  | finish => simp [plain] at h
  | wordBoundary => simp [plain] at h

theorem repeatedTails_suffix {step : List Char → List (List Char)}
    (hstep : ∀ text, ∀ next ∈ step text, next <:+ text) {greedy : Bool} {n : Nat}
    {text next : List Char} (h : next ∈ repeatedTails step greedy n text) : next <:+ text := by
  induction n generalizing text with
  | zero =>
    rw [repeatedTails, List.mem_singleton] at h
    rw [h]
  | succ n ih =>
    have hmore : next = text ∨ next ∈ ((step text).filter fun next => next.length < text.length
        ).flatMap (repeatedTails step greedy n) := by
      rw [repeatedTails] at h
      split at h
      · rw [List.mem_append, List.mem_singleton] at h
        exact h.symm
      · rw [List.mem_cons] at h
        exact h
    obtain rfl | hmore := hmore
    · exact List.suffix_rfl
    · obtain ⟨middle, hmiddle, hnext⟩ := List.mem_flatMap.mp hmore
      exact (ih hnext).trans (hstep text middle (List.mem_filter.mp hmiddle).1)

theorem tails_suffix {r : Regex} {text next : List Char} (h : next ∈ tails r text) :
    next <:+ text := by
  induction r generalizing text next with
  | empty =>
    rw [tails, List.mem_singleton] at h
    rw [h]
  | chars accepts =>
    cases text with
    | nil => simp [tails] at h
    | cons c rest =>
      simp only [tails] at h
      split at h
      · rw [List.mem_singleton.mp h]
        exact List.suffix_cons c rest
      · simp at h
  | seq left right ihl ihr =>
    obtain ⟨middle, hmiddle, hnext⟩ := List.mem_flatMap.mp h
    exact (ihr hnext).trans (ihl hmiddle)
  | alt left right ihl ihr =>
    obtain h | h := List.mem_append.mp h
    · exact ihl h
    · exact ihr h
  | star greedy body ih =>
    exact repeatedTails_suffix (fun text next hnext => ih hnext) h
  | start => simp [tails] at h
  | finish => simp [tails] at h
  | wordBoundary => simp [tails] at h

/-- Whether every match takes a character, as far as the shape of the pattern tells. -/
def consumes : Regex → Bool
  | .chars _ => true
  | .seq left right => consumes left || consumes right
  | .alt left right => consumes left && consumes right
  | _ => false

theorem length_lt_of_mem_tails {r : Regex} (hr : r.consumes = true) {text next : List Char}
    (h : next ∈ tails r text) : next.length < text.length := by
  induction r generalizing text next with
  | empty => simp [consumes] at hr
  | chars accepts =>
    cases text with
    | nil => simp [tails] at h
    | cons c rest =>
      simp only [tails] at h
      split at h
      · rw [List.mem_singleton.mp h]
        simp
      · simp at h
  | seq left right ihl ihr =>
    obtain ⟨middle, hmiddle, hnext⟩ := List.mem_flatMap.mp h
    have hleft := (tails_suffix hmiddle).length_le
    have hright := (tails_suffix hnext).length_le
    rw [consumes, Bool.or_eq_true] at hr
    cases hr with
    | inl hr =>
      have := ihl hr hmiddle
      omega
    | inr hr =>
      have := ihr hr hnext
      omega
  | alt left right ihl ihr =>
    rw [consumes, Bool.and_eq_true] at hr
    obtain h | h := List.mem_append.mp h
    · exact ihl hr.1 h
    · exact ihr hr.2 h
  | star greedy body ih => simp [consumes] at hr
  | start => simp [consumes] at hr
  | finish => simp [consumes] at hr
  | wordBoundary => simp [consumes] at hr

/-! ## Substitution -/

/-- `subFrom` on a text. -/
def replacedFrom (step : List Char → List (List Char)) (replacement : List Char) :
    Nat → List Char → List Char
  | 0, text => text
  | _ + 1, [] => []
  | n + 1, c :: rest =>
    match (step (c :: rest)).head? with
    | none => c :: replacedFrom step replacement n rest
    | some next => replacement ++ replacedFrom step replacement n next

/-- The text with the matches of a pattern replaced. -/
def replaced (r : Regex) (replacement text : List Char) : List Char :=
  replacedFrom (tails r) replacement text.length text

theorem subFrom_eq_replacedFrom {isWord : Char → Bool} {r : Regex} (h : r.plain = true)
    (replacement : List Char) (n : Nat) (spot : Spot) :
    subFrom (ends isWord r) replacement n spot =
      replacedFrom (tails r) replacement n spot.rest := by
  induction n generalizing spot with
  | zero => rfl
  | succ n ih =>
    obtain ⟨prev, rest⟩ := spot
    cases rest with
    | nil => rfl
    | cons c rest =>
      have hhead : ((ends isWord r ⟨prev, c :: rest⟩).head?).map Spot.rest =
          (tails r (c :: rest)).head? := by
        rw [← List.head?_map, map_rest_ends h]
      rw [subFrom, replacedFrom, ← hhead]
      dsimp only
      cases (ends isWord r ⟨prev, c :: rest⟩).head? with
      | none => rw [Option.map_none, ih]
      | some next =>
        dsimp only [Option.map_some]
        rw [ih]

theorem toList_sub {isWord : Char → Bool} {r : Regex} (h : r.plain = true)
    (replacement text : String) :
    (sub (ends isWord r) replacement text).toList =
      replaced r replacement.toList text.toList := by
  rw [sub, String.toList_ofList, subFrom_eq_replacedFrom h, replaced]

section

variable {r : Regex} {replacement : List Char}

theorem replacedFrom_eq (hr : r.consumes = true) {n : Nat} {text : List Char}
    (h : text.length ≤ n) :
    replacedFrom (tails r) replacement n text = replaced r replacement text := by
  unfold replaced
  induction hlength : text.length using Nat.strongRecOn generalizing n text with
  | ind m ih =>
    cases text with
    | nil =>
      subst hlength
      cases n <;> rfl
    | cons c rest =>
      subst hlength
      cases n with
      | zero => simp at h
      | succ n =>
        rw [List.length_cons] at h ⊢
        rw [replacedFrom, replacedFrom]
        cases hhead : (tails r (c :: rest)).head? with
        | none =>
          dsimp only
          rw [ih rest.length (by simp) (by omega) rfl]
        | some next =>
          have hlt := length_lt_of_mem_tails hr (List.mem_of_mem_head? hhead)
          rw [List.length_cons] at hlt
          have hlt' : next.length < (c :: rest).length := hlt
          exact congrArg (replacement ++ ·) ((ih next.length hlt' (by omega) rfl).trans
            (ih next.length hlt' (by omega) rfl).symm)

@[simp] theorem replaced_nil : replaced r replacement [] = [] := rfl

theorem replaced_of_match (hr : r.consumes = true) {text next : List Char}
    (h : (tails r text).head? = some next) :
    replaced r replacement text = replacement ++ replaced r replacement next := by
  have hlt := length_lt_of_mem_tails hr (List.mem_of_mem_head? h)
  cases text with
  | nil => simp at hlt
  | cons c rest =>
    rw [List.length_cons] at hlt
    rw [replaced, List.length_cons, replacedFrom, h]
    dsimp only
    rw [replacedFrom_eq hr (by omega)]

theorem replaced_of_none {c : Char} {rest : List Char}
    (h : (tails r (c :: rest)).head? = none) :
    replaced r replacement (c :: rest) = c :: replaced r replacement rest := by
  rw [replaced, List.length_cons, replacedFrom, h]
  rfl

/-- A replacement that is a text leaves something of every text. -/
theorem replaced_ne_nil (hr : r.consumes = true) (hreplacement : replacement ≠ [])
    {text : List Char} (h : text ≠ []) : replaced r replacement text ≠ [] := by
  cases text with
  | nil => exact absurd rfl h
  | cons c rest =>
    cases hhead : (tails r (c :: rest)).head? with
    | none => simp [replaced_of_none hhead]
    | some next => simp [replaced_of_match hr hhead, hreplacement]

/-- Every character of the result is one of the text or of the replacement. -/
theorem mem_of_mem_replaced (hr : r.consumes = true) {text : List Char} {c : Char}
    (h : c ∈ replaced r replacement text) : c ∈ replacement ∨ c ∈ text := by
  induction hlength : text.length using Nat.strongRecOn generalizing text with
  | ind m ih =>
    subst hlength
    cases text with
    | nil => simp at h
    | cons d rest =>
      cases hhead : (tails r (d :: rest)).head? with
      | none =>
        rw [replaced_of_none hhead, List.mem_cons] at h
        obtain rfl | h := h
        · exact .inr List.mem_cons_self
        · obtain h | h := ih rest.length (by simp) h rfl
          · exact .inl h
          · exact .inr (List.mem_cons_of_mem _ h)
      | some next =>
        have hmem := List.mem_of_mem_head? hhead
        rw [replaced_of_match hr hhead, List.mem_append] at h
        obtain h | h := h
        · exact .inl h
        · obtain h | h := ih next.length (length_lt_of_mem_tails hr hmem) h rfl
          · exact .inl h
          · exact .inr ((tails_suffix hmem).subset h)

end

section

variable {r : Regex} {replacement : List Char}

/-- A first part of the result that has none of the replacement is one of the text. -/
theorem prefix_of_replaced (hr : r.consumes = true) (hreplacement : replacement ≠ [])
    {part text : List Char} (hpart : ∀ c ∈ part, c ∉ replacement)
    (h : part <+: replaced r replacement text) : part <+: text := by
  induction text generalizing part with
  | nil =>
    rw [replaced_nil, List.prefix_nil] at h
    rw [h]
  | cons c rest ih =>
    cases part with
    | nil => exact List.nil_prefix
    | cons d part =>
      cases hhead : (tails r (c :: rest)).head? with
      | none =>
        rw [replaced_of_none hhead, List.cons_prefix_cons] at h
        rw [List.forall_mem_cons] at hpart
        exact List.cons_prefix_cons.mpr ⟨h.1, ih hpart.2 h.2⟩
      | some next =>
        obtain ⟨e, more, rfl⟩ := List.exists_cons_of_ne_nil hreplacement
        rw [replaced_of_match hr hhead, List.cons_append, List.cons_prefix_cons] at h
        exact absurd (h.1 ▸ List.mem_cons_self) (hpart d List.mem_cons_self)

/-- A part of the result that has none of the replacement is a part of the text. -/
theorem infix_of_replaced (hr : r.consumes = true) (hreplacement : replacement ≠ [])
    {part text : List Char} (hpart : ∀ c ∈ part, c ∉ replacement)
    (h : part <:+: replaced r replacement text) : part <:+: text := by
  induction hlength : text.length using Nat.strongRecOn generalizing text with
  | ind n ih =>
    subst hlength
    cases text with
    | nil => exact h
    | cons c rest =>
      cases hhead : (tails r (c :: rest)).head? with
      | none =>
        rw [replaced_of_none hhead, List.infix_cons_iff] at h
        obtain h | h := h
        · rw [← replaced_of_none hhead] at h
          exact (prefix_of_replaced hr hreplacement hpart h).isInfix
        · exact (ih rest.length (by simp) h rfl).trans (List.suffix_cons c rest).isInfix
      | some next =>
        have hmem := List.mem_of_mem_head? hhead
        rw [replaced_of_match hr hhead] at h
        have hnext := infix_of_append hpart h
        exact (ih next.length (length_lt_of_mem_tails hr hmem) hnext rfl).trans
          (tails_suffix hmem).isInfix

end

/-! ## Delimiters -/

/-- Whether no part of the pattern matches a character. -/
def rejects (c : Char) : Regex → Bool
  | .empty => true
  | .chars accepts => !accepts c
  | .seq left right => rejects c left && rejects c right
  | .alt left right => rejects c left && rejects c right
  | .star _ body => rejects c body
  | _ => false

theorem not_mem_of_rejects {r : Regex} {c : Char} (h : r.rejects c = true) {word : List Char}
    (hword : word ∈ r.language) : c ∉ word := by
  induction r generalizing word with
  | empty =>
    rw [(Language.mem_one word).mp hword]
    exact List.not_mem_nil
  | chars accepts =>
    obtain ⟨d, hd, rfl⟩ := hword
    intro hmem
    obtain rfl := List.mem_singleton.mp hmem
    simp [rejects, hd] at h
  | seq left right ihl ihr =>
    rw [rejects, Bool.and_eq_true] at h
    obtain ⟨u, hu, v, hv, rfl⟩ := Language.mem_mul.mp hword
    rw [List.mem_append, not_or]
    exact ⟨ihl h.1 hu, ihr h.2 hv⟩
  | alt left right ihl ihr =>
    rw [rejects, Bool.and_eq_true] at h
    cases hword with
    | inl hword => exact ihl h.1 hword
    | inr hword => exact ihr h.2 hword
  | star greedy body ih =>
    obtain ⟨parts, rfl, hparts⟩ := Language.mem_kstar.mp hword
    intro hmem
    obtain ⟨part, hpart, hc⟩ := List.mem_flatten.mp hmem
    exact ih h (hparts part hpart) hc
  | start => simp [rejects] at h
  | finish => simp [rejects] at h
  | wordBoundary => simp [rejects] at h

theorem repeatedTails_fuel {step : List Char → List (List Char)} {greedy : Bool} {n : Nat}
    {text : List Char} (h : text.length ≤ n) :
    repeatedTails step greedy n text = repeatedTails step greedy text.length text := by
  induction hlength : text.length using Nat.strongRecOn generalizing n text with
  | ind m ih =>
    subst hlength
    cases n with
    | zero =>
      rw [Nat.le_zero.mp h]
    | succ n =>
      cases hm : text.length with
      | zero =>
        obtain rfl := List.length_eq_zero_iff.mp hm
        simp [repeatedTails]
      | succ m =>
        have hmore : ((step text).filter fun next => next.length < text.length).flatMap
            (repeatedTails step greedy n) =
            ((step text).filter fun next => next.length < text.length).flatMap
              (repeatedTails step greedy m) := by
          apply List.flatMap_congr
          intro next hnext
          have hlt : next.length < text.length := by simpa using (List.mem_filter.mp hnext).2
          exact (ih next.length hlt (by omega) rfl).trans (ih next.length hlt (by omega) rfl).symm
        rw [repeatedTails, repeatedTails, hmore]

section

variable {c : Char} {b : List Char}

theorem repeatedTails_append {step : List Char → List (List Char)}
    (hstep : ∀ a, step (a ++ c :: b) = (step a).map (· ++ c :: b)) (greedy : Bool) (n : Nat)
    (a : List Char) :
    repeatedTails step greedy n (a ++ c :: b) =
      (repeatedTails step greedy n a).map (· ++ c :: b) := by
  induction n generalizing a with
  | zero => rfl
  | succ n ih =>
    have hmore : ((step (a ++ c :: b)).filter fun next => next.length < (a ++ c :: b).length
        ).flatMap (repeatedTails step greedy n) =
        (((step a).filter fun next => next.length < a.length).flatMap
          (repeatedTails step greedy n)).map (· ++ c :: b) := by
      have hfilter : (fun next : List Char => decide (next.length < (a ++ c :: b).length)) ∘
          (· ++ c :: b) = fun next => decide (next.length < a.length) := by
        funext next
        simp
      rw [hstep, List.filter_map, List.flatMap_map, List.map_flatMap, hfilter]
      simp only [ih]
    rw [repeatedTails, repeatedTails, hmore]
    split
    · simp
    · simp

/-- A match does not reach a character that the pattern rejects. -/
theorem tails_append {r : Regex} (h : r.rejects c = true) (a : List Char) :
    tails r (a ++ c :: b) = (tails r a).map (· ++ c :: b) := by
  induction r generalizing a with
  | empty => rfl
  | chars accepts =>
    rw [rejects, Bool.not_eq_true'] at h
    cases a with
    | nil => simp [tails, h]
    | cons d a =>
      simp only [tails, List.cons_append]
      split <;> rfl
  | seq left right ihl ihr =>
    rw [rejects, Bool.and_eq_true] at h
    rw [tails, tails, ihl h.1, List.flatMap_map, List.map_flatMap]
    simp only [ihr h.2]
  | alt left right ihl ihr =>
    rw [rejects, Bool.and_eq_true] at h
    rw [tails, tails, ihl h.1, ihr h.2, List.map_append]
  | star greedy body ih =>
    rw [tails, tails, ← repeatedTails_append (fun a => ih h a)]
    have hlength : a.length ≤ (a ++ c :: b).length := by simp
    rw [repeatedTails_append (fun a => ih h a), repeatedTails_fuel hlength,
      repeatedTails_append (fun a => ih h a)]
  | start => simp [rejects] at h
  | finish => simp [rejects] at h
  | wordBoundary => simp [rejects] at h

variable {r : Regex} {replacement : List Char}

theorem head?_tails_append (h : r.rejects c = true) (a : List Char) :
    (tails r (a ++ c :: b)).head? = ((tails r a).head?).map (· ++ c :: b) := by
  rw [tails_append h, List.head?_map]

theorem replaced_cons_of_rejects (hr : r.consumes = true) (h : r.rejects c = true) :
    replaced r replacement (c :: b) = c :: replaced r replacement b := by
  apply replaced_of_none
  have hempty : (tails r []).head? = none := by
    cases hhead : (tails r []).head? with
    | none => rfl
    | some next =>
      have := length_lt_of_mem_tails hr (List.mem_of_mem_head? hhead)
      simp at this
  have happend := head?_tails_append (b := b) h []
  rw [hempty] at happend
  exact happend

/-- The substitution works on each side of a delimiter alone. -/
theorem replaced_append (hr : r.consumes = true) (h : r.rejects c = true) (a : List Char) :
    replaced r replacement (a ++ c :: b) =
      replaced r replacement a ++ c :: replaced r replacement b := by
  induction hlength : a.length using Nat.strongRecOn generalizing a with
  | ind n ih =>
    subst hlength
    cases a with
    | nil => exact replaced_cons_of_rejects hr h
    | cons d a =>
      have happend := head?_tails_append (b := b) h (d :: a)
      cases hhead : (tails r (d :: a)).head? with
      | none =>
        rw [hhead] at happend
        rw [replaced_of_none hhead, List.cons_append, List.cons_append,
          ← ih a.length (by simp) a rfl]
        exact replaced_of_none happend
      | some next =>
        rw [hhead] at happend
        have hlt := length_lt_of_mem_tails hr (List.mem_of_mem_head? hhead)
        rw [replaced_of_match hr hhead, replaced_of_match hr happend, ih next.length hlt next rfl,
          List.append_assoc]

/-- A delimiter of the result is a delimiter of the text. -/
theorem exists_of_replaced (hr : r.consumes = true) (h : r.rejects c = true)
    (hc : c ∉ replacement) {text before after : List Char}
    (htext : replaced r replacement text = before ++ c :: after) :
    ∃ a b, text = a ++ c :: b ∧ replaced r replacement a = before ∧
      replaced r replacement b = after := by
  induction hlength : text.length using Nat.strongRecOn generalizing text before with
  | ind n ih =>
    subst hlength
    cases text with
    | nil => simp at htext
    | cons d rest =>
      cases hhead : (tails r (d :: rest)).head? with
      | none =>
        rw [replaced_of_none hhead] at htext
        cases before with
        | nil =>
          obtain ⟨rfl, hafter⟩ := List.cons.inj htext
          exact ⟨[], rest, rfl, rfl, hafter⟩
        | cons e before =>
          obtain ⟨rfl, hrest⟩ := List.cons.inj htext
          obtain ⟨a, b, rfl, ha, hb⟩ := ih rest.length (by simp) hrest rfl
          refine ⟨d :: a, b, rfl, ?_, hb⟩
          have happend := head?_tails_append (b := b) h (d :: a)
          rw [List.cons_append, hhead] at happend
          rw [replaced_of_none (Option.map_eq_none_iff.mp happend.symm), ha]
      | some next =>
        have hmem := List.mem_of_mem_head? hhead
        rw [replaced_of_match hr hhead] at htext
        obtain ⟨middle, rfl, hnext⟩ := exists_of_append_eq hc htext
        obtain ⟨a, b, rfl, ha, hb⟩ :=
          ih next.length (length_lt_of_mem_tails hr hmem) hnext rfl
        obtain ⟨word, hword⟩ := tails_suffix hmem
        refine ⟨word ++ a, b, ?_, ?_, hb⟩
        · rw [← hword, List.append_assoc]
        · have happend := head?_tails_append (b := b) h (word ++ a)
          rw [List.append_assoc, hword, hhead] at happend
          obtain ⟨rest', hrest', heq⟩ := Option.map_eq_some_iff.mp happend.symm
          obtain rfl := List.append_cancel_right heq
          rw [replaced_of_match hr hrest', ha]

end

end Regex

end VirtualContributor.Lib
