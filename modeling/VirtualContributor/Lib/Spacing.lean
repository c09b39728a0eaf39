import VirtualContributor.Lib.PythonText

/-!
# Words with one space between them

`" ".join(text.split())` as a recursion on the text.

* `toList_spaced`: the recursion computes it.
* `spaced_isInfix`: what is a part of a text is a part of it when both are
  spaced.
* `spaced_flatMap`: spacing before a map of the characters does not show
  behind it, when the map keeps blanks.
-/

namespace VirtualContributor.Lib

/-- Whether a text begins with a character that is no blank. -/
def startsWord : List Char → Bool
  | [] => false
  | c :: _ => !isPythonSpace c

/-- The words of a text with one space between them. -/
def spaced : List Char → List Char
  | [] => []
  | c :: rest =>
    if isPythonSpace c then spaced rest
    else if startsWord rest then c :: spaced rest
    else if spaced rest = [] then [c] else c :: ' ' :: spaced rest

section

variable {c : Char} {rest : List Char}

theorem spaced_cons_space (h : isPythonSpace c = true) : spaced (c :: rest) = spaced rest := by
  rw [spaced, if_pos h]

theorem spaced_cons_word (h : isPythonSpace c = false) (hrest : startsWord rest = true) :
    spaced (c :: rest) = c :: spaced rest := by
  rw [spaced, if_neg (by simp [h]), if_pos hrest]

theorem spaced_cons_end (h : isPythonSpace c = false) (hrest : startsWord rest = false) :
    spaced (c :: rest) = c :: (if spaced rest = [] then [] else ' ' :: spaced rest) := by
  rw [spaced, if_neg (by simp [h]), if_neg (by simp [hrest])]
  split <;> rfl

end

/-! ## The words of Python -/

theorem intercalate_eq_nil_iff {separator : List Char} {parts : List (List Char)}
    (h : ∀ part ∈ parts, part ≠ []) : separator.intercalate parts = [] ↔ parts = [] := by
  cases parts with
  | nil => simp
  | cons part parts =>
    have hpart := h part List.mem_cons_self
    cases parts with
    | nil => simp [hpart]
    | cons next parts => simp [List.intercalate_cons_cons, hpart]

/-- The first piece of a split at blanks, and the words it leads to. -/
theorem spaced_splitOnP (letters : List Char) :
    ∃ first parts, letters.splitOnP isPythonSpace = first :: parts ∧
      (first = [] ↔ startsWord letters = false) ∧
      [' '].intercalate ((first :: parts).filter (· ≠ [])) = spaced letters := by
  induction letters with
  | nil => exact ⟨[], [], by simp, by simp [startsWord], rfl⟩
  | cons c letters ih =>
    obtain ⟨first, parts, hsplit, hfirst, hspaced⟩ := ih
    rw [List.splitOnP_cons_eq_if_modifyHead, hsplit]
    cases hc : isPythonSpace c with
    | true =>
      refine ⟨[], first :: parts, by simp, by simp [startsWord, hc], ?_⟩
      rw [spaced_cons_space hc, ← hspaced]
      rfl
    | false =>
      refine ⟨c :: first, parts, by simp, by simp [startsWord, hc], ?_⟩
      have hwords : ∀ part ∈ parts.filter (· ≠ []), part ≠ [] := by
        intro part hpart
        simpa using (List.mem_filter.mp hpart).2
      have hnil := @intercalate_eq_nil_iff [' '] _ hwords
      rw [List.filter_cons_of_pos (by simp)]
      cases first with
      | nil =>
        rw [List.filter_cons_of_neg (by simp)] at hspaced
        rw [spaced_cons_end hc (hfirst.mp rfl), ← hspaced]
        generalize parts.filter (· ≠ []) = words at hnil
        cases words with
        | nil => simp
        | cons word words =>
          rw [if_neg (by simp [hnil]), List.intercalate_cons_cons]
          rfl
      | cons d first =>
        rw [List.filter_cons_of_pos (by simp)] at hspaced
        have hstarts : startsWord letters = true := by
          rw [← Bool.not_eq_false, ← hfirst]
          simp
        rw [spaced_cons_word hc hstarts, ← hspaced]
        generalize parts.filter (· ≠ []) = words
        cases words with
        | nil => simp
        | cons word words =>
          rw [List.intercalate_cons_cons, List.intercalate_cons_cons]
          rfl

theorem toList_spaced (text : String) :
    (" ".intercalate (words text)).toList = spaced text.toList := by
  obtain ⟨first, parts, hsplit, _, hspaced⟩ := spaced_splitOnP text.toList
  rw [String.toList_intercalate, ← hspaced, words, hsplit, List.map_map]
  congr 1
  conv_rhs => rw [← List.map_id ((first :: parts).filter (· ≠ []))]
  apply List.map_congr_left
  intro part _
  exact String.toList_ofList

/-! ## Parts -/

theorem spaced_suffix_append (before text : List Char) :
    spaced text <:+ spaced (before ++ text) := by
  induction before with
  | nil => exact List.suffix_rfl
  | cons c before ih =>
    refine ih.trans ?_
    rw [List.cons_append, spaced]
    split
    · exact List.suffix_rfl
    · split
      · exact List.suffix_cons c _
      · split
        · rename_i hnil
          rw [hnil]
          exact List.nil_suffix
        · exact (List.suffix_cons ' ' _).trans (List.suffix_cons c _)

theorem startsWord_append {text : List Char} (h : text ≠ []) (after : List Char) :
    startsWord (text ++ after) = startsWord text := by
  cases text with
  | nil => exact absurd rfl h
  | cons c rest => rfl

theorem spaced_prefix_append (text after : List Char) :
    spaced text <+: spaced (text ++ after) := by
  induction text with
  | nil => exact List.nil_prefix
  | cons c rest ih =>
    rw [List.cons_append]
    cases hc : isPythonSpace c with
    | true =>
      rw [spaced_cons_space hc, spaced_cons_space hc]
      exact ih
    | false =>
      by_cases hrest : rest = []
      · subst hrest
        have hone : spaced [c] = [c] := spaced_cons_end hc rfl
        rw [hone, List.nil_append]
        cases hafter : startsWord after with
        | true =>
          rw [spaced_cons_word hc hafter]
          exact List.cons_prefix_cons.mpr ⟨rfl, List.nil_prefix⟩
        | false =>
          rw [spaced_cons_end hc hafter]
          exact List.cons_prefix_cons.mpr ⟨rfl, List.nil_prefix⟩
      · have hstarts := startsWord_append hrest after
        cases hword : startsWord rest with
        | true =>
          rw [spaced_cons_word hc hword, spaced_cons_word hc (hstarts.trans hword)]
          exact List.cons_prefix_cons.mpr ⟨rfl, ih⟩
        | false =>
          rw [spaced_cons_end hc hword, spaced_cons_end hc (hstarts.trans hword)]
          refine List.cons_prefix_cons.mpr ⟨rfl, ?_⟩
          split
          · exact List.nil_prefix
          · rename_i hne
            have hne' : spaced (rest ++ after) ≠ [] := by
              intro hnil
              rw [hnil] at ih
              exact hne (List.prefix_nil.mp ih)
            rw [if_neg hne']
            exact List.cons_prefix_cons.mpr ⟨rfl, ih⟩

/-- A part of a text is a part when both are spaced. -/
theorem spaced_isInfix {part text : List Char} (h : part <:+: text) : spaced part <:+: spaced text := by
  obtain ⟨before, after, rfl⟩ := h
  have hprefix := (spaced_prefix_append (before ++ part) after).isInfix
  exact (spaced_suffix_append before part).isInfix.trans hprefix

theorem mem_of_mem_spaced {text : List Char} {c : Char} (h : c ∈ spaced text) :
    c = ' ' ∨ c ∈ text := by
  induction text with
  | nil => simp [spaced] at h
  | cons d rest ih =>
    have hmore : c ∈ spaced rest → c = ' ' ∨ c ∈ d :: rest := fun hmem =>
      (ih hmem).imp_right (List.mem_cons_of_mem _)
    rw [spaced] at h
    split at h
    · exact hmore h
    · split at h
      · obtain rfl | h := List.mem_cons.mp h
        · exact .inr List.mem_cons_self
        · exact hmore h
      · split at h
        · obtain rfl := List.mem_singleton.mp h
          exact .inr List.mem_cons_self
        · obtain rfl | h := List.mem_cons.mp h
          · exact .inr List.mem_cons_self
          · obtain rfl | h := List.mem_cons.mp h
            · exact .inl rfl
            · exact hmore h

/-! ## Maps of the characters -/

/-- Two texts that no text before them tells apart when they are spaced. -/
structure SameSpaced (left right : List Char) : Prop where
  spaced_eq : spaced left = spaced right
  starts_eq : startsWord left = startsWord right

theorem SameSpaced.append {left right : List Char} (h : SameSpaced left right)
    (before : List Char) : SameSpaced (before ++ left) (before ++ right) := by
  induction before with
  | nil => exact h
  | cons c before ih => exact ⟨by simp only [List.cons_append, spaced, ih.1, ih.2], rfl⟩

/-- Spacing before a map that keeps blanks does not show behind it. -/
theorem spaced_flatMap {f : Char → List Char} (hf : ∀ c, isPythonSpace c = true → f c = [c])
    (text : List Char) :
    spaced ((spaced text).flatMap f) = spaced (text.flatMap f) ∧
      (startsWord text = true → SameSpaced ((spaced text).flatMap f) (text.flatMap f)) := by
  have hspace : isPythonSpace ' ' = true := by decide
  induction text with
  | nil => exact ⟨rfl, by simp [startsWord]⟩
  | cons c rest ih =>
    cases hc : isPythonSpace c with
    | true =>
      rw [spaced_cons_space hc, ih.1, List.flatMap_cons, hf c hc, List.singleton_append,
        spaced_cons_space hc]
      exact ⟨rfl, by simp [startsWord, hc]⟩
    | false =>
      have hsame : SameSpaced ((spaced (c :: rest)).flatMap f) ((c :: rest).flatMap f) := by
        cases hrest : startsWord rest with
        | true =>
          rw [spaced_cons_word hc hrest, List.flatMap_cons, List.flatMap_cons]
          exact (ih.2 hrest).append _
        | false =>
          rw [spaced_cons_end hc hrest, List.flatMap_cons, List.flatMap_cons]
          apply SameSpaced.append
          have hstarts : startsWord (rest.flatMap f) = false := by
            cases rest with
            | nil => rfl
            | cons d rest =>
              have hd : isPythonSpace d = true := by simpa [startsWord] using hrest
              simp [List.flatMap_cons, hf d hd, startsWord, hd]
          split
          · rename_i hnil
            have hspaced := ih.1
            rw [hnil] at hspaced
            exact ⟨hspaced, hstarts.symm⟩
          · rw [List.flatMap_cons, hf ' ' hspace, List.singleton_append]
            exact ⟨by rw [spaced_cons_space hspace, ih.1], by rw [hstarts]; rfl⟩
      exact ⟨hsame.1, fun _ => hsame⟩

end VirtualContributor.Lib
