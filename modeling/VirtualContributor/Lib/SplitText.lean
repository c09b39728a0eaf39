import Mathlib
import VirtualContributor.Lib.PythonText

/-!
# Splitting and joining texts

What `text.split()` and `text.split(separator)` give.

* `mem_words`: words are not empty and have no blanks in them.
* `mem_spaced`, `tightEnds_spaced`: words joined by a space have no other blank, and
  none at the ends.
* `splitOn_sublist`: some of the parts of a text, joined, are split into these again.
* `splitOn_intercalate`: texts joined by a separator are the parts it splits
  into, when the middle of the separator is a character that no text has.
-/

namespace VirtualContributor.Lib

/-- A joined text has the lengths of its parts and of the separators between them. -/
theorem length_intercalate (separator : String) (blocks : List String) :
    (separator.intercalate blocks).length =
      (blocks.map String.length).sum + (blocks.length - 1) * separator.length := by
  induction blocks with
  | nil => simp
  | cons block blocks ih =>
    cases blocks with
    | nil => simp
    | cons next blocks =>
      rw [String.intercalate_cons_cons, String.length_append, String.length_append, ih]
      simp only [List.map_cons, List.sum_cons, List.length_cons, Nat.add_sub_cancel]
      rw [Nat.succ_mul]
      omega

/-! ## Words -/

theorem mem_of_mem_splitOnP {p : Char → Bool} {letters part : List Char}
    (h : part ∈ letters.splitOnP p) : ∀ c ∈ part, c ∈ letters ∧ p c = false := by
  induction letters generalizing part with
  | nil =>
    rw [List.splitOnP_nil, List.mem_singleton] at h
    subst h
    simp
  | cons a letters ih =>
    obtain ⟨first, parts, hparts⟩ := List.exists_cons_of_ne_nil (List.splitOnP_ne_nil p letters)
    have hall : ∀ q ∈ first :: parts, ∀ c ∈ q, c ∈ a :: letters ∧ p c = false := by
      intro q hq c hc
      obtain ⟨hmem, hp⟩ := ih (hparts ▸ hq) c hc
      exact ⟨List.mem_cons_of_mem _ hmem, hp⟩
    rw [List.splitOnP_cons_eq_if_modifyHead, hparts] at h
    cases ha : p a with
    | true =>
      rw [if_pos ha] at h
      obtain rfl | h := List.mem_cons.mp h
      · simp
      · exact hall part h
    | false =>
      rw [if_neg (by simp [ha]), List.modifyHead_cons] at h
      obtain rfl | h := List.mem_cons.mp h
      · exact List.forall_mem_cons.mpr ⟨⟨List.mem_cons_self, ha⟩, hall first List.mem_cons_self⟩
      · exact hall part (List.mem_cons_of_mem _ h)

/-- A word is not empty and has no blank in it. -/
theorem mem_words {text word : String} (h : word ∈ words text) :
    word.toList ≠ [] ∧ ∀ c ∈ word.toList, c ∈ text.toList ∧ isPythonSpace c = false := by
  unfold words at h
  obtain ⟨letters, hmem, rfl⟩ := List.mem_map.mp h
  obtain ⟨hmem, hne⟩ := List.mem_filter.mp hmem
  rw [String.toList_ofList]
  exact ⟨of_decide_eq_true hne, mem_of_mem_splitOnP hmem⟩

theorem mem_intercalate {separator : List Char} {parts : List (List Char)} {c : Char}
    (h : c ∈ separator.intercalate parts) : c ∈ separator ∨ ∃ part ∈ parts, c ∈ part := by
  induction parts with
  | nil => exact absurd h List.not_mem_nil
  | cons part parts ih =>
    by_cases hparts : parts = []
    · subst hparts
      rw [List.intercalate_singleton] at h
      exact .inr ⟨part, List.mem_cons_self, h⟩
    · rw [List.intercalate_cons_of_ne_nil hparts, List.mem_append, List.mem_append] at h
      obtain (hc | hc) | hc := h
      · exact .inr ⟨part, List.mem_cons_self, hc⟩
      · exact .inl hc
      · obtain hsep | ⟨other, hother, hmem⟩ := ih hc
        · exact .inl hsep
        · exact .inr ⟨other, List.mem_cons_of_mem _ hother, hmem⟩

/-- The characters of words joined by a space. -/
theorem mem_spaced {text : String} {c : Char} (h : c ∈ (" ".intercalate (words text)).toList) :
    c = ' ' ∨ c ∈ text.toList ∧ isPythonSpace c = false := by
  rw [String.toList_intercalate] at h
  obtain hsep | ⟨part, hpart, hc⟩ := mem_intercalate h
  · exact .inl (List.mem_singleton.mp hsep)
  · obtain ⟨word, hword, rfl⟩ := List.mem_map.mp hpart
    exact .inr ((mem_words hword).2 c hc)

/-- No blank at the beginning and at the end. -/
structure TightEnds (letters : List Char) : Prop where
  first : ∀ c, letters.head? = some c → isPythonSpace c = false
  last : ∀ c, letters.getLast? = some c → isPythonSpace c = false

theorem tightEnds_intercalate {separator : List Char} {parts : List (List Char)}
    (h : ∀ part ∈ parts, part ≠ [] ∧ ∀ c ∈ part, isPythonSpace c = false) :
    TightEnds (separator.intercalate parts) := by
  induction parts with
  | nil => exact ⟨nofun, nofun⟩
  | cons part parts ih =>
    obtain ⟨⟨hne, hpart⟩, hparts⟩ := List.forall_mem_cons.mp h
    by_cases hlast : parts = []
    · subst hlast
      rw [List.intercalate_singleton]
      exact ⟨fun c hc => hpart c (List.mem_of_mem_head? hc),
        fun c hc => hpart c (List.mem_of_mem_getLast? hc)⟩
    · have hmore : separator.intercalate parts ≠ [] := by
        obtain ⟨next, rest, rfl⟩ := List.exists_cons_of_ne_nil hlast
        have hnext := (hparts next List.mem_cons_self).1
        cases rest with
        | nil => rwa [List.intercalate_singleton]
        | cons other rest =>
          rw [List.intercalate_cons_cons]
          simp [hnext]
      rw [List.intercalate_cons_of_ne_nil hlast]
      constructor
      · intro c hc
        rw [List.append_assoc, List.head?_append_of_ne_nil _ hne] at hc
        exact hpart c (List.mem_of_mem_head? hc)
      · intro c hc
        rw [List.getLast?_append_of_ne_nil _ hmore] at hc
        exact (ih hparts).last c hc

/-- Words joined by a space have no blank at the ends. -/
theorem tightEnds_spaced (text : String) : TightEnds (" ".intercalate (words text)).toList := by
  rw [String.toList_intercalate]
  apply tightEnds_intercalate
  intro part hpart
  obtain ⟨word, hword, rfl⟩ := List.mem_map.mp hpart
  obtain ⟨hne, hall⟩ := mem_words hword
  exact ⟨hne, fun c hc => (hall c hc).2⟩

theorem dropWhile_of_first {letters : List Char}
    (h : ∀ c, letters.head? = some c → isPythonSpace c = false) :
    letters.dropWhile isPythonSpace = letters := by
  cases letters with
  | nil => rfl
  | cons c letters => rw [List.dropWhile_cons_of_neg (by simp [h c rfl])]

theorem strip_of_tightEnds {text : String} (h : TightEnds text.toList) : strip text = text := by
  unfold strip
  rw [dropWhile_of_first h.first, dropWhile_of_first, List.reverse_reverse, String.ofList_toList]
  intro c hc
  rw [List.head?_reverse] at hc
  exact h.last c hc

theorem first_dropWhile (letters : List Char) :
    ∀ c, (letters.dropWhile isPythonSpace).head? = some c → isPythonSpace c = false := by
  intro c hc
  have hhead := List.head?_dropWhile_not isPythonSpace letters
  rw [hc] at hhead
  simpa using hhead

theorem tightEnds_strip (text : String) : TightEnds (strip text).toList := by
  unfold strip
  rw [String.toList_ofList]
  constructor
  · intro c hc
    rw [List.head?_reverse] at hc
    obtain ⟨before, hbefore⟩ :=
      List.dropWhile_suffix isPythonSpace (l := (text.toList.dropWhile isPythonSpace).reverse)
    apply first_dropWhile text.toList c
    rw [← List.getLast?_reverse, ← hbefore]
    exact List.mem_getLast?_append_of_mem_getLast? hc
  · intro c hc
    rw [List.getLast?_reverse] at hc
    exact first_dropWhile _ c hc

/-! ## Parts -/

section Parts

variable {separator : List Char}

/-- In the part and a separator after it, no separator begins before that one. -/
def FirstAfter (separator part : List Char) : Prop :=
  ∀ k < part.length, ¬ separator <+: (part ++ separator).drop k

/-- What a separator can split a text into. -/
inductive Parts (separator : List Char) : List (List Char) → Prop where
  | last {part : List Char} (free : ¬ separator <:+: part) : Parts separator [part]
  | cons {part : List Char} {parts : List (List Char)} (first : FirstAfter separator part)
      (rest : Parts separator parts) : Parts separator (part :: parts)

theorem Parts.ne_nil {parts : List (List Char)} (h : Parts separator parts) : parts ≠ [] := by
  cases h <;> exact List.cons_ne_nil _ _

theorem firstAfter_cons {c : Char} {part : List Char} :
    FirstAfter separator (c :: part) ↔
      ¬ separator <+: c :: part ++ separator ∧ FirstAfter separator part := by
  constructor
  · intro h
    exact ⟨h 0 (Nat.succ_pos _), fun k hk => h (k + 1) (Nat.succ_lt_succ hk)⟩
  · intro h k hk
    cases k with
    | zero => exact h.1
    | succ k => exact h.2 k (Nat.lt_of_succ_lt_succ hk)

theorem FirstAfter.free (hne : separator ≠ []) {part : List Char} (h : FirstAfter separator part) :
    ¬ separator <:+: part := by
  intro hpart
  obtain ⟨before, after, rfl⟩ := hpart
  have hpos := List.length_pos_of_ne_nil hne
  refine h before.length (by simp only [List.length_append]; omega) ?_
  rw [List.append_assoc, List.append_assoc, List.drop_left]
  exact List.prefix_append _ _

/-- Some of the parts, in order, are parts again. -/
theorem Parts.sublist (hne : separator ≠ []) {parts kept : List (List Char)}
    (h : Parts separator parts) (hsub : kept.Sublist parts) (hkept : kept ≠ []) :
    Parts separator kept := by
  induction h generalizing kept with
  | last free =>
    cases hsub with
    | cons _ hsub => exact absurd (List.sublist_nil.mp hsub) hkept
    | cons_cons _ hsub =>
      rw [List.sublist_nil.mp hsub]
      exact .last free
  | cons first _ ih =>
    cases hsub with
    | cons _ hsub => exact ih hsub hkept
    | @cons_cons kept _ _ hsub =>
      by_cases hlast : kept = []
      · rw [hlast]
        exact .last (first.free hne)
      · exact .cons first (ih hsub hlast)

theorem splitFrom_skip (separator current letters : List Char) (skip : Nat) :
    splitFrom separator skip current letters =
      splitFrom separator 0 current (letters.drop skip) := by
  induction skip generalizing letters with
  | zero => rw [List.drop_zero]
  | succ skip ih =>
    cases letters with
    | nil => simp [splitFrom]
    | cons c letters =>
      rw [splitFrom, List.drop_succ_cons]
      exact ih letters

theorem splitFrom_separator (hne : separator ≠ []) (current rest : List Char) :
    splitFrom separator 0 current (separator ++ rest) =
      current.reverse :: splitFrom separator 0 [] rest := by
  obtain ⟨a, letters, rfl⟩ := List.exists_cons_of_ne_nil hne
  rw [List.cons_append, splitFrom,
    if_pos (List.isPrefixOf_iff_prefix.mpr ⟨rest, List.cons_append⟩), splitFrom_skip,
    List.length_cons, Nat.add_sub_cancel, List.drop_left]

theorem splitFrom_part (hne : separator ≠ []) {part : List Char} (h : FirstAfter separator part)
    (current rest : List Char) :
    splitFrom separator 0 current (part ++ separator ++ rest) =
      (current.reverse ++ part) :: splitFrom separator 0 [] rest := by
  induction part generalizing current with
  | nil =>
    rw [List.append_nil]
    exact splitFrom_separator hne current rest
  | cons c part ih =>
    obtain ⟨hhere, hpart⟩ := firstAfter_cons.mp h
    have hnot : ¬ separator.isPrefixOf (c :: (part ++ separator ++ rest)) = true := by
      intro hprefix
      apply hhere
      refine List.prefix_of_prefix_length_le (List.isPrefixOf_iff_prefix.mp hprefix) ?_ ?_
      · exact ⟨rest, rfl⟩
      · simp only [List.length_append, List.length_cons]
        omega
    rw [List.cons_append, List.cons_append, splitFrom, if_neg hnot, ih hpart,
      List.reverse_cons, List.append_assoc, List.singleton_append]

theorem splitFrom_last {part : List Char} (h : ¬ separator <:+: part) (current : List Char) :
    splitFrom separator 0 current part = [current.reverse ++ part] := by
  induction part generalizing current with
  | nil => rw [splitFrom, List.append_nil]
  | cons c part ih =>
    rw [List.infix_cons_iff, not_or] at h
    rw [splitFrom, if_neg (mt List.isPrefixOf_iff_prefix.mp h.1), ih h.2, List.reverse_cons,
      List.append_assoc, List.singleton_append]

/-- Parts that a separator joins are those it splits into. -/
theorem Parts.splitFrom_intercalate (hne : separator ≠ []) {parts : List (List Char)}
    (h : Parts separator parts) :
    splitFrom separator 0 [] (separator.intercalate parts) = parts := by
  induction h with
  | last free =>
    rw [List.intercalate_singleton, splitFrom_last free]
    rfl
  | cons first rest ih =>
    rw [List.intercalate_cons_of_ne_nil rest.ne_nil, splitFrom_part hne first, ih]
    rfl

theorem splitFrom_ne_nil (separator : List Char) (skip : Nat) (current letters : List Char) :
    splitFrom separator skip current letters ≠ [] := by
  fun_induction splitFrom separator skip current letters with
  | case1 => exact List.cons_ne_nil _ _
  | case2 _ _ _ _ ih => exact ih
  | case3 => exact List.cons_ne_nil _ _
  | case4 _ _ _ _ ih => exact ih

/-- A text that begins with a separator, in the terms of the loop. -/
theorem cons_eq_of_isPrefixOf (hne : separator ≠ []) {c : Char} {rest : List Char}
    (h : separator.isPrefixOf (c :: rest) = true) :
    c :: rest = separator ++ rest.drop (separator.length - 1) := by
  obtain ⟨after, hafter⟩ := List.isPrefixOf_iff_prefix.mp h
  obtain ⟨a, letters, rfl⟩ := List.exists_cons_of_ne_nil hne
  rw [List.cons_append, List.cons.injEq] at hafter
  obtain ⟨rfl, rfl⟩ := hafter
  rw [List.length_cons, Nat.add_sub_cancel, List.drop_left, List.cons_append]

/-- The parts of a text, joined, are the text. -/
theorem intercalate_splitFrom (hne : separator ≠ []) (skip : Nat) (current letters : List Char) :
    separator.intercalate (splitFrom separator skip current letters) =
      current.reverse ++ letters.drop skip := by
  fun_induction splitFrom separator skip current letters with
  | case1 skip current => simp
  | case2 current skip c rest ih => exact ih
  | case3 current c rest hprefix ih =>
    rw [List.intercalate_cons_of_ne_nil (splitFrom_ne_nil _ _ _ _), ih, List.reverse_nil,
      List.nil_append, List.drop_zero, cons_eq_of_isPrefixOf hne hprefix, List.append_assoc]
  | case4 current c rest hprefix ih =>
    rw [ih, List.reverse_cons, List.append_assoc]
    rfl

/-- What a text is split into are parts, if no separator begins in what the loop
has read. -/
theorem parts_splitFrom (hne : separator ≠ []) (skip : Nat) (current letters : List Char)
    (h : ∀ k < current.length, ¬ separator <+: (current.reverse ++ letters.drop skip).drop k) :
    Parts separator (splitFrom separator skip current letters) := by
  fun_induction splitFrom separator skip current letters with
  | case1 skip current =>
    apply Parts.last
    intro hpart
    obtain ⟨before, after, heq⟩ := hpart
    have hpos := List.length_pos_of_ne_nil hne
    have hlength := congrArg List.length heq
    simp only [List.length_append, List.length_reverse] at hlength
    refine h before.length (by omega) ?_
    rw [List.drop_nil, List.append_nil, ← heq, List.append_assoc, List.drop_left]
    exact List.prefix_append _ _
  | case2 current skip c rest ih => exact ih h
  | case3 current c rest hprefix ih =>
    rw [List.drop_zero, cons_eq_of_isPrefixOf hne hprefix] at h
    refine .cons (fun k hk hbegins => ?_) (ih fun k hk => absurd hk (Nat.not_lt_zero k))
    rw [List.length_reverse] at hk
    refine h k hk (hbegins.trans ?_)
    have hlength : k ≤ (current.reverse ++ separator).length := by
      simp only [List.length_append, List.length_reverse]
      omega
    rw [← List.append_assoc, List.drop_append_of_le_length hlength]
    exact List.prefix_append _ _
  | case4 current c rest hprefix ih =>
    apply ih
    intro k hk
    rw [List.drop_zero, List.reverse_cons, List.append_assoc]
    by_cases hlast : k < current.length
    · exact h k hlast
    · obtain rfl : k = current.reverse.length := by
        rw [List.length_cons] at hk
        rw [List.length_reverse]
        omega
      rw [List.drop_left]
      exact mt List.isPrefixOf_iff_prefix.mpr hprefix

end Parts

/-! ## Splitting a text -/

variable {text separator : String}

theorem toList_ne_nil (hne : separator ≠ "") : separator.toList ≠ [] :=
  mt (fun h => String.toList_injective h) hne

theorem map_toList_splitOn (text separator : String) :
    (splitOn text separator).map String.toList = splitFrom separator.toList 0 [] text.toList := by
  unfold splitOn
  rw [List.map_map]
  simp

theorem intercalate_splitOn (hne : separator ≠ "") (text : String) :
    separator.intercalate (splitOn text separator) = text := by
  apply String.toList_injective
  rw [String.toList_intercalate, map_toList_splitOn,
    intercalate_splitFrom (toList_ne_nil hne)]
  rfl

theorem splitOn_parts (hne : separator ≠ "") {parts : List String}
    (h : Parts separator.toList (parts.map String.toList)) :
    splitOn (separator.intercalate parts) separator = parts := by
  apply List.map_injective_iff.mpr (fun _ _ => String.toList_injective)
  rw [map_toList_splitOn, String.toList_intercalate,
    h.splitFrom_intercalate (toList_ne_nil hne)]

/-- Some of the parts of a text, joined, are split into these parts again. -/
theorem splitOn_sublist (hne : separator ≠ "") {kept : List String}
    (hsub : kept.Sublist (splitOn text separator)) (hkept : kept ≠ []) :
    splitOn (separator.intercalate kept) separator = kept := by
  have hparts := parts_splitFrom (toList_ne_nil hne) 0 [] text.toList
    fun k hk => absurd hk (Nat.not_lt_zero k)
  apply splitOn_parts hne
  refine hparts.sublist (toList_ne_nil hne) ?_ (mt List.map_eq_nil_iff.mp hkept)
  rw [← map_toList_splitOn]
  exact hsub.map _

section Marked

variable {a m b : Char}

theorem firstAfter_of_not_mem (hne : a ≠ m) {part : List Char} (hpart : m ∉ part) :
    FirstAfter [a, m, b] part := by
  induction part with
  | nil => exact fun k hk => absurd hk (Nat.not_lt_zero k)
  | cons c part ih =>
    obtain ⟨_, hrest⟩ := List.ne_and_not_mem_of_not_mem_cons hpart
    refine firstAfter_cons.mpr ⟨fun hprefix => ?_, ih hrest⟩
    cases part with
    | nil =>
      obtain ⟨_, hsecond⟩ := List.cons_prefix_cons.mp hprefix
      exact hne (List.cons_prefix_cons.mp hsecond).1.symm
    | cons d part =>
      obtain ⟨_, hsecond⟩ := List.cons_prefix_cons.mp hprefix
      exact hrest ((List.cons_prefix_cons.mp hsecond).1 ▸ List.mem_cons_self)

theorem parts_of_not_mem (hne : a ≠ m) {parts : List (List Char)} (hparts : parts ≠ [])
    (h : ∀ part ∈ parts, m ∉ part) : Parts [a, m, b] parts := by
  induction parts with
  | nil => exact absurd rfl hparts
  | cons part parts ih =>
    obtain ⟨hpart, hrest⟩ := List.forall_mem_cons.mp h
    have hfirst := firstAfter_of_not_mem (b := b) hne hpart
    by_cases hlast : parts = []
    · rw [hlast]
      exact .last (hfirst.free (List.cons_ne_nil _ _))
    · exact .cons hfirst (ih hlast hrest)

/-- The texts that a separator joins are the parts it splits into. -/
theorem splitOn_intercalate {separator : String} (hseparator : separator.toList = [a, m, b])
    (hne : a ≠ m) {parts : List String} (hparts : parts ≠ [])
    (h : ∀ part ∈ parts, m ∉ part.toList) :
    splitOn (separator.intercalate parts) separator = parts := by
  have hseparator_ne : separator ≠ "" := by
    rintro rfl
    cases hseparator
  apply splitOn_parts hseparator_ne
  rw [hseparator]
  refine parts_of_not_mem hne (mt List.map_eq_nil_iff.mp hparts) fun part hpart => ?_
  obtain ⟨text, htext, rfl⟩ := List.mem_map.mp hpart
  exact h text htext

end Marked

end VirtualContributor.Lib
