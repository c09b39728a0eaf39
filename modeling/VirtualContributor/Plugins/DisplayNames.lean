import VirtualContributor.Lib.SplitText
import VirtualContributor.Lib.Substitution
import VirtualContributor.Plugins.SpaceReader

/-!
# Markup in display names

`_clean_name` strips a name twice, and each time it drops the tags before it
decodes the character references.  What the second decoding makes is dropped
by nothing.  `cleanName_iff` says that this is the one way for a tag into a
stored name: the text that the second decoding gets has no tag, so that a tag
behind it has a bracket that was written as a reference.

There are five groups.

* Tags, and the substitution that drops them.
* Character references.  `OneLevel` says that a function decodes one level.
* The whitespace.  It moves no bracket past another.
* The bounds of a stored name.
* The result.
-/

namespace VirtualContributor.Plugins.SpaceReader

open Lib Regex Retrieval

/-! ## Tags -/

/-- Where a tag is: `<`, one or more characters other than `>`, `>`. -/
structure TagAt (text before body after : List Char) : Prop where
  text_eq : text = before ++ '<' :: (body ++ '>' :: after)
  body_ne_nil : body ≠ []
  not_closing : '>' ∉ body

def HasTag (text : List Char) : Prop := ∃ before body after, TagAt text before body after

/-- A character below the letters is the lower case of itself only. -/
theorem toLower_eq_iff {c d : Char} (hd : d.toNat < 65) : c.toLower = d ↔ c = d := by
  unfold Char.toLower
  split
  · rename_i h
    have hlow : 65 ≤ c.toNat := h.1
    have hhigh : c.toNat ≤ 90 := h.2
    constructor
    · intro heq
      exfalso
      have hlower := congrArg Char.toNat heq
      simp only [Char.toNat, UInt32.toNat_add] at *
      simp at *
      omega
    · intro heq
      rw [heq] at hlow
      omega
  · rfl

theorem sameIgnoringCase_opening {c : Char} : sameIgnoringCase '<' c = true ↔ c = '<' := by
  simp [sameIgnoringCase, toLower_eq_iff]

theorem mem_language_TAG_RE {body : List Char} (hbody : body ≠ []) (hclosing : '>' ∉ body) :
    '<' :: (body ++ ['>']) ∈ TAG_RE.language := by
  obtain ⟨c, body, rfl⟩ := List.exists_cons_of_ne_nil hbody
  rw [List.mem_cons, not_or] at hclosing
  have hopening : ['<'] ∈ (literal "<").language :=
    mem_language_spelled.mpr (.cons (by decide) .nil)
  have hfirst : [c] ∈ notClosing.language := ⟨c, by simpa using Ne.symm hclosing.1, rfl⟩
  have hmore : body ∈ notClosing.many.language := by
    rw [notClosing, mem_language_many_chars]
    intro d hd
    have hne : d ≠ '>' := fun heq => hclosing.2 (heq ▸ hd)
    simpa using hne
  have hend : ['>'] ∈ (literal ">").language :=
    mem_language_spelled.mpr (.cons (by decide) .nil)
  exact Language.append_mem_mul (Language.append_mem_mul hopening
    (Language.append_mem_mul hfirst hmore)) hend

/-- `_TAG_RE` matches where a tag begins. -/
theorem tails_TAG_RE_ne_nil {body after : List Char} (hbody : body ≠ []) (hclosing : '>' ∉ body) :
    tails TAG_RE ('<' :: (body ++ '>' :: after)) ≠ [] := by
  have hplain : TAG_RE.plain = true := rfl
  have hends : (⟨some '>', after⟩ : Spot) ∈
      matchEnds TAG_RE ⟨none, '<' :: (body ++ '>' :: after)⟩ := by
    refine (ends_iff hplain).mpr ⟨_, mem_language_TAG_RE hbody hclosing, ?_, ?_⟩
    · simp
    · rw [← List.cons_append, List.getLast?_append]
      rfl
  have hmap : (matchEnds TAG_RE ⟨none, '<' :: (body ++ '>' :: after)⟩).map Spot.rest =
      tails TAG_RE ('<' :: (body ++ '>' :: after)) := map_rest_ends hplain _
  rw [← hmap]
  exact List.ne_nil_of_mem (List.mem_map_of_mem hends)

/-- `_TAG_RE` matches at an opening bracket only. -/
theorem tails_TAG_RE_of_ne {c : Char} {rest : List Char} (h : c ≠ '<') :
    tails TAG_RE (c :: rest) = [] := by
  have hliteral : tails (literal "<") (c :: rest) = [] := by
    have hc : sameIgnoringCase '<' c = false := by
      rw [Bool.eq_false_iff]
      exact fun heq => h (sameIgnoringCase_opening.mp heq)
    simp [literal, spelled, tails, hc]
  show ((tails (literal "<") (c :: rest)).flatMap _).flatMap _ = []
  rw [hliteral]
  rfl

/-- Where `_TAG_RE` does not match at an opening bracket, nothing closes it, or nothing is
inside. -/
theorem rest_of_no_match {rest : List Char} (h : tails TAG_RE ('<' :: rest) = []) :
    '>' ∉ rest ∨ ∃ more, rest = '>' :: more := by
  by_cases hclosing : '>' ∈ rest
  · right
    obtain ⟨body, more, rfl, hbody⟩ := List.eq_append_cons_of_mem hclosing
    cases body with
    | nil => exact ⟨more, rfl⟩
    | cons c body => exact absurd h (tails_TAG_RE_ne_nil (by simp) hbody)
  · exact .inl hclosing

/-- Nothing that the substitution leaves is a tag. -/
theorem not_hasTag_replaced (text : List Char) : ¬ HasTag (replaced TAG_RE [] text) := by
  have hconsumes : TAG_RE.consumes = true := rfl
  induction hlength : text.length using Nat.strongRecOn generalizing text with
  | ind n ih =>
    subst hlength
    intro htag
    obtain ⟨before, body, after, htext, hbody, hclosing⟩ := htag
    cases text with
    | nil => simp at htext
    | cons c rest =>
      cases hhead : (tails TAG_RE (c :: rest)).head? with
      | some next =>
        rw [replaced_of_match hconsumes hhead, List.nil_append] at htext
        have hlt := length_lt_of_mem_tails hconsumes (List.mem_of_mem_head? hhead)
        exact ih next.length hlt next rfl ⟨before, body, after, htext, hbody, hclosing⟩
      | none =>
        rw [replaced_of_none hhead] at htext
        cases before with
        | cons d before =>
          obtain ⟨_, htext⟩ := List.cons.inj htext
          exact ih rest.length (by simp) rest rfl ⟨before, body, after, htext, hbody, hclosing⟩
        | nil =>
          obtain ⟨hc, hrest⟩ := List.cons.inj htext
          have hmem : '>' ∈ replaced TAG_RE [] rest := by simp [hrest]
          rw [hc, List.head?_eq_none_iff] at hhead
          obtain hunclosed | ⟨more, rfl⟩ := rest_of_no_match hhead
          · obtain h | h := mem_of_mem_replaced hconsumes hmem
            · simp at h
            · exact hunclosed h
          · have hnone : (tails TAG_RE ('>' :: more)).head? = none := by
              rw [tails_TAG_RE_of_ne (by decide)]
              rfl
            rw [replaced_of_none hnone] at hrest
            cases body with
            | nil => exact hbody rfl
            | cons d body =>
              obtain ⟨hd, _⟩ := List.cons.inj hrest
              exact hclosing (hd ▸ List.mem_cons_self)

/-! ## Character references -/

/-- A piece of a text: a character, or a reference with the characters it stands for. -/
inductive Token where
  | literal (c : Char)
  | reference (written decoded : List Char)

namespace Token

def written : Token → List Char
  | literal c => [c]
  | reference written _ => written

/-- The decoded characters, and whether they come from a reference. -/
def marks : Token → List (Char × Bool)
  | literal c => [(c, false)]
  | reference _ decoded => decoded.map fun c => (c, true)

end Token

/-- `html.unescape` decodes one level: a text is read as pieces, of which a
reference begins with `&` and has no `>` inside, and each reference becomes the
characters it stands for. -/
structure OneLevel (unescape : String → String) where
  tokens : String → List Token
  written : ∀ text, (tokens text).flatMap Token.written = text.toList
  decoded : ∀ text,
    (unescape text).toList = ((tokens text).flatMap Token.marks).map Prod.fst
  reference : ∀ text written decoded, Token.reference written decoded ∈ tokens text →
    ∃ name, written = '&' :: name ∧ '>' ∉ name

namespace OneLevel

variable {unescape : String → String} (D : OneLevel unescape)

/-- The decoded text, each character with whether it comes from a reference. -/
def marks (text : String) : List (Char × Bool) := (D.tokens text).flatMap Token.marks

end OneLevel

/-- A character that no reference stands for is a piece of its own. -/
theorem exists_literal {tokens : List Token} {before after : List (Char × Bool)} {c : Char}
    (h : tokens.flatMap Token.marks = before ++ (c, false) :: after) :
    ∃ first rest, tokens = first ++ .literal c :: rest ∧ first.flatMap Token.marks = before ∧
      rest.flatMap Token.marks = after := by
  induction tokens generalizing before with
  | nil => simp at h
  | cons token tokens ih =>
    rw [List.flatMap_cons] at h
    cases token with
    | literal d =>
      cases before with
      | nil =>
        obtain ⟨hd, hrest⟩ := List.cons.inj h
        obtain ⟨rfl, _⟩ := Prod.mk.inj hd
        exact ⟨[], tokens, rfl, rfl, hrest⟩
      | cons mark before =>
        obtain ⟨rfl, hrest⟩ := List.cons.inj h
        obtain ⟨first, rest, rfl, hfirst, hafter⟩ := ih hrest
        refine ⟨.literal d :: first, rest, rfl, ?_, hafter⟩
        rw [List.flatMap_cons, hfirst]
        rfl
    | reference written decoded =>
      have hnot : (c, false) ∉ Token.marks (.reference written decoded) := by
        simp [Token.marks]
      obtain ⟨middle, rfl, hrest⟩ := exists_of_append_eq hnot h
      obtain ⟨first, rest, rfl, hfirst, hafter⟩ := ih hrest
      refine ⟨.reference written decoded :: first, rest, rfl, ?_, hafter⟩
      rw [List.flatMap_cons, hfirst]

/-- What is between two brackets of the text itself is closed in the text too. -/
theorem tagAt_written {unescape : String → String} (D : OneLevel unescape) {text : String}
    {before body after : List (Char × Bool)}
    (h : D.marks text = before ++ ('<', false) :: (body ++ ('>', false) :: after))
    (hbody : body ≠ []) (hclosing : ∀ mark ∈ body, mark.1 ≠ '>') : HasTag text.toList := by
  obtain ⟨first, rest, htokens, _, hrest⟩ := exists_literal h
  obtain ⟨inside, last, rfl, hinside, _⟩ := exists_literal hrest
  refine ⟨first.flatMap Token.written, inside.flatMap Token.written,
    last.flatMap Token.written, ?_, ?_, ?_⟩
  · rw [← D.written, htokens]
    simp [Token.written]
  · intro hnil
    cases inside with
    | nil => exact hbody hinside.symm
    | cons token inside =>
      rw [List.flatMap_cons, List.append_eq_nil_iff] at hnil
      cases token with
      | literal c => simp [Token.written] at hnil
      | reference written decoded =>
        obtain ⟨name, rfl, _⟩ := D.reference text written decoded (by simp [htokens])
        simp [Token.written] at hnil
  · intro hmem
    obtain ⟨token, htoken, hmem⟩ := List.mem_flatMap.mp hmem
    cases token with
    | literal c =>
      obtain rfl := List.mem_singleton.mp hmem
      refine hclosing ('>', false) ?_ rfl
      rw [← hinside]
      exact List.mem_flatMap.mpr ⟨_, htoken, List.mem_singleton_self _⟩
    | reference written decoded =>
      obtain ⟨name, rfl, hname⟩ := D.reference text written decoded (by simp [htokens, htoken])
      have hmem : '>' ∈ '&' :: name := hmem
      rw [List.mem_cons] at hmem
      obtain h | h := hmem
      · exact absurd h (by decide)
      · exact hname h

/-! ## Whitespace -/

/-- The two substitutions of `_strip_html` behind the decoding. -/
def collapsed (text : List Char) : List Char :=
  replaced EXCESS_NEWLINES_RE ['\n', '\n'] (replaced HORIZONTAL_WS_RE [' '] text)

/-- `text.lstrip()`, as a list. -/
def lstrip (text : List Char) : List Char := text.dropWhile isPythonSpace

/-- `text.rstrip()`, as a list. -/
def rstrip (text : List Char) : List Char := (text.reverse.dropWhile isPythonSpace).reverse

section

variable {c : Char}

def IsBracket (c : Char) : Prop := c = '<' ∨ c = '>'

theorem IsBracket.rejected (h : IsBracket c) :
    HORIZONTAL_WS_RE.rejects c = true ∧ EXCESS_NEWLINES_RE.rejects c = true ∧
      c ∉ [' '] ∧ c ∉ ['\n', '\n'] ∧ isPythonSpace c = false := by
  obtain rfl | rfl := h <;> decide

theorem collapsed_append (h : IsBracket c) (a b : List Char) :
    collapsed (a ++ c :: b) = collapsed a ++ c :: collapsed b := by
  unfold collapsed
  rw [replaced_append rfl h.rejected.1, replaced_append rfl h.rejected.2.1]

theorem exists_of_collapsed (h : IsBracket c) {text before after : List Char}
    (htext : collapsed text = before ++ c :: after) :
    ∃ a b, text = a ++ c :: b ∧ collapsed a = before ∧ collapsed b = after := by
  obtain ⟨hhorizontal, hnewlines, hspace, hnewline, _⟩ := h.rejected
  obtain ⟨a, b, hmiddle, ha, hb⟩ := exists_of_replaced rfl hnewlines hnewline htext
  obtain ⟨a', b', rfl, rfl, rfl⟩ := exists_of_replaced rfl hhorizontal hspace hmiddle
  exact ⟨a', b', rfl, ha, hb⟩

theorem collapsed_ne_nil {text : List Char} (h : text ≠ []) : collapsed text ≠ [] :=
  replaced_ne_nil rfl (by simp) (replaced_ne_nil rfl (by simp) h)

theorem closing_mem_collapsed {text : List Char} : '>' ∈ collapsed text ↔ '>' ∈ text := by
  constructor
  · intro h
    obtain h | h := mem_of_mem_replaced rfl h
    · simp at h
    · obtain h | h := mem_of_mem_replaced rfl h
      · simp at h
      · exact h
  · intro h
    obtain ⟨a, b, rfl⟩ := List.append_of_mem h
    rw [collapsed_append (.inr rfl)]
    simp

theorem dropWhile_append_of_not_space (h : isPythonSpace c = false) (a b : List Char) :
    (a ++ c :: b).dropWhile isPythonSpace = a.dropWhile isPythonSpace ++ c :: b := by
  induction a with
  | nil => simp [h]
  | cons d a ih =>
    rw [List.cons_append, List.dropWhile_cons, List.dropWhile_cons]
    split
    · exact ih
    · rfl

theorem rstrip_lstrip_append (h : isPythonSpace c = false) (a b : List Char) :
    rstrip (lstrip (a ++ c :: b)) = lstrip a ++ c :: rstrip b := by
  unfold rstrip lstrip
  rw [dropWhile_append_of_not_space h, List.reverse_append, List.reverse_cons, List.append_assoc,
    List.singleton_append, dropWhile_append_of_not_space h]
  simp

theorem toList_strip (text : String) : (strip text).toList = rstrip (lstrip text.toList) :=
  String.toList_ofList

theorem exists_spaces (text : List Char) :
    ∃ before after, text = before ++ rstrip (lstrip text) ++ after ∧
      ∀ d ∈ before, isPythonSpace d = true := by
  refine ⟨text.takeWhile isPythonSpace,
    ((lstrip text).reverse.takeWhile isPythonSpace).reverse, ?_, ?_⟩
  · have hend : rstrip (lstrip text) ++ ((lstrip text).reverse.takeWhile isPythonSpace).reverse =
        lstrip text := by
      rw [rstrip, ← List.reverse_append, List.takeWhile_append_dropWhile, List.reverse_reverse]
    rw [List.append_assoc, hend]
    exact List.takeWhile_append_dropWhile.symm
  · exact fun d hd => List.mem_takeWhile_imp hd

end

/-- What `_strip_html` makes of a decoded text. -/
def shown (text : List Char) : List Char := rstrip (lstrip (collapsed text))

/-- How many characters `_strip_html` makes of the begin of a decoded text. -/
def width (text : List Char) : Nat := (lstrip (collapsed text)).length

theorem opening_isBracket : IsBracket '<' := .inl rfl

theorem closing_isBracket : IsBracket '>' := .inr rfl

/-- A tag stays a tag. -/
theorem TagAt.shown {text before body after : List Char} (h : TagAt text before body after) :
    TagAt (shown text) (lstrip (collapsed before)) (collapsed body)
      (rstrip (collapsed after)) := by
  obtain ⟨rfl, hbody, hclosing⟩ := h
  refine ⟨?_, collapsed_ne_nil hbody, fun hmem => hclosing (closing_mem_collapsed.mp hmem)⟩
  have hspace := closing_isBracket.rejected.2.2.2.2
  rw [SpaceReader.shown, collapsed_append opening_isBracket, collapsed_append closing_isBracket,
    rstrip_lstrip_append opening_isBracket.rejected.2.2.2.2]
  congr 2
  unfold rstrip
  rw [List.reverse_append, List.reverse_cons, List.append_assoc, List.singleton_append,
    dropWhile_append_of_not_space hspace]
  simp

/-- A tag behind the normalization of whitespace was one before it. -/
theorem exists_tagAt_of_shown {text before body after : List Char}
    (h : TagAt (shown text) before body after) :
    ∃ before' body' after', TagAt text before' body' after' ∧
      lstrip (collapsed before') = before ∧ collapsed body' = body := by
  obtain ⟨htext, hbody, hclosing⟩ := h
  obtain ⟨spaces, more, heq, hspaces⟩ := exists_spaces (collapsed text)
  have hfirst : lstrip before = before := by
    apply dropWhile_of_first
    intro c hc
    have htight := tightEnds_strip (String.ofList (collapsed text))
    apply htight.first
    rw [toList_strip, String.toList_ofList]
    change (SpaceReader.shown text).head? = some c
    rw [htext]
    simp [hc]
  have hsplit : collapsed text =
      (spaces ++ before) ++ '<' :: (body ++ '>' :: (after ++ more)) := by
    rw [heq]
    change spaces ++ SpaceReader.shown text ++ more = _
    rw [htext]
    simp
  obtain ⟨before', rest, rfl, hbefore, hrest⟩ := exists_of_collapsed opening_isBracket hsplit
  obtain ⟨body', after', rfl, hbody', _⟩ := exists_of_collapsed closing_isBracket hrest
  refine ⟨before', body', after', ⟨rfl, ?_, ?_⟩, ?_, hbody'⟩
  · intro hnil
    rw [hnil] at hbody'
    exact hbody hbody'.symm
  · intro hmem
    apply hclosing
    rw [← hbody']
    exact closing_mem_collapsed.mpr hmem
  · rw [hbefore, lstrip, List.dropWhile_append_of_pos hspaces]
    exact hfirst

theorem width_tag {before body : List Char} :
    width (before ++ '<' :: (body ++ ['>'])) =
      (lstrip (collapsed before)).length + (collapsed body).length + 2 := by
  unfold width
  rw [collapsed_append opening_isBracket, collapsed_append closing_isBracket, lstrip,
    dropWhile_append_of_not_space opening_isBracket.rejected.2.2.2.2]
  simp only [lstrip, List.length_append, List.length_cons, collapsed, replaced_nil, List.length_nil]
  omega

/-! ## The bounds of a name -/

/-- A tag in the first characters of a text is a tag that ends within them. -/
theorem hasTag_take_iff {text : List Char} {limit : Nat} :
    HasTag (text.take limit) ↔ ∃ before body after, TagAt text before body after ∧
      before.length + body.length + 2 ≤ limit := by
  constructor
  · intro h
    obtain ⟨before, body, after, htext, hbody, hclosing⟩ := h
    refine ⟨before, body, after ++ text.drop limit, ⟨?_, hbody, hclosing⟩, ?_⟩
    · conv_lhs => rw [← List.take_append_drop limit text, htext]
      simp
    · have hlength := congrArg List.length htext
      simp only [List.length_take, List.length_append, List.length_cons] at hlength
      omega
  · intro h
    obtain ⟨before, body, after, ⟨rfl, hbody, hclosing⟩, hlimit⟩ := h
    refine ⟨before, body, after.take (limit - (before.length + body.length + 2)), ?_, hbody,
      hclosing⟩
    have hsplit : before ++ '<' :: (body ++ '>' :: after) =
        (before ++ '<' :: (body ++ ['>'])) ++ after := by simp
    rw [hsplit, List.take_append]
    have hwhole : (before ++ '<' :: (body ++ ['>'])).length ≤ limit := by
      simp only [List.length_append, List.length_cons, List.length_nil]
      omega
    rw [List.take_of_length_le hwhole]
    simp only [List.length_append, List.length_cons, List.length_nil]
    simp [show limit - (before.length + (body.length + (0 + 1) + 1)) =
      limit - (before.length + body.length + 2) by omega]

/-! ## The result -/

/-- The three substitutions of `_strip_html` before the decoding. -/
def dropTags (text : String) : String :=
  sub (matchEnds TAG_RE) ""
    (sub (matchEnds BLOCK_TAGS_RE) "\n" (sub SCRIPT_STYLE_RE "" text))

section

variable {L : ReaderLib} (D : OneLevel L.unescape)

/-- The decoded text has a tag with a bracket that was written as a reference,
and it ends within the first characters that are shown. -/
def EncodesTag (limit : Nat) (text : String) : Prop :=
  ∃ before opening body closing after,
    D.marks text = before ++ opening :: (body ++ closing :: after) ∧
      opening.1 = '<' ∧ closing.1 = '>' ∧ body ≠ [] ∧ (∀ mark ∈ body, mark.1 ≠ '>') ∧
      (opening.2 = true ∨ closing.2 = true) ∧
      width ((before ++ opening :: (body ++ [closing])).map Prod.fst) ≤ limit

theorem toList_unescape (text : String) :
    (L.unescape text).toList = (D.marks text).map Prod.fst := D.decoded text

theorem not_hasTag_dropTags (text : String) : ¬ HasTag (dropTags text).toList := by
  unfold dropTags matchEnds
  rw [toList_sub rfl]
  exact not_hasTag_replaced _

/-- A tag of the decoded text has a bracket that a reference stands for. -/
theorem encodesTag_iff {limit : Nat} {text : String} (h : ¬ HasTag text.toList) :
    EncodesTag D limit text ↔
      ∃ before body after, TagAt (L.unescape text).toList before body after ∧
        (lstrip (collapsed before)).length + (collapsed body).length + 2 ≤ limit := by
  rw [toList_unescape D]
  constructor
  · intro hencodes
    obtain ⟨before, opening, body, closing, after, hmarks, ho, hc, hbody, hclosing, _, hwidth⟩ :=
      hencodes
    refine ⟨before.map Prod.fst, body.map Prod.fst, after.map Prod.fst, ⟨?_, ?_, ?_⟩, ?_⟩
    · rw [hmarks]
      simp [ho, hc]
    · simpa using hbody
    · intro hmem
      obtain ⟨mark, hmark, heq⟩ := List.mem_map.mp hmem
      exact hclosing mark hmark heq
    · rw [← width_tag]
      simpa [ho, hc] using hwidth
  · intro htag
    obtain ⟨before, body, after, ⟨htext, hbody, hclosing⟩, hwidth⟩ := htag
    obtain ⟨before, behind, hmarks, rfl, hbehind⟩ := List.map_eq_append_iff.mp htext
    obtain ⟨opening, inside, rfl, ho, hinside⟩ := List.map_eq_cons_iff.mp hbehind
    obtain ⟨body, last, rfl, rfl, hlast⟩ := List.map_eq_append_iff.mp hinside
    obtain ⟨closing, after, rfl, hc, rfl⟩ := List.map_eq_cons_iff.mp hlast
    have hbody : body ≠ [] := fun hnil => hbody (by rw [hnil]; rfl)
    have hclosing : ∀ mark ∈ body, mark.1 ≠ '>' := fun mark hmark heq =>
      hclosing (heq ▸ List.mem_map_of_mem hmark)
    refine ⟨before, opening, body, closing, after, hmarks, ho, hc, hbody, hclosing, ?_, ?_⟩
    · by_contra hliteral
      rw [not_or, Bool.not_eq_true, Bool.not_eq_true] at hliteral
      have hopening : opening = ('<', false) := Prod.ext ho hliteral.1
      have hclose : closing = ('>', false) := Prod.ext hc hliteral.2
      rw [hopening, hclose] at hmarks
      exact h (tagAt_written D hmarks hbody hclosing)
    · rw [← width_tag] at hwidth
      simpa [ho, hc] using hwidth

include D in
theorem unescape_empty : L.unescape "" = "" := by
  have htokens : D.tokens "" = [] := by
    cases htokens : D.tokens "" with
    | nil => rfl
    | cons token tokens =>
      have hwritten := D.written ""
      rw [htokens, List.flatMap_cons] at hwritten
      cases token with
      | literal c => simp [Token.written] at hwritten
      | reference written decoded =>
        obtain ⟨name, rfl, _⟩ := D.reference "" written decoded (by simp [htokens])
        simp [Token.written] at hwritten
  have hdecoded := D.decoded ""
  rw [htokens] at hdecoded
  exact String.toList_inj.mp (hdecoded.trans rfl)

include D in
theorem toList_stripHtml (text : String) :
    (stripHtml L text).toList = shown (L.unescape (dropTags text)).toList := by
  unfold stripHtml
  split
  · rename_i h
    rw [h, show dropTags "" = "" from rfl, unescape_empty D]
    rfl
  · unfold matchEnds
    rw [toList_strip, toList_sub rfl, toList_sub rfl]
    rfl

include D in
theorem strip_stripHtml (text : String) : strip (stripHtml L text) = stripHtml L text := by
  have hstrip : stripHtml L text =
      strip (String.ofList (collapsed (L.unescape (dropTags text)).toList)) := by
    apply String.toList_inj.mp
    rw [toList_stripHtml D, toList_strip, String.toList_ofList]
    rfl
  rw [hstrip]
  exact strip_of_tightEnds (tightEnds_strip _)

include D in
/-- `_clean_name` keeps the begin of what the second pass shows. -/
theorem cleanName_eq_some {raw name : String} :
    cleanName L raw = some name ↔
      shown (L.unescape (dropTags (stripHtml L raw))).toList ≠ [] ∧
        name = String.ofList
          ((shown (L.unescape (dropTags (stripHtml L raw))).toList).take NAME_MAX_CHARS) := by
  rw [← toList_stripHtml D]
  unfold cleanName
  split
  · rename_i h
    rw [h]
    have hempty : stripHtml L (stripHtml L "") = "" := rfl
    simp [hempty]
  · rw [strip_stripHtml D]
    by_cases hblank : stripHtml L (stripHtml L raw) = ""
    · simp [hblank]
    · rw [if_neg hblank, firstChars, Option.some.injEq]
      constructor
      · intro h
        exact ⟨by simpa using hblank, h.symm⟩
      · intro h
        exact h.2.symm

/-- What is shown begins with a character that is no blank. -/
theorem isBlank_take {text : List Char} (h : shown text ≠ []) :
    isBlank (String.ofList ((shown text).take NAME_MAX_CHARS)) = false := by
  have htight := tightEnds_strip (String.ofList (collapsed text))
  have hfirst := htight.first
  rw [toList_strip, String.toList_ofList] at hfirst
  change ∀ c, (shown text).head? = some c → _ at hfirst
  obtain ⟨c, rest, hshown⟩ := List.exists_cons_of_ne_nil h
  rw [hshown] at hfirst ⊢
  rw [isBlank, String.toList_ofList, NAME_MAX_CHARS, List.take_succ_cons, List.all_cons,
    hfirst c rfl, Bool.false_and]

/-- A stored name has no tag unless the text that the second decoding gets
encodes one. -/
theorem cleanName_iff (raw : String) :
    (∀ name, cleanName L raw = some name →
        isBlank name = false ∧ name.toList.length ≤ NAME_MAX_CHARS ∧ ¬ HasTag name.toList) ↔
      ¬ EncodesTag D NAME_MAX_CHARS (dropTags (stripHtml L raw)) := by
  rw [encodesTag_iff D (not_hasTag_dropTags _)]
  have hname : ∀ name, cleanName L raw = some name →
      isBlank name = false ∧ name.toList.length ≤ NAME_MAX_CHARS := by
    intro name h
    obtain ⟨hne, rfl⟩ := (cleanName_eq_some D).mp h
    rw [String.toList_ofList]
    exact ⟨isBlank_take hne, List.length_take_le _ _⟩
  constructor
  · intro h htag
    obtain ⟨before, body, after, htag, hwidth⟩ := htag
    have hshown := htag.shown
    have hne : shown (L.unescape (dropTags (stripHtml L raw))).toList ≠ [] := by
      rw [hshown.text_eq]
      simp
    obtain ⟨_, _, hno⟩ := h _ ((cleanName_eq_some D).mpr ⟨hne, rfl⟩)
    rw [String.toList_ofList] at hno
    exact hno (hasTag_take_iff.mpr ⟨_, _, _, hshown, hwidth⟩)
  · intro h name hsome
    refine ⟨(hname name hsome).1, (hname name hsome).2, ?_⟩
    intro htag
    obtain ⟨_, rfl⟩ := (cleanName_eq_some D).mp hsome
    rw [String.toList_ofList] at htag
    obtain ⟨before, body, after, htagAt, hlimit⟩ := hasTag_take_iff.mp htag
    obtain ⟨before', body', after', htag', rfl, rfl⟩ := exists_tagAt_of_shown htagAt
    exact h ⟨before', body', after', htag', hlimit⟩

end

/-! ## Names with three references -/

/-- The references to the two brackets and to the ampersand. -/
def readTokens : List Char → List Token
  | '&' :: 'l' :: 't' :: ';' :: rest => .reference ['&', 'l', 't', ';'] ['<'] :: readTokens rest
  | '&' :: 'g' :: 't' :: ';' :: rest => .reference ['&', 'g', 't', ';'] ['>'] :: readTokens rest
  | '&' :: 'a' :: 'm' :: 'p' :: ';' :: rest =>
    .reference ['&', 'a', 'm', 'p', ';'] ['&'] :: readTokens rest
  | c :: rest => .literal c :: readTokens rest
  | [] => []

/-- `html.unescape` of a text that has no other reference. -/
def unescapeMarkup (text : String) : String :=
  String.ofList (((readTokens text.toList).flatMap Token.marks).map Prod.fst)

theorem written_readTokens (letters : List Char) :
    (readTokens letters).flatMap Token.written = letters := by
  fun_induction readTokens letters <;> simp_all [Token.written]

theorem reference_readTokens {letters written decoded : List Char}
    (h : Token.reference written decoded ∈ readTokens letters) :
    written ∈ [['&', 'l', 't', ';'], ['&', 'g', 't', ';'], ['&', 'a', 'm', 'p', ';']] := by
  fun_induction readTokens letters with
  | case1 rest ih | case2 rest ih | case3 rest ih =>
    rw [List.mem_cons] at h
    obtain h | h := h
    · obtain ⟨rfl, _⟩ := Token.reference.inj h
      simp
    · exact ih h
  | case4 c rest _ _ _ ih =>
    rw [List.mem_cons] at h
    obtain h | h := h
    · cases h
    · exact ih h
  | case5 => simp at h

def oneLevelMarkup : OneLevel unescapeMarkup where
  tokens text := readTokens text.toList
  written text := written_readTokens text.toList
  decoded text := String.toList_ofList
  reference text written decoded h := by
    have hwritten := reference_readTokens h
    simp only [List.mem_cons, List.not_mem_nil, or_false] at hwritten
    obtain rfl | rfl | rfl := hwritten <;> exact ⟨_, rfl, by decide⟩

def markupLib : ReaderLib where
  lower := asciiLower
  unescape := unescapeMarkup
  sha256 text := text
  extractText _ _ := none

/-- The theorem for a name whose tag is encoded once. -/
theorem cleanName_iff_once_encoded :
    (∀ name, cleanName markupLib "Team &lt;b&gt;A&lt;/b&gt;" = some name →
        isBlank name = false ∧ name.toList.length ≤ NAME_MAX_CHARS ∧ ¬ HasTag name.toList) ↔
      ¬ @EncodesTag markupLib oneLevelMarkup NAME_MAX_CHARS
        (dropTags (stripHtml markupLib "Team &lt;b&gt;A&lt;/b&gt;")) :=
  @cleanName_iff markupLib oneLevelMarkup "Team &lt;b&gt;A&lt;/b&gt;"

/-- A tag that is encoded twice is stored. -/
theorem cleanName_twice_encoded :
    cleanName markupLib "&amp;lt;b&amp;gt;" = some "<b>" ∧ HasTag "<b>".toList :=
  ⟨by decide +kernel, [], ['b'], [], rfl, by simp, by decide⟩


end VirtualContributor.Plugins.SpaceReader
