import Mathlib.Data.List.Infix
import VirtualContributor.Lib.JsonCharacters
import VirtualContributor.Plugins.JsonSources

/-!
# Blocks of braces

The loop over the braces of an answer finds the first block of them
(`braceCandidate_iff`), braces inside strings included.
-/

namespace VirtualContributor.Plugins

open Lib

/-! ## Depth -/

/-- How many more braces a text opens than it closes. -/
def braceDepth (text : List Char) : Int := text.count '{' - text.count '}'

/-- A text that begins with a brace and is back at depth zero with its last
character, not before. -/
structure BraceBlock (text : List Char) : Prop where
  opens : text.head? = some '{'
  inside : ∀ part, part <+: text → part ≠ [] → part ≠ text → 0 < braceDepth part
  whole : braceDepth text = 0

@[simp] theorem braceDepth_nil : braceDepth [] = 0 := rfl

theorem braceDepth_append (u v : List Char) :
    braceDepth (u ++ v) = braceDepth u + braceDepth v := by
  simp only [braceDepth, List.count_append]
  omega

theorem braceDepth_cons (c : Char) (text : List Char) :
    braceDepth (c :: text) = braceDepth [c] + braceDepth text :=
  braceDepth_append [c] text

/-- The first part of a text behind which the depth, which was positive, is
zero. -/
structure FirstZero (depth : Int) (text part : List Char) : Prop where
  isPrefix : part <+: text
  inside : ∀ shorter, shorter <+: part → shorter ≠ part → 0 < depth + braceDepth shorter
  whole : depth + braceDepth part = 0

theorem not_firstZero_nil {depth : Int} (hdepth : 0 < depth) (part : List Char) :
    ¬ FirstZero depth [] part := by
  intro h
  have hnil := List.prefix_nil.mp h.isPrefix
  have hwhole := h.whole
  rw [hnil, braceDepth_nil] at hwhole
  omega

/-- One character nearer to the end of the block. -/
theorem firstZero_cons_iff {depth : Int} (hdepth : 0 < depth) {c : Char} {text part : List Char} :
    FirstZero depth (c :: text) part ↔
      ∃ rest, c :: rest = part ∧
        (depth + braceDepth [c] = 0 ∧ rest = [] ∨
          0 < depth + braceDepth [c] ∧ FirstZero (depth + braceDepth [c]) text rest) := by
  constructor
  · intro h
    obtain hnil | ⟨rest, hpart, hrest⟩ := List.prefix_cons_iff.mp h.isPrefix
    · have hwhole := h.whole
      rw [hnil, braceDepth_nil] at hwhole
      omega
    · have hwhole := h.whole
      rw [hpart, braceDepth_cons] at hwhole
      refine ⟨rest, hpart.symm, ?_⟩
      by_cases hend : rest = []
      · left
        rw [hend, braceDepth_nil] at hwhole
        exact ⟨by omega, hend⟩
      · right
        have hinside : ∀ shorter, shorter <+: rest → shorter ≠ rest →
            0 < depth + braceDepth [c] + braceDepth shorter := by
          intro shorter hshorter hne
          have hdeep := h.inside (c :: shorter)
            (hpart ▸ List.cons_prefix_cons.mpr ⟨rfl, hshorter⟩)
            (fun heq => hne (List.cons.inj (heq.trans hpart)).2)
          rw [braceDepth_cons] at hdeep
          omega
        have hfirst := hinside [] List.nil_prefix (Ne.symm hend)
        rw [braceDepth_nil, Int.add_zero] at hfirst
        exact ⟨hfirst, hrest, hinside, by omega⟩
  · intro h
    obtain ⟨rest, rfl, hcase⟩ := h
    have hdeep : ∀ shorter, shorter <+: c :: rest → shorter ≠ c :: rest →
        (∀ more, more <+: rest → more ≠ rest → 0 < depth + braceDepth [c] + braceDepth more) →
        0 < depth + braceDepth shorter := by
      intro shorter hshorter hne hmore
      obtain rfl | ⟨more, rfl, hbegin⟩ := List.prefix_cons_iff.mp hshorter
      · rw [braceDepth_nil]
        omega
      · have hpos := hmore more hbegin (fun heq => hne (by rw [heq]))
        rw [braceDepth_cons]
        omega
    obtain ⟨hzero, rfl⟩ | ⟨_, hrest⟩ := hcase
    · refine ⟨List.cons_prefix_cons.mpr ⟨rfl, List.nil_prefix⟩, fun shorter hshorter hne =>
        hdeep shorter hshorter hne fun more hmore hne => ?_, hzero⟩
      exact absurd (List.prefix_nil.mp hmore) hne
    · refine ⟨List.cons_prefix_cons.mpr ⟨rfl, hrest.isPrefix⟩, fun shorter hshorter hne =>
        hdeep shorter hshorter hne hrest.inside, ?_⟩
      have hwhole := hrest.whole
      rw [braceDepth_cons]
      omega

namespace GuidancePlugin

/-- The loop finds where the depth is back at zero. -/
theorem matchingBrace_iff {depth : Int} (hdepth : 0 < depth) {text part : List Char} :
    matchingBrace depth text = some part ↔ FirstZero depth text part := by
  induction text generalizing depth part with
  | nil => simp [matchingBrace, not_firstZero_nil hdepth]
  | cons c text ih =>
    have hmap : ∀ {next : Int}, 0 < next → next = depth + braceDepth [c] →
        ((matchingBrace next text).map (c :: ·) = some part ↔
          FirstZero depth (c :: text) part) := by
      intro next hpos hnext
      rw [Option.map_eq_some_iff, firstZero_cons_iff hdepth, ← hnext]
      apply exists_congr
      intro rest
      rw [ih hpos, and_comm]
      apply and_congr_right
      intro _
      constructor
      · exact fun h => .inr ⟨hpos, h⟩
      · intro h
        obtain h | h := h
        · omega
        · exact h.2
    unfold matchingBrace
    split
    · next hopen =>
      have hone : braceDepth [c] = 1 := by
        rw [hopen]
        rfl
      exact hmap (by omega) (by rw [hone])
    · next hopen =>
      split
      · next hclose =>
        have hone : braceDepth [c] = -1 := by
          rw [hclose]
          rfl
        split
        · next hzero =>
          rw [Option.some_inj, firstZero_cons_iff hdepth, hone]
          constructor
          · exact fun h => ⟨[], h, .inl ⟨by omega, rfl⟩⟩
          · intro h
            obtain ⟨rest, hpart, ⟨-, hrest⟩ | ⟨hpos, -⟩⟩ := h
            · rw [← hpart, hrest]
            · omega
        · exact hmap (by omega) (by rw [hone]; omega)
      · next hclose =>
        have hzero : braceDepth [c] = 0 := by
          simp [braceDepth, hopen, hclose]
        exact hmap hdepth (by rw [hzero, Int.add_zero])

end GuidancePlugin

theorem braceBlock_cons_iff {rest : List Char} :
    BraceBlock ('{' :: rest) ↔ FirstZero 1 rest rest := by
  have hone : braceDepth ['{'] = 1 := rfl
  constructor
  · intro h
    refine ⟨List.prefix_rfl, ?_, ?_⟩
    · intro shorter hshorter hne
      have hdeep := h.inside ('{' :: shorter) (List.cons_prefix_cons.mpr ⟨rfl, hshorter⟩)
        (List.cons_ne_nil _ _) (fun heq => hne (List.cons.inj heq).2)
      rw [braceDepth_cons, hone] at hdeep
      exact hdeep
    · have hwhole := h.whole
      rw [braceDepth_cons, hone] at hwhole
      exact hwhole
  · intro h
    refine ⟨rfl, ?_, ?_⟩
    · intro part hpart hnil hne
      obtain rfl | ⟨more, rfl, hmore⟩ := List.prefix_cons_iff.mp hpart
      · exact absurd rfl hnil
      · rw [braceDepth_cons, hone]
        exact h.inside more hmore fun heq => hne (by rw [heq])
    · rw [braceDepth_cons, hone]
      exact h.whole

/-- The first block of braces of a text. -/
def FirstBlock (text block : String) : Prop :=
  ∃ before after, text.toList = before ++ (block.toList ++ after) ∧ '{' ∉ before ∧
    BraceBlock block.toList

namespace GuidancePlugin

theorem braceCandidate_iff {text block : String} :
    braceCandidate text = some block ↔ FirstBlock text block := by
  have hloop : ∀ rest, (matchingBrace 0 ('{' :: rest)).map String.ofList = some block ↔
      ∃ part, FirstZero 1 rest part ∧ '{' :: part = block.toList := by
    intro rest
    have hstep : matchingBrace 0 ('{' :: rest) = (matchingBrace 1 rest).map ('{' :: ·) := rfl
    rw [hstep, Option.map_map, Option.map_eq_some_iff]
    apply exists_congr
    intro part
    rw [matchingBrace_iff (by decide), Function.comp_apply, ← String.toList_inj,
      String.toList_ofList]
  unfold braceCandidate FirstBlock
  constructor
  · intro h
    have hsplit := List.takeWhile_append_dropWhile 
      (p := fun c => decide (c ≠ '{')) (l := text.toList)
    cases hdrop : text.toList.dropWhile (· ≠ '{') with
    | nil =>
      rw [hdrop] at h
      cases h
    | cons c rest =>
      have hc : c = '{' := by
        have hhead := List.head?_dropWhile_not (fun c => decide (c ≠ '{')) text.toList
        rw [hdrop] at hhead
        simpa using hhead
      rw [hc] at hdrop
      rw [hdrop] at h hsplit
      obtain ⟨part, hzero, hblock⟩ := (hloop rest).mp h
      obtain ⟨after, hafter⟩ := hzero.isPrefix
      refine ⟨text.toList.takeWhile (· ≠ '{'), after, ?_, ?_, ?_⟩
      · rw [← hblock, List.cons_append, hafter]
        exact hsplit.symm
      · intro hmem
        have hne := List.mem_takeWhile_imp hmem
        exact absurd rfl (of_decide_eq_true hne)
      · rw [← hblock, braceBlock_cons_iff]
        exact ⟨List.prefix_rfl, hzero.inside, hzero.whole⟩
  · intro h
    obtain ⟨before, after, htext, hbefore, hblock⟩ := h
    obtain ⟨rest, hrest⟩ := List.head?_eq_some_iff.mp hblock.opens
    rw [hrest] at hblock htext
    have hzero := braceBlock_cons_iff.mp hblock
    have hdrop : text.toList.dropWhile (· ≠ '{') = '{' :: (rest ++ after) := by
      rw [htext, List.dropWhile_append_of_pos]
      · rfl
      · intro c hc
        rw [decide_eq_true_eq]
        exact fun heq => hbefore (heq ▸ hc)
    rw [hdrop, hloop]
    exact ⟨rest, ⟨List.prefix_append _ _, hzero.inside, hzero.whole⟩, hrest.symm⟩

end GuidancePlugin

/-! ## Objects without braces in their strings -/

/-- A text that closes the braces it opens and no others. -/
structure Balanced (text : List Char) : Prop where
  inside : ∀ part, part <+: text → 0 ≤ braceDepth part
  whole : braceDepth text = 0

theorem balanced_nil : Balanced [] := by
  refine ⟨?_, rfl⟩
  intro part hpart
  rw [List.prefix_nil.mp hpart, braceDepth_nil]

theorem balanced_append {u v : List Char} (hu : Balanced u) (hv : Balanced v) :
    Balanced (u ++ v) := by
  constructor
  · intro part hpart
    obtain ⟨rest, hrest⟩ := hpart
    obtain ⟨more, hmore, -⟩ | ⟨more, hmore, hafter⟩ := List.append_eq_append_iff.mp hrest
    · exact hu.inside part ⟨more, hmore.symm⟩
    · have hdeep := hv.inside more ⟨rest, hafter.symm⟩
      rw [hmore, braceDepth_append, hu.whole]
      omega
  · rw [braceDepth_append, hu.whole, hv.whole]
    rfl

theorem balanced_of_no_braces {text : List Char} (hopen : '{' ∉ text) (hclose : '}' ∉ text) :
    Balanced text := by
  have hzero : ∀ part, part <+: text → braceDepth part = 0 := by
    intro part hpart
    rw [braceDepth, List.count_eq_zero_of_not_mem fun hmem => hopen (hpart.subset hmem),
      List.count_eq_zero_of_not_mem fun hmem => hclose (hpart.subset hmem)]
    rfl
  exact ⟨fun part hpart => (hzero part hpart).ge, hzero text List.prefix_rfl⟩

/-- Braces around a balanced text make a block. -/
theorem braceBlock_of_balanced {text : List Char} (h : Balanced text) :
    BraceBlock ('{' :: text ++ ['}']) := by
  have hclose : braceDepth ['}'] = -1 := rfl
  rw [List.cons_append, braceBlock_cons_iff]
  refine ⟨List.prefix_rfl, ?_, ?_⟩
  · intro shorter hshorter hne
    obtain hall | hpart := List.prefix_concat_iff.mp hshorter
    · exact absurd hall hne
    · have hdeep := h.inside shorter hpart
      omega
  · rw [braceDepth_append, h.whole, hclose]
    rfl

theorem BraceBlock.balanced {text : List Char} (h : BraceBlock text) : Balanced text := by
  refine ⟨?_, h.whole⟩
  intro part hpart
  by_cases hnil : part = []
  · rw [hnil, braceDepth_nil]
  · by_cases hall : part = text
    · rw [hall, h.whole]
    · exact (h.inside part hpart hnil hall).le

/-- A text without braces. -/
def NoBraces (text : String) : Prop := '{' ∉ text.toList ∧ '}' ∉ text.toList

theorem plainChar_open : PlainChar '{' :=
  ⟨by decide, by decide, rfl, rfl, rfl, fun state => by cases state <;> rfl⟩

theorem plainChar_close : PlainChar '}' :=
  ⟨by decide, by decide, rfl, rfl, rfl, fun state => by cases state <;> rfl⟩

theorem balanced_quote {text : String} (h : NoBraces text) : Balanced (quote text) := by
  have hnot : ∀ {d : Char}, PlainChar d → d ≠ '"' → d ∉ text.toList → d ∉ quote text := by
    intro d hd hquote htext hmem
    simp only [quote, List.mem_append, List.mem_cons, List.mem_flatMap, List.not_mem_nil,
      hquote, false_or, or_false] at hmem
    obtain ⟨c, hc, hescape⟩ := hmem
    have hne : c ≠ d := fun heq => htext (heq ▸ hc)
    exact hd.not_mem_escapeChar hne hescape
  exact balanced_of_no_braces (hnot plainChar_open (by decide) h.1)
    (hnot plainChar_close (by decide) h.2)

variable {F : JsonFloats}

theorem balanced_dumpItems {items : List Json}
    (h : ∀ item ∈ items, Balanced (dumpValue F item)) : Balanced (dumpItems F items) := by
  induction items with
  | nil => exact balanced_nil
  | cons item items ih =>
    obtain ⟨hitem, hitems⟩ := List.forall_mem_cons.mp h
    have hcomma : Balanced [',', ' '] := balanced_of_no_braces (by decide) (by decide)
    exact balanced_append (balanced_append hcomma hitem) (ih hitems)

theorem balanced_dumpFields {fields : List (String × Json)}
    (hkeys : ∀ field ∈ fields, NoBraces field.1)
    (h : ∀ field ∈ fields, Balanced (dumpValue F field.2)) : Balanced (dumpFields F fields) := by
  induction fields with
  | nil => exact balanced_nil
  | cons field fields ih =>
    obtain ⟨hkey, hkeys⟩ := List.forall_mem_cons.mp hkeys
    obtain ⟨hfield, hfields⟩ := List.forall_mem_cons.mp h
    have hcomma : Balanced [',', ' '] := balanced_of_no_braces (by decide) (by decide)
    have hcolon : Balanced [':', ' '] := balanced_of_no_braces (by decide) (by decide)
    exact balanced_append (balanced_append (balanced_append (balanced_append hcomma
      (balanced_quote hkey)) hcolon) hfield) (ih hkeys hfields)

/-- The text of an object with balanced values. -/
theorem braceBlock_dumpFields {fields : List (String × Json)}
    (hkeys : ∀ field ∈ fields, NoBraces field.1)
    (h : ∀ field ∈ fields, Balanced (dumpValue F field.2)) :
    BraceBlock (dumpValue F (.obj fields)) := by
  cases fields with
  | nil => exact braceBlock_of_balanced balanced_nil
  | cons field fields =>
    obtain ⟨hkey, hkeys⟩ := List.forall_mem_cons.mp hkeys
    obtain ⟨hfield, hfields⟩ := List.forall_mem_cons.mp h
    have hcolon : Balanced [':', ' '] := balanced_of_no_braces (by decide) (by decide)
    exact braceBlock_of_balanced (balanced_append (balanced_append (balanced_append
      (balanced_quote hkey) hcolon) hfield) (balanced_dumpFields hkeys hfields))

theorem balanced_dumpValue {value : Json} (h : F.Printable value)
    (htexts : EachText NoBraces value) : Balanced (dumpValue F value) := by
  induction h with
  | null =>
    show Balanced "null".toList
    exact balanced_of_no_braces (by decide) (by decide)
  | bool value =>
    have hwords : Balanced "true".toList ∧ Balanced "false".toList :=
      ⟨balanced_of_no_braces (by decide) (by decide), balanced_of_no_braces (by decide) (by decide)⟩
    cases value with
    | true => exact hwords.1
    | false => exact hwords.2
  | int value short =>
    exact balanced_of_no_braces (plainChar_open.not_mem_int (.int value short))
      (plainChar_close.not_mem_int (.int value short))
  | float value float =>
    exact balanced_of_no_braces (plainChar_open.not_mem_float (.float value float) (by decide))
      (plainChar_close.not_mem_float (.float value float) (by decide))
  | str value =>
    cases htexts with
    | str _ text => exact balanced_quote text
  | arr items _ ih =>
    cases htexts with
    | arr _ each =>
      have hopen : Balanced ['['] := balanced_of_no_braces (by decide) (by decide)
      have hclose : Balanced [']'] := balanced_of_no_braces (by decide) (by decide)
      cases items with
      | nil => exact balanced_append hopen hclose
      | cons item items =>
        obtain ⟨hitem, hitems⟩ := List.forall_mem_cons.mp fun item hmem =>
          ih item hmem (each item hmem)
        exact balanced_append (balanced_append (balanced_append hopen hitem)
          (balanced_dumpItems hitems)) hclose
  | obj fields _ _ ih =>
    cases htexts with
    | obj _ keys each =>
      exact (braceBlock_dumpFields keys fun field hmem => ih field hmem (each field hmem)).balanced

/-- An object without braces in its strings is printed as one block. -/
theorem braceBlock_dumps {fields : List (String × Json)} (h : F.Printable (.obj fields))
    (htexts : EachText NoBraces (.obj fields)) : BraceBlock (dumps F (.obj fields)).toList := by
  rw [dumps, String.toList_ofList]
  cases h with
  | obj _ _ each =>
    cases htexts with
    | obj _ keys texts =>
      exact braceBlock_dumpFields keys fun field hmem =>
        balanced_dumpValue (each field hmem) (texts field hmem)

end VirtualContributor.Plugins
