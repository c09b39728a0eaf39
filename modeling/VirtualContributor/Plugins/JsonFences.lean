import Mathlib.Data.List.Infix
import VirtualContributor.Lib.JsonCharacters
import VirtualContributor.Plugins.JsonSources

/-!
# Texts without a code fence

The pattern of a fence begins with three backticks, so it matches nowhere in a
text without them (`fenceGroup_of_noFence`).  Printing a value makes none that
was not in a string of it (`noFence_dumpValue`).
-/

namespace VirtualContributor.Plugins

open Lib

/-! ## Runs of backticks -/

/-- Three backticks in a row. -/
def fence : List Char := ['\x60', '\x60', '\x60']

def NoFence (text : List Char) : Prop := ¬ fence <:+: text

/-- A run of backticks ends at any other character. -/
theorem ticks_prefix_append {n : Nat} {u v : List Char} {c : Char} (hc : c ≠ '\x60')
    (h : List.replicate n '\x60' <+: u ++ c :: v) : List.replicate n '\x60' <+: u := by
  induction u generalizing n with
  | nil =>
    cases n with
    | zero => exact List.nil_prefix
    | succ n =>
      rw [List.replicate_succ, List.nil_append, List.cons_prefix_cons] at h
      exact absurd h.1.symm hc
  | cons d u ih =>
    cases n with
    | zero => exact List.nil_prefix
    | succ n =>
      rw [List.replicate_succ, List.cons_append, List.cons_prefix_cons] at h
      rw [List.replicate_succ, List.cons_prefix_cons]
      exact ⟨h.1, ih h.2⟩

theorem plainChar_tick : PlainChar '\x60' :=
  ⟨by decide, by decide, rfl, rfl, rfl, fun state => by cases state <;> rfl⟩

theorem noFence_nil : NoFence [] := by
  unfold NoFence
  decide

theorem noFence_cons {c : Char} (hc : c ≠ '\x60') {text : List Char} :
    NoFence (c :: text) ↔ NoFence text := by
  unfold NoFence
  rw [List.infix_cons_iff, fence, List.cons_prefix_cons]
  simp [Ne.symm hc]

theorem noFence_append_cons {c : Char} (hc : c ≠ '\x60') {u v : List Char} :
    NoFence (u ++ c :: v) ↔ NoFence u ∧ NoFence v := by
  induction u with
  | nil =>
    rw [List.nil_append, noFence_cons hc]
    simp [noFence_nil]
  | cons d u ih =>
    have hbegin : fence <+: d :: u ++ c :: v ↔ fence <+: d :: u :=
      ⟨ticks_prefix_append (n := 3) hc, fun h => h.trans (List.prefix_append _ _)⟩
    unfold NoFence at ih ⊢
    rw [List.cons_append, List.infix_cons_iff, not_or, ih, List.infix_cons_iff, not_or,
      ← List.cons_append, hbegin, and_assoc]

theorem noFence_append {u v : List Char} (hu : NoFence u) (hv : NoFence v)
    (hhead : v.head? ≠ some '\x60') : NoFence (u ++ v) := by
  cases v with
  | nil =>
    rw [List.append_nil]
    exact hu
  | cons c v =>
    have hc : c ≠ '\x60' := fun heq => hhead (by rw [heq]; rfl)
    rw [noFence_append_cons hc]
    exact ⟨hu, (noFence_cons hc).mp hv⟩

theorem noFence_append_of_not_mem {u v : List Char} (hu : '\x60' ∉ u) :
    NoFence (u ++ v) ↔ NoFence v := by
  induction u with
  | nil => rfl
  | cons c u ih =>
    rw [List.mem_cons, not_or] at hu
    rw [List.cons_append, noFence_cons (Ne.symm hu.1), ih hu.2]

theorem noFence_of_not_mem {text : List Char} (h : '\x60' ∉ text) : NoFence text := by
  rw [← List.append_nil text, noFence_append_of_not_mem h]
  exact noFence_nil

/-! ## The pattern of a fence -/

namespace GuidancePlugin

/-- Where the pattern of a fence matches there are three backticks. -/
theorem fenceGroup_of_noFence {text : String} (h : NoFence text.toList) :
    fenceGroup text = none := by
  rw [← Option.not_isSome_iff_eq_none]
  intro hsome
  obtain ⟨group, hgroup⟩ := Option.isSome_iff_exists.mp hsome
  obtain ⟨spot, hspot, begun, hbegun⟩ := Regex.exists_opening_of_capture hgroup
  obtain ⟨word, hword, hreads⟩ := (Regex.ends_iff (by decide)).mp hbegun
  -- the pattern begins with the three backticks
  have hticks : fence <+: word := by
    obtain ⟨u, hu, v, -, huv⟩ := Language.mem_mul.mp hword
    obtain ⟨u₁, hu₁, v₁, -, huv₁⟩ := Language.mem_mul.mp hu
    obtain ⟨u₂, hu₂, v₂, -, huv₂⟩ := Language.mem_mul.mp hu₁
    have hspelled := Regex.mem_language_spelled.mp hu₂
    have heq : fence = u₂ := by
      rw [← List.forall₂_eq_eq_eq]
      exact hspelled.imp fun _ _ hsame => eq_of_beq hsame
    rw [heq, ← huv, ← huv₁, ← huv₂, List.append_assoc, List.append_assoc]
    exact List.prefix_append _ _
  apply h
  have hrest : word <+: spot.rest := ⟨begun.rest, hreads.1.symm⟩
  exact (hticks.trans hrest).isInfix.trans (Regex.rest_of_mem_spots hspot).isInfix

end GuidancePlugin

/-! ## The texts of values -/

/-- Escaping lengthens no run of backticks. -/
theorem ticks_prefix_escape {n : Nat} {text : List Char}
    (h : List.replicate n '\x60' <+: text.flatMap escapeChar) :
    List.replicate n '\x60' <+: text := by
  induction text generalizing n with
  | nil => exact h
  | cons c text ih =>
    cases n with
    | zero => exact List.nil_prefix
    | succ n =>
      rw [List.replicate_succ, List.flatMap_cons] at h
      rw [List.replicate_succ, List.cons_prefix_cons]
      by_cases hc : c = '\x60'
      · rw [hc] at h ⊢
        have htail : List.replicate n '\x60' <+: text.flatMap escapeChar :=
          (List.cons_prefix_cons.mp h).2
        exact ⟨rfl, ih htail⟩
      · exfalso
        have hmem := plainChar_tick.not_mem_escapeChar hc
        cases hescape : escapeChar c with
        | nil => exact escapeChar_ne_nil c hescape
        | cons d rest =>
          rw [hescape, List.cons_append, List.cons_prefix_cons] at h
          rw [hescape, ← h.1] at hmem
          exact hmem List.mem_cons_self

theorem noFence_escape {text : List Char} (h : NoFence text) :
    NoFence (text.flatMap escapeChar) := by
  induction text with
  | nil => exact h
  | cons c text ih =>
    have htext : NoFence text := fun hin => h (hin.trans (List.suffix_cons c text).isInfix)
    by_cases hc : c = '\x60'
    · rw [hc] at h ⊢
      intro hin
      obtain hbegin | hin := List.infix_cons_iff.mp hin
      · have hticks : List.replicate 3 '\x60' <+: ('\x60' :: text).flatMap escapeChar := hbegin
        exact h (ticks_prefix_escape hticks).isInfix
      · exact ih htext hin
    · rw [List.flatMap_cons, noFence_append_of_not_mem (plainChar_tick.not_mem_escapeChar hc)]
      exact ih htext

theorem noFence_quote {text : String} (h : NoFence text.toList) : NoFence (quote text) := by
  unfold quote
  rw [noFence_append_cons (by decide), noFence_cons (by decide)]
  exact ⟨noFence_escape h, noFence_nil⟩

variable {F : JsonFloats}

theorem noFence_dumpItems {items : List Json} (h : ∀ item ∈ items, NoFence (dumpValue F item)) :
    NoFence (dumpItems F items) ∧ (dumpItems F items).head? ≠ some '\x60' := by
  induction items with
  | nil => exact ⟨noFence_nil, nofun⟩
  | cons item items ih =>
    obtain ⟨hitem, hitems⟩ := List.forall_mem_cons.mp h
    refine ⟨?_, nofun⟩
    show NoFence (',' :: ' ' :: (dumpValue F item ++ dumpItems F items))
    rw [noFence_cons (by decide), noFence_cons (by decide)]
    exact noFence_append hitem (ih hitems).1 (ih hitems).2

theorem noFence_field {field : String × Json} {fields : List (String × Json)}
    (hkey : NoFence field.1.toList) (hvalue : NoFence (dumpValue F field.2))
    (hfields : NoFence (dumpFields F fields)) (hhead : (dumpFields F fields).head? ≠ some '\x60') :
    NoFence (quote field.1 ++ [':', ' '] ++ dumpValue F field.2 ++ dumpFields F fields) := by
  apply noFence_append _ hfields hhead
  rw [List.append_assoc]
  show NoFence (quote field.1 ++ ':' :: ' ' :: dumpValue F field.2)
  rw [noFence_append_cons (by decide), noFence_cons (by decide)]
  exact ⟨noFence_quote hkey, hvalue⟩

theorem noFence_dumpFields {fields : List (String × Json)}
    (hkeys : ∀ field ∈ fields, NoFence field.1.toList)
    (h : ∀ field ∈ fields, NoFence (dumpValue F field.2)) :
    NoFence (dumpFields F fields) ∧ (dumpFields F fields).head? ≠ some '\x60' := by
  induction fields with
  | nil => exact ⟨noFence_nil, nofun⟩
  | cons field fields ih =>
    obtain ⟨hkey, hkeys⟩ := List.forall_mem_cons.mp hkeys
    obtain ⟨hfield, hfields⟩ := List.forall_mem_cons.mp h
    refine ⟨?_, nofun⟩
    show NoFence (',' :: ' ' ::
      (quote field.1 ++ [':', ' '] ++ dumpValue F field.2 ++ dumpFields F fields))
    rw [noFence_cons (by decide), noFence_cons (by decide)]
    exact noFence_field hkey hfield (ih hkeys hfields).1 (ih hkeys hfields).2

/-- A value whose strings have no fence is printed without one. -/
theorem noFence_dumpValue {value : Json} (h : F.Printable value)
    (htexts : EachText (fun text => NoFence text.toList) value) :
    NoFence (dumpValue F value) := by
  induction h with
  | null =>
    show NoFence "null".toList
    exact noFence_of_not_mem (by decide)
  | bool value =>
    have hwords : NoFence "true".toList ∧ NoFence "false".toList :=
      ⟨noFence_of_not_mem (by decide), noFence_of_not_mem (by decide)⟩
    cases value with
    | true => exact hwords.1
    | false => exact hwords.2
  | int value short => exact noFence_of_not_mem (plainChar_tick.not_mem_int (.int value short))
  | float value float =>
    exact noFence_of_not_mem (plainChar_tick.not_mem_float (.float value float) (by decide))
  | str value =>
    cases htexts with
    | str _ text => exact noFence_quote text
  | arr items _ ih =>
    cases htexts with
    | arr _ each =>
      cases items with
      | nil =>
        show NoFence ['[', ']']
        exact noFence_of_not_mem (by decide)
      | cons item items =>
        obtain ⟨hitem, hitems⟩ := List.forall_mem_cons.mp fun item hmem =>
          ih item hmem (each item hmem)
        obtain ⟨hmore, hhead⟩ := noFence_dumpItems hitems
        rw [dumpValue, noFence_append_cons (by decide), List.cons_append,
          noFence_cons (by decide)]
        exact ⟨noFence_append hitem hmore hhead, noFence_nil⟩
  | obj fields _ _ ih =>
    cases htexts with
    | obj _ keys each =>
      cases fields with
      | nil =>
        show NoFence ['{', '}']
        exact noFence_of_not_mem (by decide)
      | cons field fields =>
        obtain ⟨hkey, hkeys⟩ := List.forall_mem_cons.mp keys
        obtain ⟨hfield, hfields⟩ := List.forall_mem_cons.mp fun field hmem =>
          ih field hmem (each field hmem)
        obtain ⟨hmore, hhead⟩ := noFence_dumpFields hkeys hfields
        show NoFence ('{' :: (quote field.1 ++ [':', ' '] ++ dumpValue F field.2 ++
          dumpFields F fields) ++ ['}'])
        rw [noFence_append_cons (by decide), noFence_cons (by decide)]
        exact ⟨noFence_field hkey hfield hmore hhead, noFence_nil⟩

end VirtualContributor.Plugins
