import VirtualContributor.Lib.JsonRoundTrip

/-!
# The characters of JSON texts

Printing a value writes a character that is no part of escapes and numbers
(`PlainChar`) only where a string of the value has it.
-/

namespace VirtualContributor.Lib

/-- All keys and strings of a value have a property. -/
inductive EachText (P : String → Prop) : Json → Prop
  | null : EachText P .null
  | bool (value : Bool) : EachText P (.bool value)
  | int (value : Int) : EachText P (.int value)
  | float (value : JsonFloat) : EachText P (.float value)
  | str (value : String) (text : P value) : EachText P (.str value)
  | arr (items : List Json) (each : ∀ item ∈ items, EachText P item) : EachText P (.arr items)
  | obj (fields : List (String × Json)) (keys : ∀ field ∈ fields, P field.1)
    (each : ∀ field ∈ fields, EachText P field.2) : EachText P (.obj fields)

/-- A character that no escape and no number contains. -/
structure PlainChar (c : Char) : Prop where
  notSlash : c ≠ '\\'
  notUnicode : c ≠ 'u'
  notHex : hexDigit? c = none
  notEscape : escaped? c = none
  notStart : NumberState.start c = none
  notNumber : ∀ state : NumberState, state.step c = none

namespace PlainChar

variable {d : Char}

theorem not_mem_unitText (hd : PlainChar d) (n : Nat) : d ∉ unitText n := by
  have hdigit : ∀ m, d ≠ (m % 16).digitChar := by
    intro m heq
    have hhex := hexDigit?_digitChar (m % 16) (Nat.mod_lt m (by decide))
    rw [← heq, hd.notHex] at hhex
    cases hhex
  simp [unitText, hdigit, hd.notSlash, hd.notUnicode]

/-- The escape of a character has no other character. -/
theorem not_mem_escapeChar (hd : PlainChar d) {c : Char} (hc : c ≠ d) : d ∉ escapeChar c := by
  unfold escapeChar
  split
  · next letter hletter =>
    have hne : d ≠ letter := by
      intro heq
      have hescaped := (escaped?_shortEscape? hletter).2
      rw [← heq, hd.notEscape] at hescaped
      cases hescaped
    simp [hne, hd.notSlash]
  · split
    · simp [Ne.symm hc]
    · split
      · exact hd.not_mem_unitText _
      · rw [List.mem_append, not_or]
        exact ⟨hd.not_mem_unitText _, hd.not_mem_unitText _⟩

theorem not_mem_of_run (hd : PlainChar d) {text : List Char} {state : NumberState}
    (h : NumberState.run text = some state) : d ∉ text := by
  have hsteps : ∀ {rest : List Char} {first last : NumberState},
      rest.foldlM NumberState.step first = some last → d ∉ rest := by
    intro rest first last hrest
    induction rest generalizing first with
    | nil => exact List.not_mem_nil
    | cons c rest ih =>
      rw [List.foldlM_cons, Option.bind_eq_bind] at hrest
      obtain ⟨next, hnext, hmore⟩ := Option.bind_eq_some_iff.mp hrest
      rw [List.mem_cons, not_or]
      refine ⟨?_, ih hmore⟩
      intro heq
      rw [← heq, hd.notNumber] at hnext
      cases hnext
  cases text with
  | nil => cases h
  | cons c text =>
    obtain ⟨first, hfirst, htext⟩ := Option.bind_eq_some_iff.mp h
    rw [List.mem_cons, not_or]
    refine ⟨?_, hsteps htext⟩
    intro heq
    rw [← heq, hd.notStart] at hfirst
    cases hfirst

variable {F : JsonFloats}

theorem not_mem_int (hd : PlainChar d) {value : Int} (h : F.Printable (.int value)) :
    d ∉ dumpValue F (.int value) := by
  cases h with
  | int _ short =>
    obtain ⟨state, hrun, -⟩ := numberValue_int (F := F) short
    exact hd.not_mem_of_run hrun

theorem not_mem_float (hd : PlainChar d) {value : JsonFloat} (h : F.Printable (.float value))
    (hinf : d ∉ "-Infinity".toList) : d ∉ dumpValue F (.float value) := by
  cases h with
  | float _ float =>
    show d ∉ (F.repr value).toList
    obtain hpos | hneg | ⟨state, hrun, -⟩ := F.repr_literal value float
    · rw [hpos]
      exact fun hmem => hinf (List.mem_cons_of_mem _ hmem)
    · rw [hneg]
      exact hinf
    · exact hd.not_mem_of_run hrun

end PlainChar

/-- An escape is not empty. -/
theorem escapeChar_ne_nil (c : Char) : escapeChar c ≠ [] := by
  unfold escapeChar
  split
  · exact List.cons_ne_nil _ _
  · split
    · exact List.cons_ne_nil _ _
    · split <;> exact List.cons_ne_nil _ _

end VirtualContributor.Lib
