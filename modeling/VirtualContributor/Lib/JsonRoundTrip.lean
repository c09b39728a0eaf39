import Mathlib.Data.List.TakeWhile
import VirtualContributor.Lib.JsonText

/-!
# Printing a JSON value and reading it again

`run_dumpValue` follows a scan through the text of a value: it comes out as if
the value had been put where it belongs.  An object needs nothing behind it, so
`loads_dumps` reads what `dumps` has printed.
-/

namespace VirtualContributor.Lib

/-- The values that `dumps` prints: the floats are floats, no integer has too
many digits, and the keys of an object differ. -/
inductive JsonFloats.Printable (F : JsonFloats) : Json → Prop
  | null : F.Printable .null
  | bool (value : Bool) : F.Printable (.bool value)
  | int (value : Int) (short : (Nat.toDigits 10 value.natAbs).length ≤ MAX_STR_DIGITS) :
    F.Printable (.int value)
  | float (value : JsonFloat) (float : F.isFloat value = true) : F.Printable (.float value)
  | str (value : String) : F.Printable (.str value)
  | arr (items : List Json) (each : ∀ item ∈ items, F.Printable item) : F.Printable (.arr items)
  | obj (fields : List (String × Json)) (keys : (fields.map Prod.fst).Nodup)
    (each : ∀ field ∈ fields, F.Printable field.2) : F.Printable (.obj fields)

variable {F : JsonFloats}

/-! ## Steps and runs -/

@[simp] theorem Scan.run_nil (scan : Scan) : scan.run F [] = .ok scan := rfl

theorem Scan.run_cons (scan : Scan) (c : Char) (text : List Char) :
    scan.run F (c :: text) = (scan.step F c).bind fun next => next.run F text := by
  unfold Scan.run
  rw [List.foldlM_cons]
  rfl

theorem Scan.run_append (scan : Scan) (u v : List Char) :
    scan.run F (u ++ v) = (scan.run F u).bind fun next => next.run F v := by
  unfold Scan.run
  rw [List.foldlM_append]
  rfl

theorem Scan.run_cons_of_step {scan next : Scan} {c : Char} (h : scan.step F c = .ok next)
    (text : List Char) : scan.run F (c :: text) = next.run F text := by
  rw [run_cons, h]
  rfl

theorem Scan.run_append_of_run {scan next : Scan} {u : List Char} (h : scan.run F u = .ok next)
    (v : List Char) : scan.run F (u ++ v) = next.run F v := by
  rw [run_append, h]
  rfl

theorem Scan.run_singleton (scan : Scan) (c : Char) : scan.run F [c] = scan.step F c := by
  rw [run_cons]
  cases scan.step F c <;> rfl

/-- The modes in which a value may begin. -/
def Mode.Begins (mode : Mode) : Prop := mode = .value ∨ mode = .firstItem

theorem Scan.step_begins {mode : Mode} (h : mode.Begins) {frames : List Frame} {c : Char}
    (hspace : isJsonSpace c = false) (hclose : c ≠ ']') :
    (Scan.reading mode frames).step F c = beginValue F frames c := by
  cases h with
  | inl h => simp [h, step, hspace]
  | inr h => simp [h, step, hspace, hclose]

/-! ## Numbers -/

theorem Scan.run_number {text rest : List Char} {state last : NumberState} {frames : List Frame}
    (h : rest.foldlM NumberState.step state = some last) :
    (Scan.reading (.number text state) frames).run F rest =
      .ok (.reading (.number (text ++ rest) last) frames) := by
  induction rest generalizing text state with
  | nil =>
    obtain rfl : state = last := Option.some.inj h
    rw [List.append_nil, run_nil]
  | cons c rest ih =>
    rw [List.foldlM_cons, Option.bind_eq_bind] at h
    obtain ⟨next, hnext, hrest⟩ := Option.bind_eq_some_iff.mp h
    have hstep : (Scan.reading (.number text state) frames).step F c =
        .ok (.reading (.number (text ++ [c]) next) frames) := by
      simp only [step, hnext]
    rw [run_cons_of_step hstep, ih hrest, List.append_assoc, List.singleton_append]

/-- The characters that follow an item or a field. -/
def IsSeparator (c : Char) : Prop := c = ',' ∨ c = ']' ∨ c = '}'

theorem NumberState.step_separator {c : Char} (h : IsSeparator c) (state : NumberState) :
    state.step c = none := by
  obtain rfl | rfl | rfl := h <;> cases state <;> rfl

/-- A separator ends a number. -/
theorem Scan.step_number {c : Char} (hc : IsSeparator c) {text : List Char} {state : NumberState}
    {frames after : List Frame} {value : Json} (hvalue : numberValue F text state = .ok value)
    (hframes : complete value frames = .ok (.reading .after after)) :
    (Scan.reading (.number text state) frames).step F c = (Scan.reading .after after).step F c := by
  have hI : c ≠ 'I' := by
    obtain rfl | rfl | rfl := hc <;> decide
  cases frames with
  | nil => exact absurd hframes (by simp [complete])
  | cons frame frames =>
    simp only [step, NumberState.step_separator hc, hI, hvalue]
    simp [bind, Except.bind, hframes]

/-! ### The texts of integers -/

theorem NumberState.foldlM_int {digits : List Char} (h : ∀ c ∈ digits, c.isDigit = true) :
    digits.foldlM NumberState.step .int = some .int := by
  induction digits with
  | nil => rfl
  | cons c digits ih =>
    obtain ⟨hc, hdigits⟩ := List.forall_mem_cons.mp h
    rw [List.foldlM_cons]
    simp only [step, hc, if_true]
    exact ih hdigits

/-- Decimal digits are a `0` or do not begin with one. -/
theorem toDigits_cases (n : Nat) :
    Nat.toDigits 10 n = ['0'] ∨
      ∃ c digits, Nat.toDigits 10 n = c :: digits ∧ c ≠ '0' ∧
        ∀ d ∈ c :: digits, d.isDigit = true := by
  induction n using Nat.strongRecOn with
  | ind n ih =>
    have hall : ∀ d ∈ Nat.toDigits 10 n, d.isDigit = true := fun d hd =>
      Nat.isDigit_of_mem_toDigits (by decide) (by decide) hd
    by_cases hzero : n = 0
    · exact .inl (by rw [hzero]; rfl)
    · right
      by_cases hsmall : n < 10
      · rw [Nat.toDigits_of_lt_base hsmall] at hall ⊢
        refine ⟨n.digitChar, [], rfl, ?_, hall⟩
        rw [Ne, Nat.digitChar_eq_zero]
        exact hzero
      · have hsplit : Nat.toDigits 10 n = Nat.toDigits 10 (n / 10) ++ [(n % 10).digitChar] := by
          have happend := Nat.toDigits_append_toDigits (b := 10) (n := n / 10) (d := n % 10)
            (by decide) (by omega) (by omega)
          rw [Nat.toDigits_of_lt_base (by omega : n % 10 < 10)] at happend
          rw [happend, Nat.div_add_mod]
        cases ih (n / 10) (by omega) with
        | inl hone =>
          have hvalue := Nat.ofDigitChars_ten_toDigits (n := n / 10)
          rw [hone] at hvalue
          have : n / 10 = 0 := hvalue.symm
          omega
        | inr hmore =>
          obtain ⟨c, digits, hdigits, hc, -⟩ := hmore
          rw [hdigits] at hsplit
          refine ⟨c, digits ++ [(n % 10).digitChar], hsplit, hc, ?_⟩
          rw [← List.cons_append, ← hsplit]
          exact hall

/-- Decimal digits are the text of an integer. -/
theorem NumberState.run_toDigits (n : Nat) :
    ∃ state, run (Nat.toDigits 10 n) = some state ∧ state.isInt = true := by
  cases toDigits_cases n with
  | inl h => exact ⟨.zero, by rw [h]; rfl, rfl⟩
  | inr h =>
    obtain ⟨c, digits, hdigits, hzero, hall⟩ := h
    obtain ⟨hc, hrest⟩ := List.forall_mem_cons.mp hall
    have hminus : c ≠ '-' := by
      rintro rfl
      exact absurd hc (by decide)
    have hstart : start c = some .int := by
      simp [start, hminus, hzero, hc]
    refine ⟨.int, ?_, rfl⟩
    rw [hdigits]
    show (start c).bind _ = _
    rw [hstart]
    exact foldlM_int hrest

/-- The same behind a minus sign. -/
theorem NumberState.run_minus_toDigits (n : Nat) :
    ∃ state, run ('-' :: Nat.toDigits 10 n) = some state ∧ state.isInt = true := by
  cases toDigits_cases n with
  | inl h => exact ⟨.zero, by rw [h]; rfl, rfl⟩
  | inr h =>
    obtain ⟨c, digits, hdigits, hzero, hall⟩ := h
    obtain ⟨hc, hrest⟩ := List.forall_mem_cons.mp hall
    refine ⟨.int, ?_, rfl⟩
    rw [hdigits]
    show (c :: digits).foldlM step .minus = _
    have hstep : step .minus c = some .int := by
      simp [step, hzero, hc]
    rw [List.foldlM_cons, hstep]
    exact foldlM_int hrest

theorem toList_intText (value : Int) :
    (toString value).toList =
      if 0 ≤ value then Nat.toDigits 10 value.natAbs else '-' :: Nat.toDigits 10 value.natAbs := by
  rw [Int.toString_eq_repr, Int.repr_eq_if]
  split
  · have habs : value.toNat = value.natAbs := by omega
    rw [Nat.toList_repr, habs]
  · rw [String.toList_append, Nat.toList_repr]
    have habs : (-value).toNat = value.natAbs := by omega
    rw [habs]
    rfl

theorem intDigits_toDigits (n : Nat) : intDigits (Nat.toDigits 10 n) = Nat.toDigits 10 n := by
  have hall : ∀ c ∈ Nat.toDigits 10 n, c.isDigit = true := fun c hc =>
    Nat.isDigit_of_mem_toDigits (by decide) (by decide) hc
  unfold intDigits
  rw [List.dropWhile_eq_self_iff.mpr, List.takeWhile_eq_self_iff.mpr hall]
  intro hpos hminus
  have hdigit := hall _ (List.getElem_mem hpos)
  rw [of_decide_eq_true hminus] at hdigit
  exact absurd hdigit (by decide)

/-- What a reader makes of the text of an integer. -/
theorem numberValue_int {value : Int}
    (h : (Nat.toDigits 10 value.natAbs).length ≤ MAX_STR_DIGITS) :
    ∃ state, NumberState.run (toString value).toList = some state ∧
      numberValue F (toString value).toList state = .ok (.int value) := by
  have hread : ∀ text, intDigits text = Nat.toDigits 10 value.natAbs → '.' ∉ text →
      intOf text = value → ∀ state : NumberState, state.isInt = true →
      numberValue F text state = .ok (.int value) := by
    intro text hdigits hpoint hint state hstate
    have hfloat : state.isFloat = false := by
      cases state <;> simp_all [NumberState.isInt, NumberState.isFloat]
    simp [numberValue, hfloat, hpoint, hdigits, h, hstate, hint]
  have hpoint : '.' ∉ Nat.toDigits 10 value.natAbs := by
    intro hmem
    exact absurd (Nat.isDigit_of_mem_toDigits (by decide) (by decide) hmem) (by decide)
  rw [toList_intText]
  split
  · obtain ⟨state, hrun, hstate⟩ := NumberState.run_toDigits value.natAbs
    refine ⟨state, hrun, hread _ (intDigits_toDigits _) hpoint ?_ state hstate⟩
    rw [intOf, Nat.ofDigitChars_ten_toDigits]
    · show (value.natAbs : Int) = value
      omega
    · intro digits hdigits
      have hmem : '-' ∈ Nat.toDigits 10 value.natAbs := by
        rw [hdigits]
        exact List.mem_cons_self
      exact absurd (Nat.isDigit_of_mem_toDigits (by decide) (by decide) hmem) (by decide)
  · obtain ⟨state, hrun, hstate⟩ := NumberState.run_minus_toDigits value.natAbs
    refine ⟨state, hrun, hread _ ?_ ?_ ?_ state hstate⟩
    · exact intDigits_toDigits value.natAbs
    · rw [List.mem_cons]
      exact not_or.mpr ⟨by decide, hpoint⟩
    · rw [intOf, Nat.ofDigitChars_ten_toDigits]
      show -(value.natAbs : Int) = value
      omega

/-! ## Strings -/

theorem hexDigit?_digitChar : ∀ n < 16, hexDigit? n.digitChar = some n := by decide

theorem isValidChar_toNat (c : Char) : c.toNat.isValidChar := c.valid

theorem charOf_toNat (c : Char) : charOf c.toNat = c := by
  rw [charOf, if_pos (isValidChar_toNat c), Char.ofNat_toNat]

theorem textOf_toNat (text : String) : textOf (text.toList.map Char.toNat) = text := by
  rw [textOf, List.map_map]
  have hid : charOf ∘ Char.toNat = id := funext charOf_toNat
  rw [hid, List.map_id, String.ofList_toList]

/-- The escape of a code point. -/
theorem Scan.run_unitText {isKey : Bool} {units : List Nat} {frames : List Frame} {n : Nat}
    (hn : n < 65536) :
    (Scan.reading (.string isKey units .plain) frames).run F (unitText n) =
      .ok (.reading (.string isKey (addUnit units n) .plain) frames) := by
  have hdigit : ∀ m, hexDigit? (m % 16).digitChar = some (m % 16) := fun m =>
    hexDigit?_digitChar (m % 16) (Nat.mod_lt m (by decide))
  have hsum : 16 * (16 * (16 * (n / 4096 % 16) + n / 256 % 16) + n / 16 % 16) + n % 16 = n := by
    omega
  simp [unitText, run_cons, step, stepString, hdigit, Except.bind, hsum]

theorem addUnit_of_not_low {n : Nat} (h : isLowSurrogate n = false) (units : List Nat) :
    addUnit units n = units ++ [n] := by
  unfold addUnit
  split
  · rfl
  · simp [h]

/-- The two halves of a code point beyond the first plane. -/
theorem addUnit_pair {n : Nat} (hlarge : 65536 ≤ n) (hn : n < 1114112) (units : List Nat) :
    addUnit (addUnit units (0xd800 + (n - 0x10000) / 0x400)) (0xdc00 + (n - 0x10000) % 0x400) =
      units ++ [n] := by
  have hnotLow : isLowSurrogate (0xd800 + (n - 0x10000) / 0x400) = false := by
    simp [isLowSurrogate]
    omega
  have hhigh : isHighSurrogate (0xd800 + (n - 0x10000) / 0x400) = true := by
    simp [isHighSurrogate]
    omega
  have hlow : isLowSurrogate (0xdc00 + (n - 0x10000) % 0x400) = true := by
    simp [isLowSurrogate]
    omega
  have hsum : 0x10000 + (0xd800 + (n - 0x10000) / 0x400 - 0xd800) * 0x400 +
      (0xdc00 + (n - 0x10000) % 0x400 - 0xdc00) = n := by
    omega
  rw [addUnit_of_not_low hnotLow]
  unfold addUnit
  rw [List.getLast?_concat]
  simp only [hhigh, hlow, Bool.and_self, if_true, List.dropLast_concat]
  rw [hsum]

theorem escaped?_shortEscape? {c letter : Char} (h : shortEscape? c = some letter) :
    letter ≠ 'u' ∧ escaped? letter = some c.toNat := by
  unfold shortEscape? at h
  split at h <;> first | (cases h; decide) | cases h

theorem isLowSurrogate_toNat (c : Char) : isLowSurrogate c.toNat = false := by
  have hvalid := isValidChar_toNat c
  unfold Nat.isValidChar at hvalid
  simp [isLowSurrogate]
  omega

/-- The escapes of the two halves of a code point beyond the first plane. -/
theorem Scan.run_unitTexts {isKey : Bool} {units : List Nat} {frames : List Frame} {n : Nat}
    (hlarge : 65536 ≤ n) (hn : n < 1114112) :
    (Scan.reading (.string isKey units .plain) frames).run F
      (unitText (0xd800 + (n - 0x10000) / 0x400) ++ unitText (0xdc00 + (n - 0x10000) % 0x400)) =
      .ok (.reading (.string isKey (units ++ [n]) .plain) frames) := by
  have hhigh : 0xd800 + (n - 0x10000) / 0x400 < 65536 := by omega
  have hlow : 0xdc00 + (n - 0x10000) % 0x400 < 65536 := by omega
  rw [run_append_of_run (run_unitText hhigh), run_unitText hlow, addUnit_pair hlarge hn]

/-- A character of a string. -/
theorem Scan.run_escapeChar (isKey : Bool) (units : List Nat) (frames : List Frame) (c : Char) :
    (Scan.reading (.string isKey units .plain) frames).run F (escapeChar c) =
      .ok (.reading (.string isKey (units ++ [c.toNat]) .plain) frames) := by
  unfold escapeChar
  split
  · next letter hletter =>
    obtain ⟨hu, hescaped⟩ := escaped?_shortEscape? hletter
    simp [run_cons, step, stepString, Except.bind, hu, hescaped]
  · next hnone =>
    split
    · next hascii =>
      have hquote : c ≠ '"' := by
        rintro rfl
        cases hnone
      have hslash : c ≠ '\\' := by
        rintro rfl
        cases hnone
      simp only [Bool.and_eq_true, decide_eq_true_eq] at hascii
      have hcontrol : ¬ c.toNat < 32 := by omega
      simp [run_cons, step, stepString, Except.bind, hquote, hslash, hcontrol]
    · split
      · next hsmall =>
        rw [run_unitText hsmall, addUnit_of_not_low (isLowSurrogate_toNat c)]
      · next hlarge =>
        have hmax : c.toNat < 1114112 := by
          have hvalid := isValidChar_toNat c
          unfold Nat.isValidChar at hvalid
          omega
        exact run_unitTexts (Nat.le_of_not_lt hlarge) hmax

/-- A string up to its closing quote. -/
theorem Scan.run_string (isKey : Bool) (units : List Nat) (frames : List Frame)
    (text : List Char) :
    (Scan.reading (.string isKey units .plain) frames).run F (text.flatMap escapeChar) =
      .ok (.reading (.string isKey (units ++ text.map Char.toNat) .plain) frames) := by
  induction text generalizing units with
  | nil => simp
  | cons c text ih =>
    rw [List.flatMap_cons, run_append_of_run (run_escapeChar isKey units frames c), ih,
      List.append_assoc, List.map_cons, List.singleton_append]

/-- A string with its closing quote. -/
theorem Scan.run_closedString (isKey : Bool) (frames : List Frame) (text : String) :
    (Scan.reading (.string isKey [] .plain) frames).run F
      (text.toList.flatMap escapeChar ++ ['"']) =
      endString isKey (text.toList.map Char.toNat) frames := by
  rw [run_append_of_run (run_string isKey [] frames text.toList), run_singleton]
  rfl

/-! ## Values -/

/-- A text that a scan reads as a value, with nothing behind it. -/
def Closed (F : JsonFloats) (text : List Char) (value : Json) : Prop :=
  ∀ mode frames, Mode.Begins mode → (Scan.reading mode frames).run F text = complete value frames

/-- A text that a scan reads as an item or a field. -/
def Delivers (F : JsonFloats) (text : List Char) (value : Json) : Prop :=
  ∀ mode frames after, Mode.Begins mode → complete value frames = .ok (.reading .after after) →
    ∀ c, IsSeparator c → ∀ rest,
      (Scan.reading mode frames).run F (text ++ c :: rest) =
        (Scan.reading .after after).run F (c :: rest)

theorem Closed.delivers {text : List Char} {value : Json} (h : Closed F text value) :
    Delivers F text value := by
  intro mode frames after hmode hframes c _ rest
  have hrun := h mode frames hmode
  rw [hframes] at hrun
  exact Scan.run_append_of_run hrun (c :: rest)

theorem NumberState.not_space_of_start {c : Char} {state : NumberState}
    (h : start c = some state) : isJsonSpace c = false ∧ c ≠ ']' := by
  constructor
  · rw [← Bool.not_eq_true]
    intro hspace
    simp only [isJsonSpace, Bool.or_eq_true, decide_eq_true_eq] at hspace
    obtain ((rfl | rfl) | rfl) | rfl := hspace <;> cases h
  · rintro rfl
    cases h

theorem beginValue_number {c : Char} {state : NumberState} (h : NumberState.start c = some state)
    (frames : List Frame) :
    beginValue F frames c = .ok (.reading (.number [c] state) frames) := by
  unfold beginValue
  split <;> first | (rw [h]) | cases h

/-- A number. -/
theorem delivers_number {text : List Char} {state : NumberState} {value : Json}
    (hrun : NumberState.run text = some state) (hvalue : numberValue F text state = .ok value) :
    Delivers F text value := by
  intro mode frames after hmode hframes c hc rest
  cases text with
  | nil => cases hrun
  | cons d text =>
    obtain ⟨first, hfirst, htext⟩ := Option.bind_eq_some_iff.mp hrun
    have hspace := NumberState.not_space_of_start hfirst
    have hstep : (Scan.reading mode frames).step F d =
        .ok (.reading (.number [d] first) frames) := by
      rw [Scan.step_begins hmode hspace.1 hspace.2, beginValue_number hfirst]
    rw [List.cons_append, Scan.run_cons_of_step hstep,
      Scan.run_append_of_run (Scan.run_number htext), Scan.run_cons, Scan.run_cons,
      List.singleton_append, Scan.step_number hc hvalue hframes]

theorem delivers_int {value : Int}
    (h : (Nat.toDigits 10 value.natAbs).length ≤ MAX_STR_DIGITS) :
    Delivers F (dumpValue F (.int value)) (.int value) := by
  obtain ⟨state, hrun, hvalue⟩ := numberValue_int (F := F) h
  exact delivers_number hrun hvalue

theorem Scan.run_literal {word : List Char} {value : Json} {frames : List Frame}
    (h : word ≠ []) :
    (Scan.reading (.literal word value) frames).run F word = complete value frames := by
  induction word with
  | nil => exact absurd rfl h
  | cons c word ih =>
    cases word with
    | nil => simp [run_singleton, step]
    | cons d word =>
      have hstep : (Scan.reading (.literal (c :: d :: word) value) frames).step F c =
          .ok (.reading (.literal (d :: word) value) frames) := by
        simp [step]
      rw [run_cons_of_step hstep]
      exact ih (List.cons_ne_nil d word)

/-- The words of JSON. -/
theorem closed_literal {c : Char} {word : List Char} {value : Json} (hword : word ≠ [])
    (hspace : isJsonSpace c = false) (hclose : c ≠ ']')
    (hbegin : ∀ frames, beginValue F frames c = .ok (.reading (.literal word value) frames)) :
    Closed F (c :: word) value := by
  intro mode frames hmode
  have hstep : (Scan.reading mode frames).step F c =
      .ok (.reading (.literal word value) frames) := by
    rw [Scan.step_begins hmode hspace hclose, hbegin]
  rw [Scan.run_cons_of_step hstep, Scan.run_literal hword]

theorem closed_minusInfinity :
    Closed F "-Infinity".toList (.float (F.float "-Infinity")) := by
  intro mode frames hmode
  have hminus : (Scan.reading mode frames).step F '-' =
      .ok (.reading (.number ['-'] .minus) frames) := by
    rw [Scan.step_begins hmode (by decide) (by decide)]
    rfl
  have hI : (Scan.reading (.number ['-'] .minus) frames).step F 'I' =
      .ok (.reading (.literal "nfinity".toList (.float (F.float "-Infinity"))) frames) := rfl
  show (Scan.reading mode frames).run F ('-' :: 'I' :: "nfinity".toList) = _
  rw [Scan.run_cons_of_step hminus, Scan.run_cons_of_step hI]
  exact Scan.run_literal (List.cons_ne_nil _ _)

theorem delivers_float {value : JsonFloat} (h : F.isFloat value = true) :
    Delivers F (dumpValue F (.float value)) (.float value) := by
  have hfloat := F.float_repr value h
  show Delivers F (F.repr value).toList _
  obtain hinf | hneg | ⟨state, hrun, hstate⟩ := F.repr_literal value h
  · rw [hinf] at hfloat ⊢
    apply Closed.delivers
    apply closed_literal (List.cons_ne_nil _ _) (by decide) (by decide)
    intro frames
    rw [← hfloat]
    rfl
  · rw [hneg] at hfloat ⊢
    rw [← hfloat]
    exact closed_minusInfinity.delivers
  · apply delivers_number hrun
    rw [numberValue, if_pos hstate, String.ofList_toList, hfloat]

/-- A quoted string. -/
theorem closed_quote (text : String) : Closed F (quote text) (.str text) := by
  intro mode frames hmode
  have hstep : (Scan.reading mode frames).step F '"' =
      .ok (.reading (.string false [] .plain) frames) := by
    rw [Scan.step_begins hmode (by decide) (by decide)]
    rfl
  unfold quote
  rw [List.cons_append, Scan.run_cons_of_step hstep, Scan.run_closedString]
  show complete (.str (textOf _)) frames = _
  rw [textOf_toNat]

/-! ### Arrays -/

theorem exists_cons_dumpItems (F : JsonFloats) (items : List Json) :
    ∃ c rest, IsSeparator c ∧ dumpItems F items ++ [']'] = c :: rest := by
  cases items with
  | nil => exact ⟨']', [], .inr (.inl rfl), rfl⟩
  | cons item items => exact ⟨',', _, .inl rfl, rfl⟩

/-- The items behind the first, with the bracket behind them. -/
theorem run_dumpItems {items : List Json}
    (h : ∀ item ∈ items, Delivers F (dumpValue F item) item) (before : List Json)
    (frames : List Frame) :
    (Scan.reading .after (.array before :: frames)).run F (dumpItems F items ++ [']']) =
      complete (.arr (before ++ items)) frames := by
  induction items generalizing before with
  | nil =>
    rw [dumpItems, List.nil_append, List.append_nil, Scan.run_singleton]
    rfl
  | cons item items ih =>
    obtain ⟨hitem, hitems⟩ := List.forall_mem_cons.mp h
    obtain ⟨c, rest, hc, hrest⟩ := exists_cons_dumpItems F items
    have hcomma : (Scan.reading .after (.array before :: frames)).step F ',' =
        .ok (.reading .value (.array before :: frames)) := rfl
    have hspace : (Scan.reading .value (.array before :: frames)).step F ' ' =
        .ok (.reading .value (.array before :: frames)) := rfl
    have hrun := hitem .value (.array before :: frames) (.array (before ++ [item]) :: frames)
      (.inl rfl) rfl c hc rest
    show (Scan.reading .after (.array before :: frames)).run F
      (',' :: ' ' :: (dumpValue F item ++ dumpItems F items ++ [']'])) = _
    rw [Scan.run_cons_of_step hcomma, Scan.run_cons_of_step hspace, List.append_assoc, hrest, hrun,
      ← hrest, ih hitems, List.append_assoc, List.singleton_append]

theorem closed_arr {items : List Json}
    (h : ∀ item ∈ items, Delivers F (dumpValue F item) item) :
    Closed F (dumpValue F (.arr items)) (.arr items) := by
  intro mode frames hmode
  have hopen : (Scan.reading mode frames).step F '[' =
      .ok (.reading .firstItem (.array [] :: frames)) := by
    rw [Scan.step_begins hmode (by decide) (by decide)]
    rfl
  cases items with
  | nil =>
    show (Scan.reading mode frames).run F ['[', ']'] = _
    rw [Scan.run_cons_of_step hopen, Scan.run_singleton]
    rfl
  | cons item items =>
    obtain ⟨hitem, hitems⟩ := List.forall_mem_cons.mp h
    obtain ⟨c, rest, hc, hrest⟩ := exists_cons_dumpItems F items
    have hrun := hitem .firstItem (.array [] :: frames) (.array [item] :: frames) (.inr rfl) rfl
      c hc rest
    rw [dumpValue, List.cons_append, List.cons_append, Scan.run_cons_of_step hopen,
      List.append_assoc, hrest, hrun, ← hrest, run_dumpItems hitems]
    rfl

/-! ### Objects -/

theorem setField_of_not_mem {fields : Fields} {key : String} (value : Json)
    (h : key ∉ fields.map Prod.fst) : setField fields key value = fields ++ [(key, value)] := by
  induction fields with
  | nil => rfl
  | cons field fields ih =>
    rw [List.map_cons, List.mem_cons, not_or] at h
    rw [setField, if_neg (Ne.symm h.1), ih h.2]
    rfl

theorem exists_cons_dumpFields (F : JsonFloats) (fields : Fields) :
    ∃ c rest, IsSeparator c ∧ dumpFields F fields ++ ['}'] = c :: rest := by
  cases fields with
  | nil => exact ⟨'}', [], .inr (.inr rfl), rfl⟩
  | cons field fields => exact ⟨',', _, .inl rfl, rfl⟩

/-- A key, up to where its value begins. -/
theorem run_key {mode : Mode} (hmode : mode = .firstKey ∨ mode = .key) (before : Fields)
    (frames : List Frame) (key : String) (rest : List Char) :
    (Scan.reading mode (.object before :: frames)).run F (quote key ++ [':', ' '] ++ rest) =
      (Scan.reading .value (.entry before key :: frames)).run F rest := by
  have hquote : (Scan.reading mode (.object before :: frames)).step F '"' =
      .ok (.reading (.string true [] .plain) (.object before :: frames)) := by
    obtain rfl | rfl := hmode <;> rfl
  have hkey : endString true (key.toList.map Char.toNat) (.object before :: frames) =
      .ok (.reading .colon (.entry before key :: frames)) := by
    simp only [endString, textOf_toNat, if_true]
  have hcolon : (Scan.reading .colon (.entry before key :: frames)).step F ':' =
      .ok (.reading .value (.entry before key :: frames)) := rfl
  have hspace : (Scan.reading .value (.entry before key :: frames)).step F ' ' =
      .ok (.reading .value (.entry before key :: frames)) := rfl
  have hstring := Scan.run_closedString (F := F) true (.object before :: frames) key
  rw [hkey] at hstring
  rw [quote, List.append_assoc, List.cons_append, List.cons_append,
    Scan.run_cons_of_step hquote, Scan.run_append_of_run hstring]
  show (Scan.reading .colon (.entry before key :: frames)).run F (':' :: ' ' :: rest) = _
  rw [Scan.run_cons_of_step hcolon, Scan.run_cons_of_step hspace]

/-- A field, up to what follows it. -/
theorem run_field {mode : Mode} (hmode : mode = .firstKey ∨ mode = .key) {before : Fields}
    {field : String × Json} (hfield : Delivers F (dumpValue F field.2) field.2)
    (hkey : field.1 ∉ before.map Prod.fst) (frames : List Frame) {c : Char} (hc : IsSeparator c)
    (rest : List Char) :
    (Scan.reading mode (.object before :: frames)).run F
      (quote field.1 ++ [':', ' '] ++ (dumpValue F field.2 ++ c :: rest)) =
      (Scan.reading .after (.object (before ++ [field]) :: frames)).run F (c :: rest) := by
  rw [run_key hmode]
  apply hfield .value _ _ (.inl rfl) _ c hc rest
  show Except.ok _ = _
  rw [setField_of_not_mem _ hkey]

/-- The fields behind the first, with the brace behind them. -/
theorem run_dumpFields {fields : Fields}
    (h : ∀ field ∈ fields, Delivers F (dumpValue F field.2) field.2) (before : Fields)
    (hkeys : ((before ++ fields).map Prod.fst).Nodup) (frames : List Frame) :
    (Scan.reading .after (.object before :: frames)).run F (dumpFields F fields ++ ['}']) =
      complete (.obj (before ++ fields)) frames := by
  induction fields generalizing before with
  | nil =>
    rw [dumpFields, List.nil_append, List.append_nil, Scan.run_singleton]
    rfl
  | cons field fields ih =>
    obtain ⟨hfield, hfields⟩ := List.forall_mem_cons.mp h
    obtain ⟨c, rest, hc, hrest⟩ := exists_cons_dumpFields F fields
    have hcomma : (Scan.reading .after (.object before :: frames)).step F ',' =
        .ok (.reading .key (.object before :: frames)) := rfl
    have hspace : (Scan.reading .key (.object before :: frames)).step F ' ' =
        .ok (.reading .key (.object before :: frames)) := rfl
    have hkey : field.1 ∉ before.map Prod.fst := by
      rw [List.map_append, List.map_cons, List.nodup_append] at hkeys
      exact fun hmem => hkeys.2.2 _ hmem _ List.mem_cons_self rfl
    have hmore : before ++ field :: fields = before ++ [field] ++ fields := by
      rw [List.append_assoc, List.singleton_append]
    show (Scan.reading .after (.object before :: frames)).run F
      (',' :: ' ' :: (quote field.1 ++ [':', ' '] ++ dumpValue F field.2 ++ dumpFields F fields) ++
        ['}']) = _
    rw [List.cons_append, List.cons_append, Scan.run_cons_of_step hcomma,
      Scan.run_cons_of_step hspace, List.append_assoc, List.append_assoc _ (dumpValue F field.2),
      hrest, run_field (.inr rfl) hfield hkey frames hc rest, ← hrest, hmore]
    apply ih hfields
    rw [← hmore]
    exact hkeys

theorem closed_obj {fields : Fields}
    (h : ∀ field ∈ fields, Delivers F (dumpValue F field.2) field.2)
    (hkeys : (fields.map Prod.fst).Nodup) :
    Closed F (dumpValue F (.obj fields)) (.obj fields) := by
  intro mode frames hmode
  have hopen : (Scan.reading mode frames).step F '{' =
      .ok (.reading .firstKey (.object [] :: frames)) := by
    rw [Scan.step_begins hmode (by decide) (by decide)]
    rfl
  cases fields with
  | nil =>
    show (Scan.reading mode frames).run F ['{', '}'] = _
    rw [Scan.run_cons_of_step hopen, Scan.run_singleton]
    rfl
  | cons field fields =>
    obtain ⟨hfield, hfields⟩ := List.forall_mem_cons.mp h
    obtain ⟨c, rest, hc, hrest⟩ := exists_cons_dumpFields F fields
    show (Scan.reading mode frames).run F
      ('{' :: (quote field.1 ++ [':', ' '] ++ dumpValue F field.2 ++ dumpFields F fields) ++
        ['}']) = _
    rw [List.cons_append, Scan.run_cons_of_step hopen, List.append_assoc,
      List.append_assoc _ (dumpValue F field.2), hrest,
      run_field (.inl rfl) hfield List.not_mem_nil frames hc rest, ← hrest]
    exact run_dumpFields hfields [field] hkeys frames

/-! ### All values -/

theorem delivers_dumpValue {value : Json} (h : F.Printable value) :
    Delivers F (dumpValue F value) value := by
  induction h with
  | null =>
    exact (closed_literal (List.cons_ne_nil _ _) (by decide) (by decide) fun _ => rfl).delivers
  | bool value =>
    cases value <;>
      exact (closed_literal (List.cons_ne_nil _ _) (by decide) (by decide) fun _ => rfl).delivers
  | int value short => exact delivers_int short
  | float value float => exact delivers_float float
  | str value => exact (closed_quote value).delivers
  | arr items _ ih => exact (closed_arr ih).delivers
  | obj fields keys _ ih => exact (closed_obj ih keys).delivers

/-- An object is read as soon as its text ends. -/
theorem run_dumpValue_obj {fields : Fields} (h : F.Printable (.obj fields)) :
    (Scan.reading .value []).run F (dumpValue F (.obj fields)) = .ok (.done (.obj fields)) := by
  cases h with
  | obj _ keys each =>
    exact closed_obj (fun field hfield => delivers_dumpValue (each field hfield)) keys .value []
      (.inl rfl)

/-- `json.loads` reads the object that `json.dumps` has printed. -/
theorem loads_dumps {fields : Fields} (h : F.Printable (.obj fields)) :
    loads F (dumps F (.obj fields)) = .ok (.obj fields) := by
  rw [loads, dumps, String.toList_ofList, run_dumpValue_obj h]
  rfl

end VirtualContributor.Lib
