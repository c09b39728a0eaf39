import Mathlib.Data.List.Sort
import VirtualContributor.Lib.JsonRoundTrip

/-!
# JSON texts in a style

`JsonStyle.dumps` is `json.dumps` with the options `ensure_ascii`, `indent` and
`separators`, and `sortKeys` is `sort_keys`.

Whatever the style, `loads` reads the object that was printed
(`JsonStyle.loads_dumps`): the texts of two styles differ in blanks that the
reader skips and in escapes that it reads as the same character.
-/

namespace VirtualContributor.Lib

/-! ## Sorted keys -/

mutual

/-- The value with the fields of its objects in the order of their keys. -/
def sortKeys : Json → Json
  | .arr items => .arr (sortItems items)
  | .obj fields => .obj ((sortFields fields).insertionSort fun a b => a.1 ≤ b.1)
  | value => value

def sortItems : List Json → List Json
  | [] => []
  | item :: items => sortKeys item :: sortItems items

def sortFields : List (String × Json) → List (String × Json)
  | [] => []
  | (key, value) :: fields => (key, sortKeys value) :: sortFields fields

end

/-! ## Printing -/

structure JsonStyle where
  ensureAscii : Bool := true
  indent : Option Nat := none
  /-- The blanks behind a comma and behind a colon. -/
  itemBlanks : Nat := 1
  keyBlanks : Nat := 1

namespace JsonStyle

variable (style : JsonStyle)

/-- A line break and the blanks that begin a line, if lines are indented. -/
def newline (level : Nat) : List Char :=
  match style.indent with
  | none => []
  | some width => '\n' :: List.replicate (width * level) ' '

def escape (c : Char) : List Char :=
  if style.ensureAscii then escapeChar c
  else
    match shortEscape? c with
    | some letter => ['\\', letter]
    | none => if 32 ≤ c.toNat then [c] else unitText c.toNat

def quote (text : String) : List Char := '"' :: text.toList.flatMap style.escape ++ ['"']

def comma (level : Nat) : List Char :=
  ',' :: (List.replicate style.itemBlanks ' ' ++ style.newline level)

def colon : List Char := ':' :: List.replicate style.keyBlanks ' '

section

variable (F : JsonFloats)

mutual

/-- The text of a value that stands at a level of nesting. -/
def dumpValue (level : Nat) : Json → List Char
  | .null => "null".toList
  | .bool true => "true".toList
  | .bool false => "false".toList
  | .int value => (toString value).toList
  | .float value => (F.repr value).toList
  | .str value => style.quote value
  | .arr [] => "[]".toList
  | .arr (item :: items) =>
    '[' :: (style.newline (level + 1) ++
      (dumpValue (level + 1) item ++
        (dumpItems (level + 1) items ++ (style.newline level ++ [']']))))
  | .obj [] => "\x7b\x7d".toList
  | .obj ((key, value) :: fields) =>
    '{' :: (style.newline (level + 1) ++
      (style.quote key ++ (style.colon ++
        (dumpValue (level + 1) value ++
          (dumpFields (level + 1) fields ++ (style.newline level ++ ['}']))))))

/-- The items behind the first. -/
def dumpItems (level : Nat) : List Json → List Char
  | [] => []
  | item :: items => style.comma level ++ (dumpValue level item ++ dumpItems level items)

/-- The fields behind the first. -/
def dumpFields (level : Nat) : List (String × Json) → List Char
  | [] => []
  | (key, value) :: fields =>
    style.comma level ++
      (style.quote key ++ (style.colon ++ (dumpValue level value ++ dumpFields level fields)))

end

/-- `json.dumps(value, …)`. -/
def dumps (value : Json) : String := String.ofList (dumpValue style F 0 value)

end

/-! ## Blanks -/

def IsBlank (text : List Char) : Prop := ∀ c ∈ text, isJsonSpace c = true

theorem isBlank_replicate (n : Nat) : IsBlank (List.replicate n ' ') := by
  intro c hc
  rw [List.eq_of_mem_replicate hc]
  rfl

theorem isBlank_newline (level : Nat) : IsBlank (style.newline level) := by
  unfold newline
  split
  · intro c hc
    cases hc
  · next width =>
    intro c hc
    obtain rfl | hc := List.mem_cons.mp hc
    · rfl
    · exact isBlank_replicate _ c hc

theorem isBlank_append {u v : List Char} (hu : IsBlank u) (hv : IsBlank v) : IsBlank (u ++ v) :=
  List.forall_mem_append.mpr ⟨hu, hv⟩

variable {style} {F : JsonFloats}

/-- A scan that takes no notice of a blank. -/
def Idle (F : JsonFloats) (scan : Scan) : Prop :=
  ∀ c, isJsonSpace c = true → scan.step F c = .ok scan

theorem idle_value (frames : List Frame) : Idle F (.reading .value frames) := by
  intro c hc
  simp [Scan.step, hc]

theorem idle_firstItem (frames : List Frame) : Idle F (.reading .firstItem frames) := by
  intro c hc
  simp [Scan.step, hc]

theorem idle_firstKey (frames : List Frame) : Idle F (.reading .firstKey frames) := by
  intro c hc
  simp [Scan.step, hc]

theorem idle_key (frames : List Frame) : Idle F (.reading .key frames) := by
  intro c hc
  simp [Scan.step, hc]

theorem idle_after (frames : List Frame) : Idle F (.reading .after frames) := by
  intro c hc
  simp [Scan.step, afterValue, hc]

theorem Idle.run_blanks {scan : Scan} (h : Idle F scan) {blanks : List Char}
    (hblanks : IsBlank blanks) (rest : List Char) :
    scan.run F (blanks ++ rest) = scan.run F rest := by
  induction blanks with
  | nil => rfl
  | cons c blanks ih =>
    obtain ⟨hc, hblanks⟩ := List.forall_mem_cons.mp hblanks
    rw [List.cons_append, Scan.run_cons_of_step (h c hc), ih hblanks]

/-! ## Strings -/

theorem run_escape (isKey : Bool) (units : List Nat) (frames : List Frame) (c : Char) :
    (Scan.reading (.string isKey units .plain) frames).run F (style.escape c) =
      .ok (.reading (.string isKey (units ++ [c.toNat]) .plain) frames) := by
  have hascii := Scan.run_escapeChar (F := F) isKey units frames c
  unfold escape
  split
  · exact hascii
  · split
    · next letter hletter =>
      rw [escapeChar, hletter] at hascii
      exact hascii
    · next hnone =>
      have hquote : c ≠ '"' := by
        rintro rfl
        cases hnone
      have hslash : c ≠ '\\' := by
        rintro rfl
        cases hnone
      split
      · next hplain =>
        have hcontrol : ¬ c.toNat < 32 := by omega
        simp [Scan.run_cons, Scan.step, stepString, Except.bind, hquote, hslash, hcontrol]
      · next hcontrol =>
        rw [Scan.run_unitText (by omega), addUnit_of_not_low (isLowSurrogate_toNat c)]

theorem run_string (isKey : Bool) (units : List Nat) (frames : List Frame) (text : List Char) :
    (Scan.reading (.string isKey units .plain) frames).run F (text.flatMap style.escape) =
      .ok (.reading (.string isKey (units ++ text.map Char.toNat) .plain) frames) := by
  induction text generalizing units with
  | nil => simp
  | cons c text ih =>
    rw [List.flatMap_cons, Scan.run_append_of_run (run_escape isKey units frames c), ih,
      List.append_assoc, List.map_cons, List.singleton_append]

/-- A string with its closing quote. -/
theorem run_closedString (style : JsonStyle) (isKey : Bool) (frames : List Frame) (text : String) :
    (Scan.reading (.string isKey [] .plain) frames).run F
      (text.toList.flatMap style.escape ++ ['"']) =
      endString isKey (text.toList.map Char.toNat) frames := by
  rw [Scan.run_append_of_run (run_string isKey [] frames text.toList), Scan.run_singleton]
  rfl

theorem closed_quote (text : String) : Closed F (style.quote text) (.str text) := by
  intro mode frames hmode
  have hstep : (Scan.reading mode frames).step F '"' =
      .ok (.reading (.string false [] .plain) frames) := by
    rw [Scan.step_begins hmode (by decide) (by decide)]
    rfl
  unfold quote
  rw [List.cons_append, Scan.run_cons_of_step hstep, run_closedString style]
  show complete (.str (textOf _)) frames = _
  rw [textOf_toNat]

/-! ## Values -/

/-- The characters that may follow an item or a field. -/
def Ends (c : Char) : Prop := IsSeparator c ∨ isJsonSpace c = true

/-- A text that a scan reads as a value, whatever ends it. -/
def Reads (F : JsonFloats) (text : List Char) (value : Json) : Prop :=
  ∀ mode frames after, Mode.Begins mode → complete value frames = .ok (.reading .after after) →
    ∀ c, Ends c → ∀ rest,
      (Scan.reading mode frames).run F (text ++ c :: rest) =
        (Scan.reading .after after).run F (c :: rest)

theorem reads_of_closed {text : List Char} {value : Json} (h : Closed F text value) :
    Reads F text value := by
  intro mode frames after hmode hframes c _ rest
  have hrun := h mode frames hmode
  rw [hframes] at hrun
  exact Scan.run_append_of_run hrun (c :: rest)

theorem step_of_ends {c : Char} (h : Ends c) (state : NumberState) : state.step c = none := by
  obtain h | h := h
  · exact NumberState.step_separator h state
  · simp only [isJsonSpace, Bool.or_eq_true, decide_eq_true_eq] at h
    obtain ((rfl | rfl) | rfl) | rfl := h <;> cases state <;> rfl

theorem ne_I_of_ends {c : Char} (h : Ends c) : c ≠ 'I' := by
  rintro rfl
  obtain h | h := h
  · obtain h | h | h := h <;> cases h
  · cases h

theorem step_number {c : Char} (hc : Ends c) {text : List Char} {state : NumberState}
    {frames after : List Frame} {value : Json} (hvalue : numberValue F text state = .ok value)
    (hframes : complete value frames = .ok (.reading .after after)) :
    (Scan.reading (.number text state) frames).step F c = (Scan.reading .after after).step F c := by
  cases frames with
  | nil => exact absurd hframes (by simp [complete])
  | cons frame frames =>
    simp only [Scan.step, step_of_ends hc, ne_I_of_ends hc, hvalue]
    simp [bind, Except.bind, hframes]

theorem reads_number {text : List Char} {state : NumberState} {value : Json}
    (hrun : NumberState.run text = some state) (hvalue : numberValue F text state = .ok value) :
    Reads F text value := by
  intro mode frames after hmode hframes c hc rest
  cases text with
  | nil => cases hrun
  | cons d text =>
    obtain ⟨first, hfirst, htext⟩ := Option.bind_eq_some_iff.mp hrun
    have hspace := NumberState.not_space_of_start hfirst
    have hstep : (Scan.reading mode frames).step F d =
        .ok (.reading (.number [d] first) frames) := by
      rw [Scan.step_begins hmode hspace.1 hspace.2, beginValue_number hfirst]
    rw [List.cons_append, Scan.run_cons_of_step hstep,
      Scan.run_append_of_run (Scan.run_number htext), Scan.run_cons, Scan.run_cons,
      List.singleton_append, step_number hc hvalue hframes]

theorem reads_float {value : JsonFloat} (h : F.isFloat value = true) :
    Reads F (F.repr value).toList (.float value) := by
  have hfloat := F.float_repr value h
  obtain hinf | hneg | ⟨state, hrun, hstate⟩ := F.repr_literal value h
  · rw [hinf] at hfloat ⊢
    apply reads_of_closed
    apply closed_literal (List.cons_ne_nil _ _) (by decide) (by decide)
    intro frames
    rw [← hfloat]
    rfl
  · rw [hneg] at hfloat ⊢
    rw [← hfloat]
    exact reads_of_closed closed_minusInfinity
  · apply reads_number hrun
    rw [numberValue, if_pos hstate, String.ofList_toList, hfloat]

/-! ### Arrays -/

theorem exists_cons_dumpItems (style : JsonStyle) (F : JsonFloats) (level outer : Nat)
    (items : List Json) :
    ∃ c rest, Ends c ∧ style.dumpItems F level items ++ (style.newline outer ++ [']']) =
      c :: rest := by
  cases items with
  | nil =>
    rw [dumpItems, List.nil_append]
    cases hline : style.newline outer with
    | nil => exact ⟨']', [], .inl (.inr (.inl rfl)), rfl⟩
    | cons c line =>
      have hc := style.isBlank_newline outer c (hline ▸ List.mem_cons_self)
      exact ⟨c, line ++ [']'], .inr hc, rfl⟩
  | cons item items => exact ⟨',', _, .inl (.inl rfl), rfl⟩

/-- The items behind the first, with the bracket behind them. -/
theorem run_dumpItems {level : Nat} {items : List Json}
    (h : ∀ item ∈ items, Reads F (style.dumpValue F level item) item) (outer : Nat)
    (before : List Json) (frames : List Frame) :
    (Scan.reading .after (.array before :: frames)).run F
      (style.dumpItems F level items ++ (style.newline outer ++ [']'])) =
      complete (.arr (before ++ items)) frames := by
  induction items generalizing before with
  | nil =>
    rw [dumpItems, List.nil_append, List.append_nil,
      (idle_after _).run_blanks (style.isBlank_newline outer), Scan.run_singleton]
    rfl
  | cons item items ih =>
    obtain ⟨hitem, hitems⟩ := List.forall_mem_cons.mp h
    obtain ⟨c, rest, hc, hrest⟩ := exists_cons_dumpItems style F level outer items
    have hcomma : (Scan.reading .after (.array before :: frames)).step F ',' =
        .ok (.reading .value (.array before :: frames)) := rfl
    have hblanks := isBlank_append (isBlank_replicate style.itemBlanks)
      (style.isBlank_newline level)
    have hrun := hitem .value (.array before :: frames) (.array (before ++ [item]) :: frames)
      (.inl rfl) rfl c hc rest
    rw [dumpItems, comma, List.append_assoc, List.cons_append, Scan.run_cons_of_step hcomma,
      (idle_value _).run_blanks hblanks, List.append_assoc, hrest, hrun, ← hrest, ih hitems,
      List.append_assoc, List.singleton_append]

theorem closed_arr {level : Nat} {items : List Json}
    (h : ∀ item ∈ items, Reads F (style.dumpValue F (level + 1) item) item) :
    Closed F (style.dumpValue F level (.arr items)) (.arr items) := by
  intro mode frames hmode
  have hopen : (Scan.reading mode frames).step F '[' =
      .ok (.reading .firstItem (.array [] :: frames)) := by
    rw [Scan.step_begins hmode (by decide) (by decide)]
    rfl
  cases items with
  | nil =>
    rw [dumpValue]
    show (Scan.reading mode frames).run F ['[', ']'] = _
    rw [Scan.run_cons_of_step hopen, Scan.run_singleton]
    rfl
  | cons item items =>
    obtain ⟨hitem, hitems⟩ := List.forall_mem_cons.mp h
    obtain ⟨c, rest, hc, hrest⟩ := exists_cons_dumpItems style F (level + 1) level items
    have hrun := hitem .firstItem (.array [] :: frames) (.array [item] :: frames) (.inr rfl) rfl
      c hc rest
    rw [dumpValue, Scan.run_cons_of_step hopen,
      (idle_firstItem _).run_blanks (style.isBlank_newline (level + 1)), hrest, hrun, ← hrest,
      run_dumpItems hitems]
    rfl

/-! ### Objects -/

theorem exists_cons_dumpFields (style : JsonStyle) (F : JsonFloats) (level outer : Nat)
    (fields : Fields) :
    ∃ c rest, Ends c ∧ style.dumpFields F level fields ++ (style.newline outer ++ ['}']) =
      c :: rest := by
  cases fields with
  | nil =>
    rw [dumpFields, List.nil_append]
    cases hline : style.newline outer with
    | nil => exact ⟨'}', [], .inl (.inr (.inr rfl)), rfl⟩
    | cons c line =>
      have hc := style.isBlank_newline outer c (hline ▸ List.mem_cons_self)
      exact ⟨c, line ++ ['}'], .inr hc, rfl⟩
  | cons field fields => exact ⟨',', _, .inl (.inl rfl), rfl⟩

/-- A key, up to where its value begins. -/
theorem run_key {mode : Mode} (hmode : mode = .firstKey ∨ mode = .key) (before : Fields)
    (frames : List Frame) (key : String) (rest : List Char) :
    (Scan.reading mode (.object before :: frames)).run F
      (style.quote key ++ (style.colon ++ rest)) =
      (Scan.reading .value (.entry before key :: frames)).run F rest := by
  have hquote : (Scan.reading mode (.object before :: frames)).step F '"' =
      .ok (.reading (.string true [] .plain) (.object before :: frames)) := by
    obtain rfl | rfl := hmode <;> rfl
  have hkey : endString true (key.toList.map Char.toNat) (.object before :: frames) =
      .ok (.reading .colon (.entry before key :: frames)) := by
    simp only [endString, textOf_toNat, if_true]
  have hcolon : (Scan.reading .colon (.entry before key :: frames)).step F ':' =
      .ok (.reading .value (.entry before key :: frames)) := rfl
  have hstring := run_closedString (F := F) style true (.object before :: frames) key
  rw [hkey] at hstring
  rw [quote, List.cons_append, List.cons_append, Scan.run_cons_of_step hquote,
    Scan.run_append_of_run hstring, colon, List.cons_append, Scan.run_cons_of_step hcolon,
    (idle_value _).run_blanks (isBlank_replicate style.keyBlanks)]

/-- A field, up to what follows it. -/
theorem run_field (style : JsonStyle) {level : Nat} {mode : Mode}
    (hmode : mode = .firstKey ∨ mode = .key) {before : Fields} {field : String × Json}
    (hfield : Reads F (style.dumpValue F level field.2) field.2)
    (hkey : field.1 ∉ before.map Prod.fst) (frames : List Frame) {c : Char} (hc : Ends c)
    (rest : List Char) :
    (Scan.reading mode (.object before :: frames)).run F
      (style.quote field.1 ++ (style.colon ++ (style.dumpValue F level field.2 ++ c :: rest))) =
      (Scan.reading .after (.object (before ++ [field]) :: frames)).run F (c :: rest) := by
  rw [run_key hmode]
  apply hfield .value _ _ (.inl rfl) _ c hc rest
  show Except.ok _ = _
  rw [setField_of_not_mem _ hkey]

/-- The fields behind the first, with the brace behind them. -/
theorem run_dumpFields {level : Nat} {fields : Fields}
    (h : ∀ field ∈ fields, Reads F (style.dumpValue F level field.2) field.2) (outer : Nat)
    (before : Fields) (hkeys : ((before ++ fields).map Prod.fst).Nodup) (frames : List Frame) :
    (Scan.reading .after (.object before :: frames)).run F
      (style.dumpFields F level fields ++ (style.newline outer ++ ['}'])) =
      complete (.obj (before ++ fields)) frames := by
  induction fields generalizing before with
  | nil =>
    rw [dumpFields, List.nil_append, List.append_nil,
      (idle_after _).run_blanks (style.isBlank_newline outer), Scan.run_singleton]
    rfl
  | cons field fields ih =>
    obtain ⟨hfield, hfields⟩ := List.forall_mem_cons.mp h
    obtain ⟨c, rest, hc, hrest⟩ := exists_cons_dumpFields style F level outer fields
    have hcomma : (Scan.reading .after (.object before :: frames)).step F ',' =
        .ok (.reading .key (.object before :: frames)) := rfl
    have hblanks := isBlank_append (isBlank_replicate style.itemBlanks)
      (style.isBlank_newline level)
    have hkey : field.1 ∉ before.map Prod.fst := by
      rw [List.map_append, List.map_cons, List.nodup_append] at hkeys
      exact fun hmem => hkeys.2.2 _ hmem _ List.mem_cons_self rfl
    have hmore : before ++ field :: fields = before ++ [field] ++ fields := by
      rw [List.append_assoc, List.singleton_append]
    have hrun := run_field style (.inr rfl) hfield hkey frames hc rest
    rw [dumpFields, comma, List.append_assoc, List.cons_append, Scan.run_cons_of_step hcomma,
      (idle_key _).run_blanks hblanks, List.append_assoc, List.append_assoc, List.append_assoc,
      hrest, hrun, ← hrest, hmore]
    apply ih hfields
    rw [← hmore]
    exact hkeys

theorem closed_obj (style : JsonStyle) {level : Nat} {fields : Fields}
    (h : ∀ field ∈ fields, Reads F (style.dumpValue F (level + 1) field.2) field.2)
    (hkeys : (fields.map Prod.fst).Nodup) :
    Closed F (style.dumpValue F level (.obj fields)) (.obj fields) := by
  intro mode frames hmode
  have hopen : (Scan.reading mode frames).step F '{' =
      .ok (.reading .firstKey (.object [] :: frames)) := by
    rw [Scan.step_begins hmode (by decide) (by decide)]
    rfl
  cases fields with
  | nil =>
    rw [dumpValue]
    show (Scan.reading mode frames).run F ['{', '}'] = _
    rw [Scan.run_cons_of_step hopen, Scan.run_singleton]
    rfl
  | cons field fields =>
    obtain ⟨hfield, hfields⟩ := List.forall_mem_cons.mp h
    obtain ⟨c, rest, hc, hrest⟩ := exists_cons_dumpFields style F (level + 1) level fields
    have hempty : field.1 ∉ ([] : Fields).map Prod.fst := List.not_mem_nil
    have hrun := run_field style (.inl rfl) hfield hempty frames hc rest
    rw [dumpValue, Scan.run_cons_of_step hopen,
      (idle_firstKey _).run_blanks (style.isBlank_newline (level + 1)), hrest, hrun, ← hrest]
    exact run_dumpFields hfields level [field] hkeys frames

/-! ### All values -/

theorem reads_dumpValue {value : Json} (h : F.Printable value) (level : Nat) :
    Reads F (style.dumpValue F level value) value := by
  induction h generalizing level with
  | null =>
    rw [dumpValue]
    exact reads_of_closed
      (closed_literal (List.cons_ne_nil _ _) (by decide) (by decide) fun _ => rfl)
  | bool value =>
    cases value <;> rw [dumpValue] <;>
      exact reads_of_closed
        (closed_literal (List.cons_ne_nil _ _) (by decide) (by decide) fun _ => rfl)
  | int value short =>
    obtain ⟨state, hrun, hvalue⟩ := numberValue_int (F := F) short
    rw [dumpValue]
    exact reads_number hrun hvalue
  | float value float =>
    rw [dumpValue]
    exact reads_float float
  | str value =>
    rw [dumpValue]
    exact reads_of_closed (closed_quote value)
  | arr items _ ih => exact reads_of_closed (closed_arr fun item hitem => ih item hitem _)
  | obj fields keys _ ih =>
    exact reads_of_closed (closed_obj style (fun field hfield => ih field hfield _) keys)

/-- `json.loads` reads the object that `json.dumps` has printed, in any style. -/
theorem loads_dumps (style : JsonStyle) {fields : Fields} (h : F.Printable (.obj fields)) :
    loads F (style.dumps F (.obj fields)) = .ok (.obj fields) := by
  cases h with
  | obj _ keys each =>
    have hreads : ∀ field ∈ fields, Reads F (style.dumpValue F 1 field.2) field.2 :=
      fun field hfield => reads_dumpValue (each field hfield) 1
    have hclosed := closed_obj style hreads keys .value [] (.inl rfl)
    rw [loads, dumps, String.toList_ofList, hclosed]
    rfl

end JsonStyle

end VirtualContributor.Lib
