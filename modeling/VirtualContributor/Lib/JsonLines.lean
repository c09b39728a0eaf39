import VirtualContributor.Lib.JsonCharacters
import VirtualContributor.Lib.JsonStyle
import VirtualContributor.Lib.SplitText

/-!
# Files of JSON lines

One object in each line, printed without indentation.  No printed value has a
line break in it, whatever its strings have, so that the lines of the file are
the printed values (`contentLines_linesOf`).
-/

namespace VirtualContributor.Lib

/-! ## Lines -/

/-- `universalNewlines` behind a carriage return, or not. -/
def translateNewlines : Bool → List Char → List Char
  | _, [] => []
  | afterReturn, c :: rest =>
    if c = '\r' then '\n' :: translateNewlines true rest
    else if c = '\n' && afterReturn then translateNewlines false rest
    else c :: translateNewlines false rest

/-- The text with the line breaks of all platforms as `\n`, as a file opened for
reading gives it. -/
def universalNewlines (text : List Char) : List Char := translateNewlines false text

/-- The lines of a file, stripped, with their numbers, less those that are
blank. -/
def contentLines (file : String) : List (String × Nat) :=
  ((((universalNewlines file.toList).splitOn '\n').map fun line =>
    strip (String.ofList line)).zipIdx 1).filter fun line => line.1 ≠ ""

/-- The file with the given lines. -/
def linesOf (lines : List String) : String :=
  String.ofList (lines.flatMap fun line => line.toList ++ ['\n'])

/-- A character that ends a line. -/
def IsLineBreak (c : Char) : Prop := c = '\n' ∨ c = '\r'

theorem universalNewlines_of_not_mem {text : List Char} (h : '\r' ∉ text) :
    universalNewlines text = text := by
  unfold universalNewlines
  induction text with
  | nil => rfl
  | cons c text ih =>
    rw [List.mem_cons, not_or] at h
    simp only [translateNewlines, if_neg (Ne.symm h.1), Bool.and_false, Bool.false_eq_true,
      if_false, ih h.2]

theorem splitOn_flatMap {lines : List (List Char)} (h : ∀ line ∈ lines, '\n' ∉ line) :
    (lines.flatMap fun line => line ++ ['\n']).splitOn '\n' = lines ++ [[]] := by
  induction lines with
  | nil => rfl
  | cons line lines ih =>
    obtain ⟨hline, hlines⟩ := List.forall_mem_cons.mp h
    rw [List.flatMap_cons, List.append_assoc, List.singleton_append,
      List.splitOn_append_cons_self_of_not_mem hline, ih hlines]
    rfl

/-- A line that a JSON file can have: not blank, without blanks at its ends and
without a line break. -/
structure PlainLine (line : String) : Prop where
  unbroken : ∀ c ∈ line.toList, ¬ IsLineBreak c
  tight : strip line = line
  nonempty : line ≠ ""

/-- The lines of a file that was written line by line. -/
theorem contentLines_linesOf {lines : List String} (h : ∀ line ∈ lines, PlainLine line) :
    contentLines (linesOf lines) = lines.zipIdx 1 := by
  have hreturn : '\r' ∉ lines.flatMap fun line => line.toList ++ ['\n'] := by
    rw [List.mem_flatMap]
    intro hmem
    obtain ⟨line, hline, hc⟩ := hmem
    rcases List.mem_append.mp hc with hc | hc
    · exact (h line hline).unbroken _ hc (Or.inr rfl)
    · simp at hc
  have hnewline : ∀ letters ∈ lines.map String.toList, '\n' ∉ letters := by
    intro letters hletters hc
    obtain ⟨line, hline, rfl⟩ := List.mem_map.mp hletters
    exact (h line hline).unbroken _ hc (Or.inl rfl)
  have hsplit : (lines.flatMap fun line => line.toList ++ ['\n']).splitOn '\n' =
      lines.map String.toList ++ [[]] := by
    rw [← splitOn_flatMap hnewline, List.flatMap_map]
  have hstrip : lines.map (fun line => strip (String.ofList line.toList)) = lines := by
    conv_rhs => rw [← List.map_id lines]
    refine List.map_congr_left fun line hline => ?_
    rw [String.ofList_toList, (h line hline).tight]
    rfl
  have hkept : (lines.zipIdx 1).filter (fun line => line.1 ≠ "") = lines.zipIdx 1 := by
    rw [List.filter_eq_self]
    intro line hline
    simpa using (h line.1 (List.fst_mem_of_mem_zipIdx hline)).nonempty
  unfold contentLines linesOf
  rw [String.toList_ofList, universalNewlines_of_not_mem hreturn, hsplit, List.map_append,
    List.map_map]
  show List.filter _ (((lines.map fun line => strip (String.ofList line.toList)) ++ [""]).zipIdx 1)
    = _
  rw [hstrip, List.zipIdx_append, List.filter_append, hkept]
  simp

/-! ## Printed values -/

section Printed

variable {style : JsonStyle} {F : JsonFloats} {d : Char}

theorem plainChar_of_lineBreak (h : IsLineBreak d) : PlainChar d := by
  rcases h with rfl | rfl
  · exact ⟨by decide, by decide, rfl, rfl, rfl, fun state => by cases state <;> rfl⟩
  · exact ⟨by decide, by decide, rfl, rfl, rfl, fun state => by cases state <;> rfl⟩

theorem JsonStyle.not_mem_escape (h : IsLineBreak d) (c : Char) : d ∉ style.escape c := by
  have hplain := plainChar_of_lineBreak h
  by_cases hc : c = d
  · subst hc
    rcases h with rfl | rfl <;> cases hascii : style.ensureAscii <;>
      simp [JsonStyle.escape, hascii, shortEscape?, escapeChar]
  · unfold JsonStyle.escape
    split
    · exact hplain.not_mem_escapeChar hc
    · split
      · next letter hletter =>
        have hescape := hplain.not_mem_escapeChar hc
        rw [escapeChar, hletter] at hescape
        exact hescape
      · split
        · simp [Ne.symm hc]
        · exact hplain.not_mem_unitText _

theorem JsonStyle.not_mem_quote (h : IsLineBreak d) (text : String) : d ∉ style.quote text := by
  have hquote : d ≠ '"' := by
    rcases h with rfl | rfl <;> decide
  unfold JsonStyle.quote
  simp only [List.mem_cons, List.mem_append, List.mem_flatMap, not_or,
    List.not_mem_nil, not_false_iff, and_true]
  refine ⟨⟨hquote, ?_⟩, hquote⟩
  intro hmem
  obtain ⟨c, _, hc⟩ := hmem
  exact JsonStyle.not_mem_escape h c hc

theorem JsonStyle.not_mem_comma (hstyle : style.indent = none) (h : IsLineBreak d) (level : Nat) :
    d ∉ style.comma level := by
  have hd : d ≠ ',' ∧ d ≠ ' ' := by
    rcases h with rfl | rfl <;> decide
  simp [JsonStyle.comma, JsonStyle.newline, hstyle, hd]

theorem JsonStyle.not_mem_colon (h : IsLineBreak d) : d ∉ style.colon := by
  have hd : d ≠ ':' ∧ d ≠ ' ' := by
    rcases h with rfl | rfl <;> decide
  simp [JsonStyle.colon, hd]

theorem JsonStyle.not_mem_dumpItems (hstyle : style.indent = none) (h : IsLineBreak d)
    {level : Nat} {items : List Json}
    (hitems : ∀ item ∈ items, d ∉ style.dumpValue F level item) :
    d ∉ style.dumpItems F level items := by
  induction items with
  | nil => simp [JsonStyle.dumpItems]
  | cons item items ih =>
    obtain ⟨hitem, hrest⟩ := List.forall_mem_cons.mp hitems
    rw [JsonStyle.dumpItems, List.mem_append, List.mem_append, not_or, not_or]
    exact ⟨not_mem_comma hstyle h level, hitem, ih hrest⟩

theorem JsonStyle.not_mem_dumpFields (hstyle : style.indent = none) (h : IsLineBreak d)
    {level : Nat} {fields : Fields}
    (hfields : ∀ field ∈ fields, d ∉ style.dumpValue F level field.2) :
    d ∉ style.dumpFields F level fields := by
  induction fields with
  | nil => simp [JsonStyle.dumpFields]
  | cons field fields ih =>
    obtain ⟨hfield, hrest⟩ := List.forall_mem_cons.mp hfields
    obtain ⟨key, value⟩ := field
    simp only [JsonStyle.dumpFields, List.mem_append, not_or]
    exact ⟨not_mem_comma hstyle h level, not_mem_quote h key, not_mem_colon h, hfield, ih hrest⟩

/-- A value that is printed without indentation stands in one line. -/
theorem JsonStyle.not_mem_dumpValue (hstyle : style.indent = none) (h : IsLineBreak d)
    {value : Json} (hvalue : F.Printable value) (level : Nat) :
    d ∉ style.dumpValue F level value := by
  have hplain := plainChar_of_lineBreak h
  have hbrackets : d ≠ '[' ∧ d ≠ ']' ∧ d ≠ '{' ∧ d ≠ '}' := by
    rcases h with rfl | rfl <;> decide
  have hline : ∀ level, style.newline level = [] := by
    intro level
    simp [JsonStyle.newline, hstyle]
  induction hvalue generalizing level with
  | null => rcases h with rfl | rfl <;> simp [JsonStyle.dumpValue]
  | bool value => rcases h with rfl | rfl <;> cases value <;> simp [JsonStyle.dumpValue]
  | int value short => exact hplain.not_mem_int (F := F) (.int value short)
  | float value float =>
    refine hplain.not_mem_float (F := F) (.float value float) ?_
    rcases h with rfl | rfl <;> decide
  | str value => exact not_mem_quote h value
  | arr items each ih =>
    cases items with
    | nil => simp [JsonStyle.dumpValue, hbrackets]
    | cons item items =>
      have hitems : ∀ other ∈ items, d ∉ style.dumpValue F (level + 1) other := by
        intro other hother
        exact ih other (List.mem_cons_of_mem _ hother) (level + 1)
      have hitem := ih item List.mem_cons_self (level + 1)
      have hrest := not_mem_dumpItems hstyle h hitems
      simp [JsonStyle.dumpValue, hline, hitem, hrest, hbrackets]
  | obj fields keys each ih =>
    cases fields with
    | nil => simp [JsonStyle.dumpValue, hbrackets]
    | cons field fields =>
      obtain ⟨key, value⟩ := field
      have hfields : ∀ other ∈ fields, d ∉ style.dumpValue F (level + 1) other.2 := by
        intro other hother
        exact ih other (List.mem_cons_of_mem _ hother) (level + 1)
      have hfield := ih (key, value) List.mem_cons_self (level + 1)
      have hrest := not_mem_dumpFields hstyle h hfields
      have hkey : d ∉ style.quote key := not_mem_quote h key
      have hcolon : d ∉ style.colon := not_mem_colon h
      simp [JsonStyle.dumpValue, hline, hfield, hrest, hkey, hcolon, hbrackets]

theorem JsonStyle.unbroken_dumps (hstyle : style.indent = none) {value : Json}
    (hvalue : F.Printable value) : ∀ c ∈ (style.dumps F value).toList, ¬ IsLineBreak c := by
  intro c hc hbreak
  rw [JsonStyle.dumps, String.toList_ofList] at hc
  exact not_mem_dumpValue hstyle hbreak hvalue 0 hc

theorem JsonStyle.exists_dumps_obj (style : JsonStyle) (F : JsonFloats) (fields : Fields) :
    ∃ inner, (style.dumps F (.obj fields)).toList = '{' :: (inner ++ ['}']) := by
  rw [JsonStyle.dumps, String.toList_ofList]
  cases fields with
  | nil => exact ⟨[], rfl⟩
  | cons field fields =>
    refine ⟨style.newline 1 ++ (style.quote field.1 ++ (style.colon ++
      (style.dumpValue F 1 field.2 ++ (style.dumpFields F 1 fields ++ style.newline 0)))), ?_⟩
    simp [JsonStyle.dumpValue]

/-- A printed object is a line of a file. -/
theorem JsonStyle.plainLine_dumps (hstyle : style.indent = none) {fields : Fields}
    (hvalue : F.Printable (.obj fields)) : PlainLine (style.dumps F (.obj fields)) := by
  obtain ⟨inner, hinner⟩ := exists_dumps_obj style F fields
  refine ⟨unbroken_dumps hstyle hvalue, strip_of_tightEnds ⟨?_, ?_⟩, ?_⟩
  · intro c hc
    rw [hinner] at hc
    cases hc
    rfl
  · intro c hc
    rw [hinner, ← List.cons_append, List.getLast?_concat] at hc
    cases hc
    rfl
  · intro hempty
    rw [hempty] at hinner
    cases hinner

end Printed

end VirtualContributor.Lib
