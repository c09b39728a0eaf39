import Mathlib
import VirtualContributor.Lib.Checks
import VirtualContributor.Lib.FormatString
import VirtualContributor.Lib.TextTables

/-!
# Rendering format strings

`text.format_map(values)` for a dictionary of texts: the pieces of the format
string one after the other, each field replaced by its value after conversion
and formatting.  A format spec that contains a field of its own is rendered
first, with the same values.
-/

namespace VirtualContributor.Lib.FormatString

/-- What rendering a text reads beside the string: `ascii`, the decimal value
of a digit, and the formatting of what attributes and items of a text are. -/
structure FormatText extends PythonText where
  ascii : String → String
  decimal : Char → Option Nat
  formatPath : String → String → Option Char → String → Option String
  repr_nonempty : ∀ text : String, repr (.str text) ≠ ""
  ascii_nonempty : ∀ text : String, ascii text ≠ ""
  decimal_start : ∀ c : Char,
    (if c.toNat < 128 then c.isAlpha || c = '_' else xidStart c) = true → decimal c = none

inductive RenderError where
  | keyError (name : String)
  | valueError (message : String)
  | attribute (path : String)
deriving DecidableEq

/-! ## The format spec of a text -/

/-- A format spec.  `refused` says that it asks for what a text has not: a
sign, the alternate form, a coerced zero, a separator, or `=`. -/
structure TextFormat where
  fill : Char := ' '
  align : Char := '<'
  width : Nat := 0
  precision : Option Nat := none
  refused : Bool := false
deriving DecidableEq

def isAlign (c : Char) : Bool := c ∈ ['<', '>', '=', '^']

/-- The fill character and the alignment, and what follows them. -/
def takeAlign : List Char → Option Char × Option Char × List Char
  | fill :: align :: rest =>
    if isAlign align then (some fill, some align, rest)
    else if isAlign fill then (none, some fill, align :: rest)
    else (none, none, fill :: align :: rest)
  | [align] => if isAlign align then (none, some align, []) else (none, none, [align])
  | [] => (none, none, [])

/-- An optional character, and what follows it. -/
def takeOptional (accepts : Char → Bool) : List Char → Bool × List Char
  | [] => (false, [])
  | c :: rest => if accepts c then (true, rest) else (false, c :: rest)

def PY_SSIZE_T_MAX : Nat := 2 ^ 63 - 1

section

variable (T : FormatText)

/-- Digits, if there are any, and what follows them. -/
def takeNumber : Option Nat → List Char → Option Nat × List Char
  | n, [] => (n, [])
  | n, c :: rest =>
    match T.decimal c with
    | none => (n, c :: rest)
    | some digit => takeNumber (some (10 * n.getD 0 + digit)) rest

/-- A number that is too large for the index type is an error. -/
def checkNumber (n : Option Nat) : Except RenderError Unit :=
  if PY_SSIZE_T_MAX < n.getD 0 then
    .error (.valueError "Too many decimal digits in format string")
  else .ok ()

/-- The precision behind a point. -/
def takePrecision : List Char → Except RenderError (Option Nat × List Char)
  | '.' :: rest =>
    let (precision, rest) := takeNumber T none rest
    match precision with
    | none => .error (.valueError "Format specifier missing precision")
    | some _ => do
      checkNumber precision
      return (precision, rest)
  | rest => .ok (none, rest)

/-- The type, which is `s` for a text. -/
def checkType : List Char → Except RenderError Unit
  | [] => .ok ()
  | ['s'] => .ok ()
  | [_] => .error (.valueError "Unknown format code")
  | _ => .error (.valueError "Invalid format specifier")

def parseSpec (spec : List Char) : Except RenderError TextFormat := do
  let (fill, align, rest) := takeAlign spec
  let (sign, rest) := takeOptional (· ∈ [' ', '+', '-']) rest
  let (coerced, rest) := takeOptional (· = 'z') rest
  let (alternate, rest) := takeOptional (· = '#') rest
  let (zero, rest) := if fill.isNone then takeOptional (· = '0') rest else (false, rest)
  let (width, rest) := takeNumber T none rest
  checkNumber width
  let (thousands, rest) := takeOptional (fun c => c = ',' || c = '_') rest
  let (precision, rest) ← takePrecision T rest
  checkType rest
  return {
    fill := fill.getD (if zero then '0' else ' ')
    align := align.getD '<'
    width := width.getD 0
    precision
    refused := sign || coerced || alternate || thousands || align = some '=' }

/-- The padding on the left, out of all of it. -/
def leftPadding (align : Char) (padding : Nat) : Nat :=
  if align = '>' then padding else if align = '^' then padding / 2 else 0

/-- A text cut to the precision and padded to the width. -/
def TextFormat.apply (format : TextFormat) (value : String) : String :=
  let kept := match format.precision with
    | none => value.toList
    | some precision => value.toList.take precision
  let padding := format.width - kept.length
  let left := leftPadding format.align padding
  String.ofList (List.replicate left format.fill ++ kept ++
    List.replicate (padding - left) format.fill)

/-- `format(value, spec)` for a text. -/
def formatValue (value spec : String) : Except RenderError String :=
  if spec = "" then .ok value
  else do
    let format ← parseSpec T spec.toList
    if format.refused then .error (.valueError "not allowed in string format specifier")
    else return format.apply value

/-! ## Fields -/

/-- `!r`, `!s` and `!a`. -/
def convert (conversion : Option Char) (value : String) : Except RenderError String :=
  match conversion with
  | none => .ok value
  | some 's' => .ok value
  | some 'r' => .ok (T.repr (.str value))
  | some 'a' => .ok (T.ascii value)
  | some _ => .error (.valueError "Unknown conversion specifier")

/-- The name of a field up to a dot or a bracket, and the path behind it. -/
def splitName (fieldName : String) : String × String :=
  let name := fieldName.toList.takeWhile fun c => c ≠ '.' && c ≠ '['
  (String.ofList name, String.ofList (fieldName.toList.drop name.length))

/-- A field name that is no name: empty, or an index. -/
def isPositional (name : String) : Bool := name.toList.all fun c => (T.decimal c).isSome

variable (values : String → Option String)

/-- A field whose spec is rendered. -/
def formatField (field : Replacement) (spec : String) : Except RenderError String :=
  let (name, path) := splitName field.fieldName
  if isPositional T name then .error (.valueError "Format string contains positional fields")
  else
    match values name with
    | none => .error (.keyError name)
    | some value =>
      if path = "" then do
        let converted ← convert T field.conversion value
        formatValue T converted spec
      else
        match T.formatPath value path field.conversion spec with
        | none => .error (.attribute path)
        | some text => .ok text

/-- Whether a format spec has a field of its own. -/
def Replacement.expands (field : Replacement) : Bool := '{' ∈ field.formatSpec.toList

/-- A piece; `render` renders the format spec of its field. -/
def renderPiece (render : String → Except RenderError String) (piece : Piece) :
    Except RenderError String :=
  match piece.field with
  | none => .ok piece.literal
  | some field => do
    let spec ← if field.expands then render field.formatSpec else .ok field.formatSpec
    let text ← formatField T values field spec
    return piece.literal ++ text

/-- A format string at a depth of nesting. -/
def renderAt : Nat → String → Except RenderError String
  | 0, _ => .error (.valueError "Max string recursion exceeded")
  | depth + 1, text => do
    let parsed := parse text
    let rendered ← parsed.pieces.mapM (renderPiece T values (renderAt depth))
    match parsed.error with
    | some message => .error (.valueError message)
    | none => return String.ofList (rendered.flatMap String.toList)

/-- `text.format_map(values)`. -/
def formatMap (text : String) : Except RenderError String := renderAt T values 2 text

end

/-! ## Literal substitution -/

/-- A piece with its field replaced by the value of the field. -/
def fillPiece (values : String → Option String) (piece : Piece) : String :=
  piece.literal ++
    match piece.field with
    | none => ""
    | some field => (values field.fieldName).getD ""

/-- A format string with each field replaced by its value. -/
def literalFill (values : String → Option String) (text : String) : String :=
  String.ofList ((parse text).pieces.flatMap fun piece => (fillPiece values piece).toList)

/-- A field that renders every value as it is: no conversion but `!s`, no
field in its format spec, and a format spec for texts without a width and
without a precision. -/
structure Replacement.Neutral (T : FormatText) (field : Replacement) : Prop where
  conversion : field.conversion = none ∨ field.conversion = some 's'
  fixed : field.expands = false
  spec : ∃ format, parseSpec T field.formatSpec.toList = .ok format ∧ format.refused = false ∧
    format.width = 0 ∧ format.precision = none

/-- In related lists whose items are in order of size and that have the same
total, related items have the same size. -/
theorem forall₂_eq_of_sum_eq {α β : Type} {R : α → β → Prop} {f : α → Nat} {g : β → Nat}
    {xs : List α} {ys : List β} (h : List.Forall₂ R xs ys) (hle : ∀ x y, R x y → f x ≤ g y)
    (hsum : (xs.map f).sum = (ys.map g).sum) :
    List.Forall₂ (fun x y => R x y ∧ f x = g y) xs ys := by
  have htotal : ∀ {xs : List α} {ys : List β}, List.Forall₂ R xs ys →
      (xs.map f).sum ≤ (ys.map g).sum := by
    intro xs ys h
    induction h with
    | nil => exact Nat.le_refl 0
    | cons hxy _ ih =>
      rw [List.map_cons, List.map_cons, List.sum_cons, List.sum_cons]
      exact Nat.add_le_add (hle _ _ hxy) ih
  induction h with
  | nil => exact .nil
  | cons hxy hrest ih =>
    have hfirst := hle _ _ hxy
    have hothers := htotal hrest
    rw [List.map_cons, List.map_cons, List.sum_cons, List.sum_cons] at hsum
    exact .cons ⟨hxy, by omega⟩ (ih (by omega))

section

variable {T : FormatText}

/-! ## Formatted texts -/

/-- What the precision leaves of a text. -/
def TextFormat.keptLength (format : TextFormat) (value : String) : Nat :=
  match format.precision with
  | none => value.length
  | some precision => min precision value.length

theorem leftPadding_le (align : Char) (padding : Nat) : leftPadding align padding ≤ padding := by
  unfold leftPadding
  split
  · exact Nat.le_refl _
  · split
    · exact Nat.div_le_self _ _
    · exact Nat.zero_le _

theorem length_apply (format : TextFormat) (value : String) :
    (format.apply value).length = max format.width (format.keptLength value) := by
  have hkept : (match format.precision with
      | none => value.toList
      | some precision => value.toList.take precision).length = format.keptLength value := by
    unfold TextFormat.keptLength
    split
    · exact String.length_toList
    · rw [List.length_take, String.length_toList]
  have hleft := leftPadding_le format.align (format.width - format.keptLength value)
  unfold TextFormat.apply
  dsimp only
  rw [String.length_ofList, List.length_append, List.length_append, List.length_replicate,
    List.length_replicate, hkept]
  omega

theorem apply_neutral {format : TextFormat} (hwidth : format.width = 0)
    (hprecision : format.precision = none) (value : String) : format.apply value = value := by
  have hpadding : leftPadding format.align 0 = 0 := Nat.le_zero.mp (leftPadding_le _ _)
  unfold TextFormat.apply
  rw [hprecision, hwidth]
  dsimp only
  rw [Nat.zero_sub, hpadding, List.replicate_zero, List.nil_append, List.append_nil,
    String.ofList_toList]

theorem parseSpec_nil : parseSpec T [] = .ok {} := rfl

theorem formatValue_eq_ok {value spec text : String} :
    formatValue T value spec = .ok text ↔
      ∃ format, parseSpec T spec.toList = .ok format ∧ format.refused = false ∧
        text = format.apply value := by
  unfold formatValue
  by_cases hempty : spec = ""
  · rw [if_pos hempty, hempty]
    constructor
    · intro h
      refine ⟨{}, parseSpec_nil, rfl, ?_⟩
      rw [apply_neutral rfl rfl]
      exact (Except.ok.inj h).symm
    · intro h
      obtain ⟨format, hformat, -, htext⟩ := h
      obtain rfl := Except.ok.inj (parseSpec_nil.symm.trans hformat)
      rw [htext, apply_neutral rfl rfl]
  · rw [if_neg hempty, bind_eq_ok]
    apply exists_congr
    intro format
    apply and_congr_right
    intro _
    split
    · rename_i hrefused
      rw [hrefused]
      exact iff_of_false nofun (fun h => Bool.false_ne_true h.1.symm)
    · rename_i hrefused
      rw [Bool.not_eq_true] at hrefused
      rw [hrefused]
      exact ⟨fun h => ⟨rfl, (Except.ok.inj h).symm⟩, fun h => congrArg Except.ok h.2.symm⟩

/-! ## Fields that name a variable -/

/-- An identifier begins with a character that may begin one, and has no dots
and no brackets. -/
theorem isidentifier_cases {name : String} (h : T.isidentifier name = true) :
    (∃ c rest, name.toList = c :: rest ∧
      (if c.toNat < 128 then c.isAlpha || c = '_' else T.xidStart c) = true) ∧
        ∀ c ∈ name.toList, c ≠ '.' ∧ c ≠ '[' := by
  unfold PythonText.isidentifier at h
  split at h
  · exact absurd h Bool.false_ne_true
  · rename_i c rest hname
    rw [Bool.and_eq_true, List.all_eq_true] at h
    rw [hname]
    refine ⟨⟨c, rest, rfl, h.1⟩, fun d hd => ?_⟩
    cases List.mem_cons.mp hd with
    | inl hd =>
      rw [hd]
      constructor
      · rintro rfl
        exact absurd h.1 (by rw [if_pos (by decide)]; decide)
      · rintro rfl
        exact absurd h.1 (by rw [if_pos (by decide)]; decide)
    | inr hd =>
      have hrest := h.2 d hd
      constructor
      · rintro rfl
        exact absurd hrest (by rw [if_pos (by decide)]; decide)
      · rintro rfl
        exact absurd hrest (by rw [if_pos (by decide)]; decide)

theorem splitName_of_isidentifier {name : String} (h : T.isidentifier name = true) :
    splitName name = (name, "") := by
  have hwhole : (name.toList.takeWhile fun c => c ≠ '.' && c ≠ '[') = name.toList := by
    rw [List.takeWhile_eq_self_iff]
    intro c hc
    have hne := (isidentifier_cases h).2 c hc
    simp [hne.1, hne.2]
  unfold splitName
  dsimp only
  rw [hwhole, List.drop_length, String.ofList_toList]

theorem isPositional_of_isidentifier {name : String} (h : T.isidentifier name = true) :
    isPositional T name = false := by
  obtain ⟨c, rest, hname, hstart⟩ := (isidentifier_cases h).1
  unfold isPositional
  rw [hname, List.all_cons, T.decimal_start c hstart]
  rfl

/-- A field that names a variable renders the converted and formatted value. -/
theorem formatField_of_isidentifier {values : String → Option String} {field : Replacement}
    (h : T.isidentifier field.fieldName = true) {value : String}
    (hvalue : values field.fieldName = some value) (spec : String) :
    formatField T values field spec =
      convert T field.conversion value >>= fun converted => formatValue T converted spec := by
  unfold formatField
  rw [splitName_of_isidentifier h]
  dsimp only
  rw [isPositional_of_isidentifier h, hvalue]
  rfl

/-! ## Templates whose fields name variables -/

/-- The fields of a format string. -/
def templateFields (text : String) : List Replacement := (parse text).pieces.filterMap Piece.field

/-- A field that names a variable with a value, and whose spec has no field. -/
structure Plainly (T : FormatText) (values : String → Option String) (field : Replacement) :
    Prop where
  name : T.isidentifier field.fieldName = true
  fixed : field.expands = false
  value : (values field.fieldName).isSome = true

variable {values : String → Option String} {render : String → Except RenderError String}

/-- The text of a field of a value. -/
def fieldText (T : FormatText) (field : Replacement) (value : String) :
    Except RenderError String :=
  convert T field.conversion value >>= fun converted => formatValue T converted field.formatSpec

theorem renderPiece_eq {piece : Piece} (h : ∀ field, piece.field = some field →
    Plainly T values field) :
    renderPiece T values render piece =
      match piece.field with
      | none => .ok piece.literal
      | some field =>
        fieldText T field ((values field.fieldName).getD "") >>= fun text =>
          .ok (piece.literal ++ text) := by
  unfold renderPiece
  cases hfield : piece.field with
  | none => rfl
  | some field =>
    obtain ⟨hname, hfixed, hvalue⟩ := h field hfield
    obtain ⟨value, hvalue⟩ := Option.isSome_iff_exists.mp hvalue
    dsimp only
    rw [hfixed, if_neg Bool.false_ne_true, hvalue]
    dsimp only [bind, Except.bind]
    rw [formatField_of_isidentifier hname hvalue]
    rfl

/-- A neutral field renders its value. -/
theorem fieldText_neutral {field : Replacement} (h : field.Neutral T) (value : String) :
    fieldText T field value = .ok value := by
  obtain ⟨format, hformat, hrefused, hwidth, hprecision⟩ := h.spec
  have hconvert : convert T field.conversion value = .ok value := by
    obtain hnone | hs := h.conversion
    · rw [hnone]
      rfl
    · rw [hs]
      rfl
  unfold fieldText
  rw [hconvert]
  show formatValue T value field.formatSpec = .ok value
  rw [formatValue_eq_ok]
  exact ⟨format, hformat, hrefused, (apply_neutral hwidth hprecision value).symm⟩

theorem renderAt_eq_ok {depth : Nat} {text rendered : String} (herror : (parse text).error = none) :
    renderAt T values (depth + 1) text = .ok rendered ↔
      ∃ texts, List.Forall₂ (fun piece text =>
        renderPiece T values (renderAt T values depth) piece = .ok text) (parse text).pieces texts ∧
          rendered = String.ofList (texts.flatMap String.toList) := by
  rw [renderAt, bind_eq_ok]
  simp only [mapM_eq_ok]
  apply exists_congr
  intro texts
  rw [herror]
  exact and_congr_right fun _ =>
    ⟨fun h => (Except.ok.inj h).symm, fun h => congrArg Except.ok h.symm⟩

theorem mem_templateFields {text : String} {piece : Piece} (hpiece : piece ∈ (parse text).pieces)
    {field : Replacement} (hfield : piece.field = some field) : field ∈ templateFields text :=
  List.mem_filterMap.mpr ⟨piece, hpiece, hfield⟩

/-- A template of neutral fields is filled literally. -/
theorem formatMap_of_neutral {text : String} (herror : (parse text).error = none)
    (h : ∀ field ∈ templateFields text, Plainly T values field ∧ field.Neutral T) :
    formatMap T values text = .ok (literalFill values text) := by
  unfold formatMap
  rw [renderAt_eq_ok herror]
  refine ⟨(parse text).pieces.map (fillPiece values), ?_, ?_⟩
  · rw [List.forall₂_map_right_iff, List.forall₂_same]
    intro piece hpiece
    have hfields : ∀ field, piece.field = some field → Plainly T values field ∧ field.Neutral T :=
      fun field hfield => h field (mem_templateFields hpiece hfield)
    rw [renderPiece_eq fun field hfield => (hfields field hfield).1]
    unfold fillPiece
    cases hfield : piece.field with
    | none => rw [String.append_empty]
    | some field =>
      dsimp only
      rw [fieldText_neutral (hfields field hfield).2]
      rfl
  · unfold literalFill
    rw [List.flatMap_map]

/-! ## Templates that are filled literally -/

/-- The text of a piece when its field has a value. -/
def pieceText (T : FormatText) (value : String) (piece : Piece) : Except RenderError String :=
  match piece.field with
  | none => .ok piece.literal
  | some field => fieldText T field value >>= fun text => .ok (piece.literal ++ text)

/-- The length of a piece that is filled literally. -/
def filledLength (value : String) (piece : Piece) : Nat :=
  piece.literal.length + if piece.field.isSome then value.length else 0

/-- If a template is filled literally, its pieces have texts whose length is
that of the filled pieces in total. -/
theorem pieceTexts_of_literal {text value : String} (herror : (parse text).error = none)
    (hplain : ∀ field ∈ templateFields text,
      Plainly T values field ∧ values field.fieldName = some value)
    (h : formatMap T values text = .ok (literalFill values text)) :
    ∃ texts, List.Forall₂ (fun piece text => pieceText T value piece = .ok text)
        (parse text).pieces texts ∧
      ((parse text).pieces.map (filledLength value)).sum = (texts.map String.length).sum := by
  have hfields : ∀ piece ∈ (parse text).pieces, ∀ field, piece.field = some field →
      Plainly T values field ∧ values field.fieldName = some value :=
    fun piece hpiece field hfield => hplain field (mem_templateFields hpiece hfield)
  unfold formatMap at h
  obtain ⟨texts, htexts, hjoined⟩ := (renderAt_eq_ok herror).mp h
  refine ⟨texts, ?_, ?_⟩
  · refine (((List.forall₂_and_left _ _).mpr ⟨hfields, htexts⟩).imp ?_)
    intro piece text hpiece
    obtain ⟨hfield, hrender⟩ := hpiece
    rw [renderPiece_eq fun field h => (hfield field h).1] at hrender
    unfold pieceText
    cases hsome : piece.field with
    | none =>
      rw [hsome] at hrender
      exact hrender
    | some field =>
      rw [hsome] at hrender
      dsimp only at hrender ⊢
      rw [(hfield field hsome).2] at hrender
      exact hrender
  · have hlength := congrArg String.length hjoined
    unfold literalFill at hlength
    rw [String.length_ofList, String.length_ofList, List.length_flatMap, List.length_flatMap]
      at hlength
    have htotal : (texts.map fun text => text.toList.length) = texts.map String.length :=
      List.map_congr_left fun text _ => String.length_toList
    have hfilled : ((parse text).pieces.map fun piece => (fillPiece values piece).toList.length) =
        (parse text).pieces.map (filledLength value) := by
      apply List.map_congr_left
      intro piece hpiece
      unfold fillPiece filledLength
      rw [String.length_toList, String.length_append]
      cases hsome : piece.field with
      | none => rfl
      | some field =>
        dsimp only
        rw [(hfields piece hpiece field hsome).2]
        rfl
    rw [← hfilled, ← htotal]
    exact hlength

/-- A template that is filled literally where every variable is empty renders
every empty value as the empty text. -/
theorem fieldText_empty {text : String} (herror : (parse text).error = none)
    (hplain : ∀ field ∈ templateFields text,
      Plainly T values field ∧ values field.fieldName = some "")
    (h : formatMap T values text = .ok (literalFill values text)) :
    ∀ field ∈ templateFields text, fieldText T field "" = .ok "" := by
  obtain ⟨texts, htexts, hsum⟩ := pieceTexts_of_literal herror hplain h
  have hsame := forall₂_eq_of_sum_eq htexts (by
    intro piece text hpiece
    unfold pieceText at hpiece
    unfold filledLength
    rw [String.length_empty, ite_self, Nat.add_zero]
    split at hpiece
    · rw [← Except.ok.inj hpiece]
    · obtain ⟨g, -, hg⟩ := bind_eq_ok.mp hpiece
      rw [← Except.ok.inj hg, String.length_append]
      exact Nat.le_add_right _ _) hsum
  intro field hfield
  obtain ⟨piece, hpiece, hsome⟩ := List.mem_filterMap.mp hfield
  obtain ⟨rendered, -, hrendered, hlength⟩ := exists_right_of_forall₂ hsame hpiece
  unfold pieceText at hrendered
  rw [hsome] at hrendered
  obtain ⟨g, hg, hrendered⟩ := bind_eq_ok.mp hrendered
  rw [← Except.ok.inj hrendered, String.length_append] at hlength
  unfold filledLength at hlength
  rw [String.length_empty, ite_self, Nat.add_zero] at hlength
  have hempty : g = "" := String.length_eq_zero_iff.mp (by omega)
  rw [hg, hempty]

/-- A field that renders the empty value as it is pads nothing, and it
converts nothing or keeps nothing. -/
theorem spec_of_fieldText_empty {field : Replacement} (h : fieldText T field "" = .ok "") :
    ∃ format, parseSpec T field.formatSpec.toList = .ok format ∧ format.refused = false ∧
      format.width = 0 ∧
        ((field.conversion = none ∨ field.conversion = some 's') ∨ format.precision = some 0) := by
  obtain ⟨converted, hconverted, hformat⟩ := bind_eq_ok.mp h
  obtain ⟨format, hparse, hrefused, hempty⟩ := formatValue_eq_ok.mp hformat
  have hlength := congrArg String.length hempty
  rw [length_apply, String.length_empty] at hlength
  have hkept : format.keptLength converted = 0 := by omega
  refine ⟨format, hparse, hrefused, by omega, ?_⟩
  unfold TextFormat.keptLength at hkept
  by_cases hprecision : format.precision = some 0
  · exact .inr hprecision
  · have hnothing : converted = "" := by
      split at hkept
      · exact String.length_eq_zero_iff.mp hkept
      · rename_i precision hsome
        have hne : precision ≠ 0 := by
          rintro rfl
          exact hprecision hsome
        exact String.length_eq_zero_iff.mp (by omega)
    rw [hnothing] at hconverted
    left
    unfold convert at hconverted
    split at hconverted
    · exact .inl (by assumption)
    · exact .inr (by assumption)
    · exact absurd (Except.ok.inj hconverted) (T.repr_nonempty "")
    · exact absurd (Except.ok.inj hconverted) (T.ascii_nonempty "")
    · exact absurd hconverted nofun

/-- The precision of a field, or zero. -/
def precisionOf (T : FormatText) (field : Replacement) : Nat :=
  match parseSpec T field.formatSpec.toList with
  | .ok format => format.precision.getD 0
  | .error _ => 0

/-- A field that renders the empty value as it is renders no more than a long
value, and all of it only if the field is neutral. -/
theorem length_fieldText {field : Replacement} (hfixed : field.expands = false)
    (hempty : fieldText T field "" = .ok "") {value text : String}
    (hlong : precisionOf T field < value.length) (h : fieldText T field value = .ok text) :
    text.length ≤ value.length ∧ (text.length = value.length → field.Neutral T) := by
  obtain ⟨format, hparse, hrefused, hwidth, hcases⟩ := spec_of_fieldText_empty hempty
  obtain ⟨converted, hconverted, hformat⟩ := bind_eq_ok.mp h
  obtain ⟨format', hparse', -, htext⟩ := formatValue_eq_ok.mp hformat
  obtain rfl := Except.ok.inj (hparse.symm.trans hparse')
  have hlength := congrArg String.length htext
  rw [length_apply, hwidth, Nat.zero_max] at hlength
  unfold precisionOf at hlong
  rw [hparse] at hlong
  dsimp only at hlong
  unfold TextFormat.keptLength at hlength
  cases hprecision : format.precision with
  | none =>
    rw [hprecision] at hlength hcases
    have hconversion := hcases.resolve_right (Option.some_ne_none 0).symm
    have hsame : converted = value := by
      obtain hnone | hs := hconversion
      · rw [hnone] at hconverted
        exact (Except.ok.inj hconverted).symm
      · rw [hs] at hconverted
        exact (Except.ok.inj hconverted).symm
    rw [hsame] at hlength
    exact ⟨Nat.le_of_eq hlength,
      fun _ => ⟨hconversion, hfixed, format, hparse, hrefused, hwidth, hprecision⟩⟩
  | some precision =>
    rw [hprecision] at hlength hlong
    dsimp only [Option.getD_some] at hlength hlong
    constructor
    · omega
    · intro hall
      omega

/-- If a template is filled literally where every variable is empty and where
every variable is long, its fields are neutral. -/
theorem neutral_of_formatMap {text : String} (herror : (parse text).error = none)
    (hfixed : ∀ field ∈ templateFields text, field.expands = false)
    (h : ∀ value : String, ∃ values, (∀ field ∈ templateFields text,
      Plainly T values field ∧ values field.fieldName = some value) ∧
        formatMap T values text = .ok (literalFill values text)) :
    ∀ field ∈ templateFields text, field.Neutral T := by
  obtain ⟨valuesEmpty, hplainEmpty, hliteralEmpty⟩ := h ""
  have hempty := fieldText_empty herror hplainEmpty hliteralEmpty
  -- a value that is longer than every precision
  let value := String.ofList
    (List.replicate (((templateFields text).map (precisionOf T)).sum + 1) 'x')
  have hlong : ∀ field ∈ templateFields text, precisionOf T field < value.length := by
    intro field hfield
    have hle : precisionOf T field ≤ ((templateFields text).map (precisionOf T)).sum :=
      List.single_le_sum (fun _ _ => Nat.zero_le _) _ (List.mem_map_of_mem hfield)
    rw [String.length_ofList, List.length_replicate]
    omega
  obtain ⟨values, hplain, hliteral⟩ := h value
  obtain ⟨texts, htexts, hsum⟩ := pieceTexts_of_literal herror hplain hliteral
  have hpieces : List.Forall₂ (fun piece text' => (∀ field, piece.field = some field →
      field ∈ templateFields text) ∧ pieceText T value piece = .ok text')
      (parse text).pieces texts :=
    (List.forall₂_and_left _ _).mpr
      ⟨fun piece hpiece field hfield => mem_templateFields hpiece hfield, htexts⟩
  have hbound : ∀ piece text', (∀ field, piece.field = some field → field ∈ templateFields text) →
      pieceText T value piece = .ok text' → text'.length ≤ filledLength value piece ∧
        (text'.length = filledLength value piece →
          ∀ field, piece.field = some field → field.Neutral T) := by
    intro piece text' hfields hpiece
    unfold pieceText at hpiece
    unfold filledLength
    cases hsome : piece.field with
    | none =>
      rw [hsome] at hpiece
      rw [← Except.ok.inj hpiece]
      exact ⟨Nat.le_add_right _ _, fun _ field hfield => absurd hfield nofun⟩
    | some field =>
      rw [hsome] at hpiece
      obtain ⟨g, hg, hpiece⟩ := bind_eq_ok.mp hpiece
      have hmem := hfields field hsome
      obtain ⟨hle, hneutral⟩ :=
        length_fieldText (hfixed field hmem) (hempty field hmem) (hlong field hmem) hg
      rw [← Except.ok.inj hpiece, String.length_append, Option.isSome_some, if_pos rfl]
      refine ⟨Nat.add_le_add_left hle _, fun hall field' hfield' => ?_⟩
      rw [← Option.some.inj hfield']
      exact hneutral (Nat.add_left_cancel hall)
  have hsame := forall₂_eq_of_sum_eq hpieces.flip (fun text' piece hpiece =>
    (hbound piece text' hpiece.1 hpiece.2).1) hsum.symm
  intro field hfield
  obtain ⟨piece, hpiece, hsome⟩ := List.mem_filterMap.mp hfield
  obtain ⟨text', -, hrendered, hlength⟩ := exists_left_of_forall₂ hsame hpiece
  exact (hbound piece text' hrendered.1 hrendered.2).2 hlength field hsome

end

end VirtualContributor.Lib.FormatString
