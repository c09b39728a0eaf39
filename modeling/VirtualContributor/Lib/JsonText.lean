import VirtualContributor.Lib.Json

/-!
# JSON texts

`dumps` and `loads` are Python's `json.dumps` and `json.loads`.  The reader
takes one character at a time; a `Scan` is what it is in the middle of and the
arrays and objects around that.  Floats are read and printed by tables.

A Python text may contain lone surrogates, which a `String` has not; the reader
replaces one by U+FFFD.
-/

namespace VirtualContributor.Lib

/-- How reading a JSON text fails: with a `JSONDecodeError`, or with the
`ValueError` of an integer with too many digits. -/
inductive LoadError where
  | decode
  | tooManyDigits
deriving DecidableEq

/-! ## Numbers -/

/-- What has been read of a number. -/
inductive NumberState where
  | minus
  | zero
  | int
  | point
  | fraction
  | exponent
  | exponentSign
  | exponentDigits
deriving DecidableEq

namespace NumberState

/-- A number after one more character, if the character belongs to it. -/
def step : NumberState → Char → Option NumberState
  | .minus, c => if c = '0' then some .zero else if c.isDigit then some .int else none
  | .zero, c => if c = '.' then some .point else if c = 'e' || c = 'E' then some .exponent else none
  | .int, c =>
    if c.isDigit then some .int
    else if c = '.' then some .point
    else if c = 'e' || c = 'E' then some .exponent
    else none
  | .point, c => if c.isDigit then some .fraction else none
  | .fraction, c =>
    if c.isDigit then some .fraction else if c = 'e' || c = 'E' then some .exponent else none
  | .exponent, c =>
    if c.isDigit then some .exponentDigits
    else if c = '+' || c = '-' then some .exponentSign
    else none
  | .exponentSign, c => if c.isDigit then some .exponentDigits else none
  | .exponentDigits, c => if c.isDigit then some .exponentDigits else none

/-- The state after the first character of a number. -/
def start (c : Char) : Option NumberState :=
  if c = '-' then some .minus
  else if c = '0' then some .zero
  else if c.isDigit then some .int
  else none

def isInt : NumberState → Bool
  | .zero | .int => true
  | _ => false

def isFloat : NumberState → Bool
  | .fraction | .exponentDigits => true
  | _ => false

/-- The state after a number text. -/
def run : List Char → Option NumberState
  | [] => none
  | c :: rest => (start c).bind fun state => rest.foldlM step state

end NumberState

/-- How floats are read and printed, and which values a float has. -/
structure JsonFloats where
  float : String → JsonFloat
  repr : JsonFloat → String
  isFloat : JsonFloat → Bool
  float_repr : ∀ x, isFloat x = true → float (repr x) = x
  repr_literal : ∀ x, isFloat x = true →
    repr x = "Infinity" ∨ repr x = "-Infinity" ∨
      ∃ state, NumberState.run (repr x).toList = some state ∧ state.isFloat = true

def MAX_STR_DIGITS : Nat := 4300

/-- `int(text)` of an integer literal. -/
def intOf : List Char → Int
  | '-' :: digits => -Int.ofNat (Nat.ofDigitChars 10 digits 0)
  | digits => Int.ofNat (Nat.ofDigitChars 10 digits 0)

/-- The digits of the integer that a number text begins with. -/
def intDigits (text : List Char) : List Char :=
  (text.dropWhile (· = '-')).takeWhile Char.isDigit

section

variable (F : JsonFloats)

/-- The value of a number text.  A text that breaks off behind a point or an
`e` is read up to there, and what is left is no JSON. -/
def numberValue (text : List Char) (state : NumberState) : Except LoadError Json :=
  if state.isFloat then .ok (.float (F.float (String.ofList text)))
  else if state ≠ .point && '.' ∈ text then .error .decode
  else if MAX_STR_DIGITS < (intDigits text).length then .error .tooManyDigits
  else if state.isInt then .ok (.int (intOf text))
  else .error .decode

/-! ## Strings -/

inductive StringState where
  | plain
  | escape
  | hex (count value : Nat)
deriving DecidableEq

def hexDigit? (c : Char) : Option Nat :=
  if c.isDigit then some (c.toNat - '0'.toNat)
  else if 'a' ≤ c && c ≤ 'f' then some (c.toNat - 'a'.toNat + 10)
  else if 'A' ≤ c && c ≤ 'F' then some (c.toNat - 'A'.toNat + 10)
  else none

def isHighSurrogate (n : Nat) : Bool := 0xd800 ≤ n && n < 0xdc00

def isLowSurrogate (n : Nat) : Bool := 0xdc00 ≤ n && n < 0xe000

/-- One more code point; the two halves of a surrogate pair become one. -/
def addUnit (units : List Nat) (n : Nat) : List Nat :=
  match units.getLast? with
  | none => units ++ [n]
  | some high =>
    if isHighSurrogate high && isLowSurrogate n then
      units.dropLast ++ [0x10000 + (high - 0xd800) * 0x400 + (n - 0xdc00)]
    else units ++ [n]

def charOf (n : Nat) : Char := if n.isValidChar then Char.ofNat n else '\ufffd'

def textOf (units : List Nat) : String := String.ofList (units.map charOf)

/-- The code point of an escape of one character. -/
def escaped? : Char → Option Nat
  | '"' => some 34
  | '\\' => some 92
  | '/' => some 47
  | 'b' => some 8
  | 'f' => some 12
  | 'n' => some 10
  | 'r' => some 13
  | 't' => some 9
  | _ => none

/-! ## Scans -/

/-- An array or an object that has been opened; an `entry` waits for the value
of its key. -/
inductive Frame where
  | array (items : List Json)
  | object (fields : Fields)
  | entry (fields : Fields) (key : String)

inductive Mode where
  | value
  | firstItem
  | firstKey
  | key
  | colon
  | after
  | string (isKey : Bool) (units : List Nat) (state : StringState)
  | literal (rest : List Char) (value : Json)
  | number (text : List Char) (state : NumberState)

inductive Scan where
  | reading (mode : Mode) (frames : List Frame)
  | done (value : Json)

/-- Whether a character is one of the blanks of JSON. -/
def isJsonSpace (c : Char) : Bool := c = ' ' || c = '\t' || c = '\n' || c = '\r'

/-- `dict[key] = value`. -/
def setField : Fields → String → Json → Fields
  | [], key, value => [(key, value)]
  | field :: fields, key, value =>
    if field.1 = key then (key, value) :: fields else field :: setField fields key value

/-- A value has been read. -/
def complete (value : Json) : List Frame → Except LoadError Scan
  | [] => .ok (.done value)
  | .array items :: frames => .ok (.reading .after (.array (items ++ [value]) :: frames))
  | .entry fields key :: frames =>
    .ok (.reading .after (.object (setField fields key value) :: frames))
  | .object _ :: _ => .error .decode

/-- The first character of a value. -/
def beginValue (frames : List Frame) (c : Char) : Except LoadError Scan :=
  match c with
  | '"' => .ok (.reading (.string false [] .plain) frames)
  | '{' => .ok (.reading .firstKey (.object [] :: frames))
  | '[' => .ok (.reading .firstItem (.array [] :: frames))
  | 'n' => .ok (.reading (.literal "ull".toList .null) frames)
  | 't' => .ok (.reading (.literal "rue".toList (.bool true)) frames)
  | 'f' => .ok (.reading (.literal "alse".toList (.bool false)) frames)
  | 'N' => .ok (.reading (.literal "aN".toList (.float (F.float "NaN"))) frames)
  | 'I' => .ok (.reading (.literal "nfinity".toList (.float (F.float "Infinity"))) frames)
  | c =>
    match NumberState.start c with
    | some state => .ok (.reading (.number [c] state) frames)
    | none => .error .decode

/-- A character behind a value. -/
def afterValue (frames : List Frame) (c : Char) : Except LoadError Scan :=
  if isJsonSpace c then .ok (.reading .after frames)
  else
    match frames with
    | .array items :: outer =>
      if c = ',' then .ok (.reading .value frames)
      else if c = ']' then complete (.arr items) outer
      else .error .decode
    | .object fields :: outer =>
      if c = ',' then .ok (.reading .key frames)
      else if c = '}' then complete (.obj fields) outer
      else .error .decode
    | _ => .error .decode

/-- The end of a string. -/
def endString (isKey : Bool) (units : List Nat) (frames : List Frame) : Except LoadError Scan :=
  if isKey then
    match frames with
    | .object fields :: outer => .ok (.reading .colon (.entry fields (textOf units) :: outer))
    | _ => .error .decode
  else complete (.str (textOf units)) frames

/-- A character of a string. -/
def stepString (isKey : Bool) (units : List Nat) (frames : List Frame) (c : Char) :
    StringState → Except LoadError Scan
  | .plain =>
    if c = '"' then endString isKey units frames
    else if c = '\\' then .ok (.reading (.string isKey units .escape) frames)
    else if c.toNat < 32 then .error .decode
    else .ok (.reading (.string isKey (units ++ [c.toNat]) .plain) frames)
  | .escape =>
    if c = 'u' then .ok (.reading (.string isKey units (.hex 0 0)) frames)
    else
      match escaped? c with
      | some n => .ok (.reading (.string isKey (units ++ [n]) .plain) frames)
      | none => .error .decode
  | .hex count value =>
    match hexDigit? c with
    | none => .error .decode
    | some digit =>
      if count = 3 then
        .ok (.reading (.string isKey (addUnit units (16 * value + digit)) .plain) frames)
      else .ok (.reading (.string isKey units (.hex (count + 1) (16 * value + digit))) frames)

/-- A character of an object where a key may begin. -/
def beginKey (frames : List Frame) (c : Char) : Except LoadError Scan :=
  if c = '"' then .ok (.reading (.string true [] .plain) frames) else .error .decode

/-- A scan after one more character. -/
def Scan.step : Scan → Char → Except LoadError Scan
  | .done value, c => if isJsonSpace c then .ok (.done value) else .error .decode
  | .reading mode frames, c =>
    match mode with
    | .value => if isJsonSpace c then .ok (.reading .value frames) else beginValue F frames c
    | .firstItem =>
      if isJsonSpace c then .ok (.reading .firstItem frames)
      else if c = ']' then
        match frames with
        | .array items :: outer => complete (.arr items) outer
        | _ => .error .decode
      else beginValue F frames c
    | .firstKey =>
      if isJsonSpace c then .ok (.reading .firstKey frames)
      else if c = '}' then
        match frames with
        | .object fields :: outer => complete (.obj fields) outer
        | _ => .error .decode
      else beginKey frames c
    | .key => if isJsonSpace c then .ok (.reading .key frames) else beginKey frames c
    | .colon =>
      if isJsonSpace c then .ok (.reading .colon frames)
      else if c = ':' then .ok (.reading .value frames)
      else .error .decode
    | .after => afterValue frames c
    | .string isKey units state => stepString isKey units frames c state
    | .literal rest value =>
      match rest with
      | [] => .error .decode
      | [last] => if c = last then complete value frames else .error .decode
      | next :: rest =>
        if c = next then .ok (.reading (.literal rest value) frames) else .error .decode
    | .number text state =>
      match state.step c with
      | some state => .ok (.reading (.number (text ++ [c]) state) frames)
      | none =>
        if state = .minus && c = 'I' then
          .ok (.reading (.literal "nfinity".toList (.float (F.float "-Infinity"))) frames)
        else do
          let value ← numberValue F text state
          match frames with
          | [] => if isJsonSpace c then .ok (.done value) else .error .decode
          | frames => do
            let scan ← complete value frames
            match scan with
            | .reading _ frames => afterValue frames c
            | .done _ => .error .decode

/-- The value at the end of a text. -/
def Scan.finish : Scan → Except LoadError Json
  | .done value => .ok value
  | .reading (.number text state) frames => do
    let value ← numberValue F text state
    if frames.isEmpty then .ok value else .error .decode
  | .reading _ _ => .error .decode

/-- A scan after the characters of a text. -/
def Scan.run (scan : Scan) (text : List Char) : Except LoadError Scan :=
  text.foldlM (Scan.step F) scan

/-- `json.loads(text)`. -/
def loads (text : String) : Except LoadError Json := do
  let scan ← Scan.run F (.reading .value []) text.toList
  scan.finish F

end

/-! ## Printing -/

/-- The escape of one letter, for a character that has one. -/
def shortEscape? : Char → Option Char
  | '"' => some '"'
  | '\\' => some '\\'
  | '\n' => some 'n'
  | '\r' => some 'r'
  | '\t' => some 't'
  | '\x0c' => some 'f'
  | '\x08' => some 'b'
  | _ => none

/-- `'\\u{0:04x}'.format(n)`. -/
def unitText (n : Nat) : List Char :=
  ['\\', 'u', (n / 4096 % 16).digitChar, (n / 256 % 16).digitChar, (n / 16 % 16).digitChar,
    (n % 16).digitChar]

/-- A character in a string; what is not ASCII is escaped. -/
def escapeChar (c : Char) : List Char :=
  match shortEscape? c with
  | some letter => ['\\', letter]
  | none =>
    if 32 ≤ c.toNat && c.toNat < 127 then [c]
    else if c.toNat < 0x10000 then unitText c.toNat
    else
      unitText (0xd800 + (c.toNat - 0x10000) / 0x400) ++
        unitText (0xdc00 + (c.toNat - 0x10000) % 0x400)

def quote (text : String) : List Char := '"' :: text.toList.flatMap escapeChar ++ ['"']

section

variable (F : JsonFloats)

mutual

def dumpValue : Json → List Char
  | .null => "null".toList
  | .bool true => "true".toList
  | .bool false => "false".toList
  | .int value => (toString value).toList
  | .float value => (F.repr value).toList
  | .str value => quote value
  | .arr [] => "[]".toList
  | .arr (item :: items) => '[' :: dumpValue item ++ dumpItems items ++ [']']
  | .obj [] => "\x7b\x7d".toList
  | .obj ((key, value) :: fields) =>
    '{' :: quote key ++ [':', ' '] ++ dumpValue value ++ dumpFields fields ++ ['}']

/-- The items behind the first. -/
def dumpItems : List Json → List Char
  | [] => []
  | item :: items => [',', ' '] ++ dumpValue item ++ dumpItems items

/-- The fields behind the first. -/
def dumpFields : List (String × Json) → List Char
  | [] => []
  | (key, value) :: fields =>
    [',', ' '] ++ quote key ++ [':', ' '] ++ dumpValue value ++ dumpFields fields

end

/-- `json.dumps(value)`. -/
def dumps (value : Json) : String := String.ofList (dumpValue F value)

end

end VirtualContributor.Lib
