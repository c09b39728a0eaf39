import Mathlib.Data.List.Basic

/-!
# Format strings

`parse` is Python's `string.Formatter().parse`: it reads a format string from
left to right and yields pieces, a literal text and the replacement field
after it.  The pieces before a mistake are yielded before the mistake is
reported, so a result is a list of pieces and, for a malformed string, the
text of the `ValueError` that ends it.

The parser reads one character at a time; `Scan` says what it is in the
middle of.
-/

namespace VirtualContributor.Lib.FormatString

/-- A replacement field: `{fieldName!conversion:formatSpec}`. -/
structure Replacement where
  fieldName : String
  formatSpec : String
  conversion : Option Char
deriving DecidableEq

/-- A literal text and the replacement field that follows it, if one does. -/
structure Piece where
  literal : String
  field : Option Replacement
deriving DecidableEq

/-- The pieces that are yielded, and the message of the error after them. -/
structure Parsed where
  pieces : List Piece
  error : Option String
deriving DecidableEq

namespace Parsed

def done : Parsed := ⟨[], none⟩

def fail (message : String) : Parsed := ⟨[], some message⟩

def yield (piece : Piece) (rest : Parsed) : Parsed := ⟨piece :: rest.pieces, rest.error⟩

end Parsed

/-- What the parser has read since the last piece. -/
inductive Scan where
  | literal (text : List Char)
  | opened (text : List Char)
  | closed (text : List Char)
  | name (text name : List Char)
  | index (text name : List Char)
  | bang (text name : List Char)
  | converted (text name : List Char) (conversion : Char)
  | spec (text name : List Char) (conversion : Option Char) (spec : List Char) (depth : Nat)

def replacement (name : List Char) (conversion : Option Char) (spec : List Char) : Replacement :=
  ⟨.ofList name, .ofList spec, conversion⟩

/-- A conversion character of code zero is read as no conversion. -/
def conversionOf (c : Char) : Option Char := if c.toNat = 0 then none else some c

/-- The result when the string ends. -/
def finish : Scan → Parsed
  | .literal [] => .done
  | .literal text => .yield ⟨.ofList text, none⟩ .done
  | .opened _ => .fail "Single '\x7b' encountered in format string"
  | .closed _ => .fail "Single '\x7d' encountered in format string"
  | .name .. => .fail "expected '\x7d' before end of string"
  | .index .. => .fail "expected '\x7d' before end of string"
  | .bang .. => .fail "end of string while looking for conversion specifier"
  | .converted .. => .fail "unmatched '\x7b' in format spec"
  | .spec .. => .fail "unmatched '\x7b' in format spec"

/-- What a character does: it is read into the scan, or it ends a piece, or
it ends the parse. -/
inductive Move where
  | next (scan : Scan)
  | emit (piece : Piece)
  | fail (message : String)

/-- A character of a field name, outside of brackets. -/
def nameMove (text name : List Char) (c : Char) : Move :=
  if c = '{' then .fail "unexpected '\x7b' in field name"
  else if c = '[' then .next (.index text (name ++ [c]))
  else if c = '}' then .emit ⟨.ofList text, some (replacement name none [])⟩
  else if c = ':' then .next (.spec text name none [] 1)
  else if c = '!' then .next (.bang text name)
  else .next (.name text (name ++ [c]))

/-- One character. -/
def move : Scan → Char → Move
  | .literal text, c =>
    if c = '{' then .next (.opened text)
    else if c = '}' then .next (.closed text)
    else .next (.literal (text ++ [c]))
  | .opened text, c =>
    if c = '{' then .emit ⟨.ofList (text ++ [c]), none⟩ else nameMove text [] c
  | .closed text, c =>
    if c = '}' then .emit ⟨.ofList (text ++ [c]), none⟩
    else .fail "Single '\x7d' encountered in format string"
  | .name text name, c => nameMove text name c
  | .index text name, c =>
    if c = ']' then .next (.name text (name ++ [c])) else .next (.index text (name ++ [c]))
  | .bang text name, c => .next (.converted text name c)
  | .converted text name conversion, c =>
    if c = '}' then .emit ⟨.ofList text, some (replacement name (conversionOf conversion) [])⟩
    else if c = ':' then .next (.spec text name (conversionOf conversion) [] 1)
    else .fail "expected ':' after conversion specifier"
  | .spec text name conversion spec depth, c =>
    if c = '{' then .next (.spec text name conversion (spec ++ [c]) (depth + 1))
    else if c = '}' then
      if depth = 1 then .emit ⟨.ofList text, some (replacement name conversion spec)⟩
      else .next (.spec text name conversion (spec ++ [c]) (depth - 1))
    else .next (.spec text name conversion (spec ++ [c]) depth)

def run : Scan → List Char → Parsed
  | scan, [] => finish scan
  | scan, c :: rest =>
    match move scan c with
    | .next scan => run scan rest
    | .emit piece => .yield piece (run (.literal []) rest)
    | .fail message => .fail message

/-- `string.Formatter().parse(text)`. -/
def parse (text : String) : Parsed := run (.literal []) text.toList

example : parse "in \x7bbok_id\x7d \x7b\x7b\x7d\x7d" =
    ⟨[⟨"in ", some ⟨"bok_id", "", none⟩⟩, ⟨" \x7b", none⟩, ⟨"\x7d", none⟩], none⟩ := by
  decide +kernel

example : parse "\x7ba!r:>\x7bw\x7d\x7d \x7bb" =
    ⟨[⟨"", some ⟨"a", ">\x7bw\x7d", some 'r'⟩⟩], some "expected '\x7d' before end of string"⟩ := by
  decide +kernel

end VirtualContributor.Lib.FormatString
