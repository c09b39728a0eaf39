import Mathlib.Data.Rat.Defs

/-!
# JSON values

A JSON object is a list of fields; the first field of a name counts.  The
values are the ones Python's reader makes of a JSON text, so a number written
with a fraction or an exponent is a float and any other number an int.

`Json.truthy`, `Json.len?`, `Json.elements` and `Json.hash?` are what Python's
`bool`, `len`, `iter` and `hash` do with such a value.
-/

namespace VirtualContributor.Lib

/-- The float of a JSON number; a number too large for a float is an infinity. -/
inductive JsonFloat where
  | finite (value : Rat)
  | infinite (negative : Bool)
deriving DecidableEq

inductive Json where
  | null
  | bool (value : Bool)
  | int (value : Int)
  | float (value : JsonFloat)
  | str (value : String)
  | arr (items : List Json)
  | obj (fields : List (String × Json))

/-- The fields of a JSON object. -/
abbrev Fields := List (String × Json)

/-- `fields.get(key, default)`. -/
def dictGet (fields : Fields) (key : String) (default : Json) : Json :=
  (fields.lookup key).getD default

/-- The value of a key of an object. -/
def Json.get? : Json → String → Option Json
  | .obj fields, key => fields.lookup key
  | _, _ => none

/-- Whether a value is an object. -/
def Json.isObj : Json → Bool
  | .obj _ => true
  | _ => false

/-! ## The value as a Python object -/

/-- `bool(value)`. -/
def Json.truthy : Json → Bool
  | .null => false
  | .bool value => value
  | .int value => value != 0
  | .float value => value != .finite 0
  | .str value => value != ""
  | .arr items => !items.isEmpty
  | .obj fields => !fields.isEmpty

/-- `type(value).__name__`. -/
def Json.typeName : Json → String
  | .null => "NoneType"
  | .bool _ => "bool"
  | .int _ => "int"
  | .float _ => "float"
  | .str _ => "str"
  | .arr _ => "list"
  | .obj _ => "dict"

/-- `len(value)`, for a value that has a length. -/
def Json.len? : Json → Option Nat
  | .str value => some value.toList.length
  | .arr items => some items.length
  | .obj fields => some fields.length
  | _ => none

/-- What a `for` loop over the value sees: a text's characters, a list's
items, a dictionary's keys. -/
def Json.elements : Json → List Json
  | .str value => value.toList.map fun c => .str (.singleton c)
  | .arr items => items
  | .obj fields => fields.map fun field => .str field.1
  | _ => []

theorem Json.length_elements {value : Json} {n : Nat} (h : value.len? = some n) :
    value.elements.length = n := by
  cases value <;> simp_all [Json.len?, Json.elements]

/-- What `hash` and `==` see of a hashable value.  A bool is an int, and an
int equals the float of its value. -/
inductive Hashed where
  | none
  | number (value : JsonFloat)
  | text (value : String)
deriving DecidableEq

/-- The key under which a set or a dictionary finds the value; lists and
dictionaries are not hashable. -/
def Json.hash? : Json → Option Hashed
  | .null => some .none
  | .bool value => some (.number (.finite (if value then 1 else 0)))
  | .int value => some (.number (.finite value))
  | .float value => some (.number value)
  | .str value => some (.text value)
  | .arr _ => none
  | .obj _ => none

@[simp] theorem Json.hash?_str (value : String) : (Json.str value).hash? = some (.text value) := rfl

@[simp] theorem Json.hash?_eq_text {value : Json} {text : String} :
    value.hash? = some (.text text) ↔ value = .str text := by
  cases value <;> simp [Json.hash?]

end VirtualContributor.Lib
