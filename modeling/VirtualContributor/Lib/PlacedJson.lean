import VirtualContributor.Lib.Json

/-!
# JSON values that know where they came from

A program that is handed a JSON value and builds new values from its parts
shares those parts with the value.  A `Placed` value is a JSON value whose
objects say whether they are objects of a given value, and at which place, or
were made since.  To write to an object at a place is to change the given
value, and to write to an object without a place is not.

There are four groups.

* Dictionaries as lists of fields: `putField` writes one key.
* Places: `valueAt` reads a value at a place, and `writeAt` writes a field of
  the object at a place.
* Placed values: `place` marks every object of a value with its place.
* Heights, which are what a recursion over placed values goes down on.
-/

namespace VirtualContributor.Lib

/-! ## Fields -/

/-- `fields[key] = value`. -/
def putField {κ ν : Type} [DecidableEq κ] : List (κ × ν) → κ → ν → List (κ × ν)
  | [], key, value => [(key, value)]
  | field :: fields, key, value =>
    if field.1 = key then (field.1, value) :: fields else field :: putField fields key value

section

variable {κ ν : Type} [DecidableEq κ]

theorem putField_ne_nil (fields : List (κ × ν)) (key : κ) (value : ν) :
    putField fields key value ≠ [] := by
  cases fields with
  | nil => simp [putField]
  | cons field fields =>
    rw [putField]
    split <;> simp

@[simp] theorem lookup_putField_self (fields : List (κ × ν)) (key : κ) (value : ν) :
    (putField fields key value).lookup key = some value := by
  induction fields with
  | nil => simp [putField]
  | cons field fields ih =>
    rw [putField]
    split
    · rename_i h
      simp [h]
    · rename_i h
      have hne : (key == field.1) = false := by simpa using Ne.symm h
      rw [List.lookup_cons, hne]
      exact ih

theorem lookup_putField_of_ne {fields : List (κ × ν)} {key other : κ} {value : ν}
    (h : other ≠ key) : (putField fields key value).lookup other = fields.lookup other := by
  induction fields with
  | nil =>
    have hne : (other == key) = false := by simpa using h
    rw [putField, List.lookup_cons, hne]
  | cons field fields ih =>
    rw [putField]
    split
    · rename_i hkey
      have hne : (other == field.1) = false := by simpa [hkey] using h
      rw [List.lookup_cons, List.lookup_cons, hne]
    · rw [List.lookup_cons, List.lookup_cons, ih]

end

/-! ## Places -/

/-- The way to a value from the top: which field or item to take at each level. -/
abbrev Place := List Nat

def Json.child? : Json → Nat → Option Json
  | .arr items, i => items[i]?
  | .obj fields, i => (fields[i]?).map Prod.snd
  | _, _ => none

def valueAt : Place → Json → Option Json
  | [], value => some value
  | i :: way, value => (value.child? i).bind (valueAt way)

/-- Write a field of the object at a place. -/
def writeAt (key : String) (value : Json) : Place → Json → Json
  | [], .obj fields => .obj (putField fields key value)
  | [], other => other
  | i :: way, .arr items => .arr (items.modify i (writeAt key value way))
  | i :: way, .obj fields =>
    .obj (fields.modify i fun field => (field.1, writeAt key value way field.2))
  | _ :: _, other => other

/-- There is an object at the place, and it has a field. -/
def FilledAt (way : Place) (value : Json) : Prop :=
  ∃ fields, fields ≠ [] ∧ valueAt way value = some (.obj fields)

theorem child?_writeAt (key : String) (new : Json) (i j : Nat) (way : Place) (value : Json) :
    (writeAt key new (j :: way) value).child? i =
      if j = i then (value.child? i).map (writeAt key new way) else value.child? i := by
  cases value with
  | arr items =>
    simp only [writeAt, Json.child?, List.getElem?_modify]
    split <;> simp
  | obj fields =>
    simp only [writeAt, Json.child?, List.getElem?_modify]
    split
    · cases fields[i]? <;> rfl
    · simp
  | null | bool | int | float | str => simp [writeAt, Json.child?]

/-- A write fills the object it writes to. -/
theorem filledAt_writeAt_self {key : String} {new : Json} {way : Place} :
    ∀ {value : Json} {fields : Fields}, valueAt way value = some (.obj fields) →
      FilledAt way (writeAt key new way value) := by
  induction way with
  | nil =>
    intro value fields h
    obtain rfl := Option.some.inj h
    exact ⟨_, putField_ne_nil fields key new, rfl⟩
  | cons i way ih =>
    intro value fields h
    obtain ⟨child, hchild, hat⟩ := Option.bind_eq_some_iff.mp h
    obtain ⟨filled, hfilled, hvalue⟩ := ih hat
    refine ⟨filled, hfilled, ?_⟩
    rw [valueAt, child?_writeAt, if_pos rfl, hchild]
    exact hvalue

/-- A write elsewhere at the same depth empties no object. -/
theorem FilledAt.writeAt {key : String} {new : Json} {way : Place} :
    ∀ {other : Place} {value : Json}, other.length = way.length → FilledAt way value →
      FilledAt way (writeAt key new other value) := by
  induction way with
  | nil =>
    intro other value hlength h
    obtain ⟨fields, _, hvalue⟩ := h
    obtain rfl := List.length_eq_zero_iff.mp hlength
    exact filledAt_writeAt_self hvalue
  | cons i way ih =>
    intro other value hlength h
    obtain ⟨fields, hfields, hvalue⟩ := h
    obtain ⟨child, hchild, hat⟩ := Option.bind_eq_some_iff.mp hvalue
    cases other with
    | nil => simp at hlength
    | cons j other =>
      have hlength' : other.length = way.length := by simpa using hlength
      by_cases hj : j = i
      · obtain ⟨filled, hfilled, hnew⟩ := ih hlength' ⟨fields, hfields, hat⟩
        refine ⟨filled, hfilled, ?_⟩
        rw [valueAt, child?_writeAt, if_pos hj, hchild]
        exact hnew
      · refine ⟨fields, hfields, ?_⟩
        rw [valueAt, child?_writeAt, if_neg hj]
        exact hvalue

/-! ## Placed values -/

/-- A JSON value whose objects have a place in a given value, or `none` when
they are no objects of it.  A key is what a dictionary sees of it. -/
inductive Placed where
  | null
  | bool (value : Bool)
  | int (value : Int)
  | float (value : JsonFloat)
  | str (value : String)
  | arr (items : List Placed)
  | obj (origin : Option Place) (fields : List (Hashed × Placed))

abbrev PlacedFields := List (Hashed × Placed)

/-- The place of a part of what is at a place. -/
def inside (origin : Option Place) (i : Nat) : Option Place := origin.map (· ++ [i])

mutual

def place (origin : Option Place) : Json → Placed
  | .null => .null
  | .bool value => .bool value
  | .int value => .int value
  | .float value => .float value
  | .str value => .str value
  | .arr items => .arr (placeItems origin 0 items)
  | .obj fields => .obj origin (placeFields origin 0 fields)

def placeItems (origin : Option Place) (i : Nat) : List Json → List Placed
  | [] => []
  | item :: items => place (inside origin i) item :: placeItems origin (i + 1) items

def placeFields (origin : Option Place) (i : Nat) : Fields → PlacedFields
  | [] => []
  | field :: fields =>
    (.text field.1, place (inside origin i) field.2) :: placeFields origin (i + 1) fields

end

@[simp] theorem place_obj (origin : Option Place) (fields : Fields) :
    place origin (.obj fields) = .obj origin (placeFields origin 0 fields) := by
  rw [place]

/-- A lookup in a placed object finds the placed value. -/
theorem lookup_placeFields {origin : Option Place} {key : String} :
    ∀ {fields : Fields} {i : Nat},
      (fields.lookup key = none ∧ (placeFields origin i fields).lookup (.text key) = none) ∨
      ∃ (k : Nat) (name : String) (value : Json), fields[k]? = some (name, value) ∧
        fields.lookup key = some value ∧
        (placeFields origin i fields).lookup (.text key) =
          some (place (inside origin (i + k)) value) := by
  intro fields
  induction fields with
  | nil =>
    intro i
    exact .inl ⟨rfl, rfl⟩
  | cons field fields ih =>
    intro i
    rw [placeFields, List.lookup_cons, List.lookup_cons]
    by_cases h : key = field.1
    · right
      refine ⟨0, field.1, field.2, rfl, ?_, ?_⟩ <;> simp [h]
    · have hkey : (key == field.1) = false := by simpa using h
      have htext : (Hashed.text key == Hashed.text field.1) = false := by simpa using h
      rw [hkey, htext]
      obtain hnone | ⟨k, name, value, hk, hvalue, hplaced⟩ := @ih (i + 1)
      · exact .inl hnone
      · right
        refine ⟨k + 1, name, value, hk, hvalue, ?_⟩
        rw [hplaced, show i + 1 + k = i + (k + 1) by omega]

namespace Placed

/-- What `bool`, `hash` and `type` see of a value. -/
def outline : Placed → Json
  | .null => .null
  | .bool value => .bool value
  | .int value => .int value
  | .float value => .float value
  | .str value => .str value
  | .arr items => .arr (items.map fun _ => .null)
  | .obj _ fields => .obj (fields.map fun _ => ("", .null))

def truthy (value : Placed) : Bool := value.outline.truthy

def isObj : Placed → Bool
  | .obj _ _ => true
  | _ => false

def isNull : Placed → Bool
  | .null => true
  | _ => false

@[simp] theorem truthy_obj (origin : Option Place) (fields : PlacedFields) :
    (Placed.obj origin fields).truthy = !fields.isEmpty := by
  cases fields <;> rfl

/-! ## Heights -/

mutual

/-- The number of levels of a value. -/
def height : Placed → Nat
  | .arr items => heightItems items + 1
  | .obj _ fields => heightFields fields + 1
  | _ => 0

def heightItems : List Placed → Nat
  | [] => 0
  | item :: items => max item.height (heightItems items)

def heightFields : PlacedFields → Nat
  | [] => 0
  | field :: fields => max field.2.height (heightFields fields)

end

@[simp] theorem height_arr (items : List Placed) : (arr items).height = heightItems items + 1 := by
  rw [height]

@[simp] theorem height_obj (origin : Option Place) (fields : PlacedFields) :
    (obj origin fields).height = heightFields fields + 1 := by
  rw [height]

theorem height_le_of_mem_items {item : Placed} {items : List Placed} (h : item ∈ items) :
    item.height ≤ heightItems items := by
  induction items with
  | nil => simp at h
  | cons first items ih =>
    rw [heightItems]
    obtain rfl | h := List.mem_cons.mp h
    · omega
    · have := ih h
      omega

theorem height_le_of_mem_fields {field : Hashed × Placed} {fields : PlacedFields}
    (h : field ∈ fields) : field.2.height ≤ heightFields fields := by
  induction fields with
  | nil => simp at h
  | cons first fields ih =>
    rw [heightFields]
    obtain rfl | h := List.mem_cons.mp h
    · omega
    · have := ih h
      omega

theorem height_le_of_lookup {fields : PlacedFields} {key : Hashed} {value : Placed}
    (h : fields.lookup key = some value) : value.height ≤ heightFields fields := by
  obtain ⟨before, after, rfl, _⟩ := List.lookup_eq_some_iff.mp h
  have hmem : (key, value) ∈ before ++ (key, value) :: after := by simp
  exact height_le_of_mem_fields hmem

theorem heightFields_filter_le (p : Hashed × Placed → Bool) (fields : PlacedFields) :
    heightFields (fields.filter p) ≤ heightFields fields := by
  induction fields with
  | nil => simp
  | cons field fields ih =>
    rw [List.filter_cons]
    split
    · rw [heightFields, heightFields]
      omega
    · rw [heightFields]
      omega

end Placed

end VirtualContributor.Lib
