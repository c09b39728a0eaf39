import VirtualContributor.Lib.Checks
import VirtualContributor.Lib.JsonRoundTrip

/-!
# Records as JSON objects

A `JsonCodec` writes the values of a type as JSON and reads them back; that it
reads what it has written is a field of it.  The values that `fits` have a JSON
text, so that they survive a file.

The codec of a record reads each of its fields by `JsonCodec.field`, which
looks a key up and falls back on a default.
-/

namespace VirtualContributor.Lib

/-- Why a value is not read. -/
inductive ReadCause where
  | missing
  | wrongType
  | refused (message : String)
deriving DecidableEq

/-- What is wrong in a value, and the keys that lead there. -/
structure ReadError where
  path : List String
  cause : ReadCause
deriving DecidableEq

structure JsonCodec (F : JsonFloats) (α : Type) where
  write : α → Json
  read : Json → Except ReadError α
  fits : α → Prop
  read_write : ∀ a, read (write a) = .ok a
  printable : ∀ a, fits a → F.Printable (write a)

namespace JsonCodec

variable {F : JsonFloats} {α : Type}

def wrongType : ReadError := ⟨[], .wrongType⟩

/-! ## Plain values -/

/-- The values that a partial function knows. -/
def plain (write : α → Json) (read? : Json → Option α) (fits : α → Prop)
    (read_write : ∀ a, read? (write a) = some a)
    (printable : ∀ a, fits a → F.Printable (write a)) : JsonCodec F α where
  write := write
  read value := (read? value).elim (.error wrongType) .ok
  fits := fits
  read_write a := by
    rw [read_write]
    rfl
  printable := printable

def text? : Json → Option String
  | .str value => some value
  | _ => none

def text : JsonCodec F String :=
  plain .str text? (fun _ => True) (fun _ => rfl) fun value _ => .str value

/-! ## Values of values -/

/-- `T | None` -/
def nullable (codec : JsonCodec F α) (ne_null : ∀ a, codec.write a ≠ .null) :
    JsonCodec F (Option α) where
  write value := value.elim .null codec.write
  read
    | .null => .ok none
    | value => some <$> codec.read value
  fits value := ∀ a ∈ value, codec.fits a
  read_write value := by
    cases value with
    | none => rfl
    | some a =>
      show (match codec.write a with
        | .null => Except.ok none
        | value => some <$> codec.read value) = _
      split
      · next hnull => exact absurd hnull (ne_null a)
      · rw [codec.read_write]
        rfl
  printable value h := by
    cases value with
    | none => exact .null
    | some a => exact codec.printable a (h a rfl)

theorem mapM_read_write (codec : JsonCodec F α) (items : List α) :
    (items.map codec.write).mapM codec.read = .ok items := by
  rw [mapM_eq_ok, List.forall₂_map_left_iff, List.forall₂_same]
  exact fun a _ => codec.read_write a

/-- `list[T]` -/
def list (codec : JsonCodec F α) : JsonCodec F (List α) where
  write items := .arr (items.map codec.write)
  read
    | .arr items => items.mapM codec.read
    | _ => .error wrongType
  fits items := ∀ a ∈ items, codec.fits a
  read_write := codec.mapM_read_write
  printable items h := by
    refine .arr _ ?_
    intro item hitem
    obtain ⟨a, ha, rfl⟩ := List.mem_map.mp hitem
    exact codec.printable a (h a ha)

def readEntry (codec : JsonCodec F α) (field : String × Json) : Except ReadError (String × α) :=
  match codec.read field.2 with
  | .ok a => .ok (field.1, a)
  | .error e => .error { e with path := field.1 :: e.path }

/-- `dict[str, T]` -/
def dict (codec : JsonCodec F α) : JsonCodec F (List (String × α)) where
  write fields := .obj (fields.map fun field => (field.1, codec.write field.2))
  read
    | .obj fields => fields.mapM codec.readEntry
    | _ => .error wrongType
  fits fields := (fields.map Prod.fst).Nodup ∧ ∀ field ∈ fields, codec.fits field.2
  read_write fields := by
    show (fields.map fun field => (field.1, codec.write field.2)).mapM codec.readEntry = _
    rw [mapM_eq_ok, List.forall₂_map_left_iff, List.forall₂_same]
    intro field _
    simp only [readEntry, codec.read_write]
  printable fields h := by
    refine .obj _ ?_ ?_
    · rw [List.map_map]
      exact h.1
    · intro field hfield
      obtain ⟨entry, hentry, rfl⟩ := List.mem_map.mp hfield
      exact codec.printable entry.2 (h.2 entry hentry)

/-- The values that pass a test. -/
def checked (codec : JsonCodec F α) (p : α → Prop) [DecidablePred p] (message : String) :
    JsonCodec F {a : α // p a} where
  write a := codec.write a.val
  read value := do
    let a ← codec.read value
    if h : p a then .ok ⟨a, h⟩ else .error ⟨[], .refused message⟩
  fits a := codec.fits a.val
  read_write a := by
    rw [codec.read_write]
    exact dif_pos a.property
  printable a := codec.printable a.val

/-! ## Fields -/

/-- The value of a key, or the default of a field that has one. -/
def field (codec : JsonCodec F α) (fields : Fields) (key : String) (default : Option α) :
    Except ReadError α :=
  match fields.lookup key with
  | none => default.elim (.error ⟨[key], .missing⟩) .ok
  | some value =>
    match codec.read value with
    | .ok a => .ok a
    | .error e => .error { e with path := key :: e.path }

theorem field_write (codec : JsonCodec F α) {fields : Fields} {key : String} {a : α}
    (h : fields.lookup key = some (codec.write a)) (default : Option α) :
    codec.field fields key default = .ok a := by
  simp only [field, h, codec.read_write]

/-- A field that is left out when it has its default, as `exclude_defaults` does. -/
def unlessDefault [DecidableEq α] (codec : JsonCodec F α) (key : String) (default a : α) :
    Fields :=
  if a = default then [] else [(key, codec.write a)]

theorem lookup_unlessDefault [DecidableEq α] (codec : JsonCodec F α) {key other : String}
    (default a : α) (h : other ≠ key) :
    (codec.unlessDefault key default a).lookup other = none := by
  unfold unlessDefault
  split
  · rfl
  · simp [List.lookup_cons, beq_eq_false_iff_ne.mpr h]

/-- A field that was left out is read as its default. -/
theorem field_unlessDefault [DecidableEq α] (codec : JsonCodec F α) {fields : Fields}
    {key : String} {default a : α}
    (h : fields.lookup key = (codec.unlessDefault key default a).lookup key) :
    codec.field fields key (some default) = .ok a := by
  by_cases ha : a = default
  · rw [unlessDefault, if_pos ha] at h
    rw [ha, field, h]
    rfl
  · rw [unlessDefault, if_neg ha] at h
    exact field_write codec (h.trans (List.lookup_cons_self ..)) _

theorem printable_unlessDefault [DecidableEq α] (codec : JsonCodec F α) {key : String}
    {default a : α} (h : codec.fits a) :
    ∀ field ∈ codec.unlessDefault key default a, F.Printable field.2 := by
  unfold unlessDefault
  split
  · simp
  · intro field hfield
    rw [List.mem_singleton.mp hfield]
    exact codec.printable a h

/-- A record, with the fields it is written as. -/
def record (dump : α → Fields) (ofFields : Fields → Except ReadError α) (fits : α → Prop)
    (ofFields_dump : ∀ a, ofFields (dump a) = .ok a) (keys : ∀ a, ((dump a).map Prod.fst).Nodup)
    (printable : ∀ a, fits a → ∀ field ∈ dump a, F.Printable field.2) : JsonCodec F α where
  write a := .obj (dump a)
  read
    | .obj fields => ofFields fields
    | _ => .error wrongType
  fits := fits
  read_write := ofFields_dump
  printable a h := .obj _ (keys a) (printable a h)

end JsonCodec

end VirtualContributor.Lib
