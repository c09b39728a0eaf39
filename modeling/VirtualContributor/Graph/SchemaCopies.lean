import VirtualContributor.Graph.StateSchema
import VirtualContributor.Lib.Checks

/-!
# What the normalization of a schema copies

`_normalize_schema` is a sequence of parts, and each part rewrites a few keys
of the schema from the schemas it finds under one of them.  `IsPart` says what
a part reads, what it may write and when it raises, and `IsPart.comp` composes
two parts of different keys.

There are four groups.

* Parts and their composition.
* The three kinds of parts: the properties, an inner schema, a list of
  schemas.
* The recursion.  `normalizeSchema_eq` says that `normalizeSchema` satisfies
  the equation of the source.
* What it returns.  It raises only for the name of a listed property that is
  not hashable (`normalizeSchema_ok_iff`), and the dictionary it returns is a
  new one, which is empty only when the schema is (`normalizeSchema_obj`).
-/

namespace VirtualContributor.Graph

open Lib

/-! ## Parts -/

/-- A way to rewrite a schema that uses `normalize` for the schemas in it. -/
abbrev Part := (Placed → Except Raised Placed) → PlacedFields → Except Raised PlacedFields

/-- What a part does: it works on `keys` only, it normalises the schemas
`inner`, and it raises an exception of its own unless `names` holds. -/
structure IsPart (keys : List Hashed) (inner : PlacedFields → List Placed)
    (names : PlacedFields → Prop) (part : Part) : Prop where
  inner_congr : ∀ {schema schema' : PlacedFields},
    (∀ key ∈ keys, schema'.lookup key = schema.lookup key) → inner schema' = inner schema
  names_congr : ∀ {schema schema' : PlacedFields},
    (∀ key ∈ keys, schema'.lookup key = schema.lookup key) → (names schema' ↔ names schema)
  frame : ∀ {f : Placed → Except Raised Placed} {schema schema' : PlacedFields},
    part f schema = .ok schema' → ∀ key ∉ keys, schema'.lookup key = schema.lookup key
  empty : ∀ {f : Placed → Except Raised Placed} {schema schema' : PlacedFields},
    part f schema = .ok schema' → (schema' = [] ↔ schema = [])
  congr : ∀ {f g : Placed → Except Raised Placed} {schema : PlacedFields},
    (∀ child ∈ inner schema, f child = g child) → part f schema = part g schema
  ok : ∀ {f : Placed → Except Raised Placed} {schema : PlacedFields},
    (∃ schema', part f schema = .ok schema') ↔
      names schema ∧ ∀ child ∈ inner schema, ∃ value, f child = .ok value

theorem IsPart.comp {keys₁ keys₂ : List Hashed} {inner₁ inner₂ : PlacedFields → List Placed}
    {names₁ names₂ : PlacedFields → Prop} {part₁ part₂ : Part}
    (h₁ : IsPart keys₁ inner₁ names₁ part₁) (h₂ : IsPart keys₂ inner₂ names₂ part₂)
    (hdisjoint : ∀ key ∈ keys₂, key ∉ keys₁) :
    IsPart (keys₁ ++ keys₂) (fun schema => inner₁ schema ++ inner₂ schema)
      (fun schema => names₁ schema ∧ names₂ schema)
      (fun f schema => part₁ f schema >>= part₂ f) where
  inner_congr := by
    intro schema schema' h
    rw [h₁.inner_congr fun key hkey => h key (List.mem_append_left _ hkey),
      h₂.inner_congr fun key hkey => h key (List.mem_append_right _ hkey)]
  names_congr := by
    intro schema schema' h
    rw [h₁.names_congr fun key hkey => h key (List.mem_append_left _ hkey),
      h₂.names_congr fun key hkey => h key (List.mem_append_right _ hkey)]
  frame := by
    intro f schema schema' h key hkey
    obtain ⟨middle, hmiddle, hlast⟩ := bind_eq_ok.mp h
    rw [List.mem_append, not_or] at hkey
    rw [h₂.frame hlast key hkey.2, h₁.frame hmiddle key hkey.1]
  empty := by
    intro f schema schema' h
    obtain ⟨middle, hmiddle, hlast⟩ := bind_eq_ok.mp h
    rw [h₂.empty hlast, h₁.empty hmiddle]
  congr := by
    intro f g schema h
    rw [h₁.congr fun child hchild => h child (List.mem_append_left _ hchild)]
    apply bind_congr_of_ok
    intro middle hmiddle
    apply h₂.congr
    rw [h₂.inner_congr fun key hkey => h₁.frame hmiddle key (hdisjoint key hkey)]
    exact fun child hchild => h child (List.mem_append_right _ hchild)
  ok := by
    intro f schema
    have hsecond : ∀ {middle}, part₁ f schema = .ok middle →
        ((∃ schema', part₂ f middle = .ok schema') ↔
          names₂ schema ∧ ∀ child ∈ inner₂ schema, ∃ value, f child = .ok value) := by
      intro middle hmiddle
      have hkept : ∀ key ∈ keys₂, middle.lookup key = schema.lookup key :=
        fun key hkey => h₁.frame hmiddle key (hdisjoint key hkey)
      rw [h₂.ok, h₂.names_congr hkept, h₂.inner_congr hkept]
    simp only [List.mem_append, bind_eq_ok]
    constructor
    · intro h
      obtain ⟨schema', middle, hmiddle, hlast⟩ := h
      have hfirst := h₁.ok.mp ⟨middle, hmiddle⟩
      have hrest := (hsecond hmiddle).mp ⟨schema', hlast⟩
      refine ⟨⟨hfirst.1, hrest.1⟩, ?_⟩
      intro child hchild
      cases hchild with
      | inl hchild => exact hfirst.2 child hchild
      | inr hchild => exact hrest.2 child hchild
    · intro h
      obtain ⟨⟨hnames₁, hnames₂⟩, hinner⟩ := h
      obtain ⟨middle, hmiddle⟩ := h₁.ok.mpr ⟨hnames₁, fun child hchild => hinner child (.inl hchild)⟩
      obtain ⟨schema', hlast⟩ :=
        (hsecond hmiddle).mpr ⟨hnames₂, fun child hchild => hinner child (.inr hchild)⟩
      exact ⟨schema', middle, hmiddle, hlast⟩

/-! ## The three kinds of parts -/

section

variable {f g : Placed → Except Raised Placed}

theorem normalizeOr_congr {value : Placed} (h : f value = g value) :
    normalizeOr f value = normalizeOr g value := by
  rw [normalizeOr, normalizeOr, h]

theorem normalizeOr_eq_ok {value result : Placed} :
    normalizeOr f value = .ok result ↔
      ∃ normalised, f value = .ok normalised ∧
        (if normalised.truthy then normalised else value) = result := by
  rw [normalizeOr, bind_eq_ok]
  simp [pure, Except.pure]

theorem exists_normalizeOr_eq_ok {value : Placed} :
    (∃ result, normalizeOr f value = .ok result) ↔ ∃ normalised, f value = .ok normalised := by
  simp [normalizeOr_eq_ok]

/-- The definition of a listed property without its name. -/
def listedSchema? : Placed → Option Placed
  | .obj _ fields =>
    if (fields.lookup (.text "name")).isSome then some (.obj none (withoutName fields)) else none
  | _ => none

/-- An entry of a list of properties is skipped or has a name that a dictionary takes. -/
def NameHashable : Placed → Prop
  | .obj _ fields => ∀ name, fields.lookup (.text "name") = some name →
      ∃ key, name.outline.hash? = some key
  | _ => True

/-- The schemas that the properties of a schema hold. -/
def propertySchemas (schema : PlacedFields) : List Placed :=
  match schema.lookup (.text "properties") with
  | some (.arr entries) => entries.filterMap listedSchema?
  | some (.obj _ props) => props.map Prod.snd
  | _ => []

/-- Every listed property of a schema has a name that a dictionary takes. -/
def NamesHashable (schema : PlacedFields) : Prop :=
  ∀ entries, schema.lookup (.text "properties") = some (.arr entries) →
    ∀ entry ∈ entries, NameHashable entry

theorem hash_eq_ok {value : Json} {key : Hashed} :
    hash value = .ok key ↔ value.hash? = some key := by
  unfold hash
  split <;> simp_all

theorem addProperty_congr {entry : Placed} (h : ∀ child ∈ listedSchema? entry, f child = g child)
    (listed : Listed) : addProperty f listed entry = addProperty g listed entry := by
  cases entry with
  | obj origin fields =>
    rw [addProperty, addProperty]
    cases hname : fields.lookup (.text "name") with
    | none => rfl
    | some name =>
      have hchild := h (.obj none (withoutName fields)) (by simp [listedSchema?, hname])
      simp only [normalizeOr_congr hchild]
  | null | bool | int | float | str | arr => rfl

theorem exists_addProperty_eq_ok {entry : Placed} (listed : Listed) :
    (∃ listed', addProperty f listed entry = .ok listed') ↔
      NameHashable entry ∧ ∀ child ∈ listedSchema? entry, ∃ value, f child = .ok value := by
  cases entry with
  | obj origin fields =>
    rw [addProperty]
    cases hname : fields.lookup (.text "name") with
    | none => simp [NameHashable, listedSchema?, hname, pure, Except.pure]
    | some name =>
      have hhash : NameHashable (.obj origin fields) ↔ ∃ key, hash name.outline = .ok key := by
        simp [NameHashable, hname, hash_eq_ok]
      have hchild : (∀ child ∈ listedSchema? (.obj origin fields), ∃ value, f child = .ok value) ↔
          ∃ value, f (.obj none (withoutName fields)) = .ok value := by
        simp [listedSchema?, hname]
      rw [hhash, hchild, ← exists_normalizeOr_eq_ok]
      simp only [bind_eq_ok]
      constructor
      · intro h
        obtain ⟨_, propDef, hpropDef, key, hkey, _⟩ := h
        exact ⟨⟨key, hkey⟩, propDef, hpropDef⟩
      · intro h
        obtain ⟨⟨key, hkey⟩, propDef, hpropDef⟩ := h
        split
        · exact ⟨_, propDef, hpropDef, key, hkey, rfl⟩
        · exact ⟨_, propDef, hpropDef, key, hkey, rfl⟩
  | null | bool | int | float | str | arr =>
    simp [addProperty, NameHashable, listedSchema?, pure, Except.pure]

theorem normalizeProperty_congr {prop : Hashed × Placed} (h : f prop.2 = g prop.2) :
    normalizeProperty f prop = normalizeProperty g prop := by
  rw [normalizeProperty, normalizeProperty, normalizeOr_congr h]

theorem exists_normalizeProperty_eq_ok {prop : Hashed × Placed} :
    (∃ prop', normalizeProperty f prop = .ok prop') ↔ ∃ value, f prop.2 = .ok value := by
  rw [← exists_normalizeOr_eq_ok]
  simp [normalizeProperty, bind_eq_ok, pure, Except.pure]

/-- Setting a field that is there leaves no schema empty. -/
theorem putField_eq_nil_iff {schema : PlacedFields} {key : Hashed} {value old : Placed}
    (h : schema.lookup key = some old) : putField schema key value = [] ↔ schema = [] := by
  constructor
  · intro hempty
    exact absurd hempty (putField_ne_nil schema key value)
  · intro hempty
    rw [hempty] at h
    simp at h

/-- The keys that the properties part writes. -/
def propertyKeys : List Hashed := [.text "properties", .text "required", .text "type"]

theorem lookup_setListed {schema : PlacedFields} {listed : Listed} {key : Hashed}
    (h : key ∉ propertyKeys) : (setListed schema listed).lookup key = schema.lookup key := by
  simp only [propertyKeys, List.mem_cons, List.not_mem_nil, not_or, or_false] at h
  obtain ⟨hproperties, hrequired, htype⟩ := h
  unfold setListed
  dsimp only
  split <;> split <;>
    simp [lookup_putField_of_ne, hproperties, hrequired, htype]

/-- The properties that the list becomes. -/
theorem lookup_properties_setListed (schema : PlacedFields) (listed : Listed) :
    (setListed schema listed).lookup (.text "properties") =
      some (.obj none listed.normalised) := by
  unfold setListed
  dsimp only
  split <;> split <;>
    simp [lookup_putField_of_ne]

theorem setListed_ne_nil (schema : PlacedFields) (listed : Listed) :
    setListed schema listed ≠ [] := by
  intro h
  have := lookup_properties_setListed schema listed
  rw [h] at this
  simp at this

theorem isPart_normalizeProperties :
    IsPart propertyKeys propertySchemas NamesHashable normalizeProperties where
  inner_congr := by
    intro schema schema' h
    rw [propertySchemas, propertySchemas, h (.text "properties") (by simp [propertyKeys])]
  names_congr := by
    intro schema schema' h
    rw [NamesHashable, NamesHashable, h (.text "properties") (by simp [propertyKeys])]
  frame := by
    intro f schema schema' h key hkey
    have hne : key ≠ .text "properties" := by
      intro heq
      simp [propertyKeys, heq] at hkey
    unfold normalizeProperties at h
    split at h
    · obtain ⟨listed, _, h⟩ := bind_eq_ok.mp h
      obtain rfl := Except.ok.inj h
      exact lookup_setListed hkey
    · obtain ⟨props, _, h⟩ := bind_eq_ok.mp h
      obtain rfl := Except.ok.inj h
      exact lookup_putField_of_ne hne
    · obtain rfl := Except.ok.inj h
      rfl
  empty := by
    intro f schema schema' h
    unfold normalizeProperties at h
    split at h
    · rename_i hlookup
      obtain ⟨listed, _, h⟩ := bind_eq_ok.mp h
      obtain rfl := Except.ok.inj h
      constructor
      · intro hempty
        exact absurd hempty (setListed_ne_nil schema listed)
      · intro hempty
        simp [hempty] at hlookup
    · rename_i hlookup
      obtain ⟨props, _, h⟩ := bind_eq_ok.mp h
      obtain rfl := Except.ok.inj h
      exact putField_eq_nil_iff hlookup
    · obtain rfl := Except.ok.inj h
      rfl
  congr := by
    intro f g schema h
    unfold normalizeProperties
    split
    · rename_i entries hlookup
      have hentries : entries.foldlM (addProperty f) ⟨[], []⟩ =
          entries.foldlM (addProperty g) ⟨[], []⟩ := by
        apply foldlM_congr_of_mem
        intro entry hentry listed
        apply addProperty_congr
        intro child hchild
        apply h
        simp only [propertySchemas, hlookup, List.mem_filterMap]
        exact ⟨entry, hentry, hchild⟩
      rw [hentries]
    · rename_i props hlookup
      have hprops : props.mapM (normalizeProperty f) = props.mapM (normalizeProperty g) := by
        apply mapM_congr_of_mem
        intro prop hprop
        apply normalizeProperty_congr
        apply h
        simp only [propertySchemas, hlookup]
        exact List.mem_map_of_mem hprop
      rw [hprops]
    · rfl
  ok := by
    intro f schema
    unfold normalizeProperties
    split
    · rename_i entries hlookup
      have hloop : (∃ listed, entries.foldlM (addProperty f) ⟨[], []⟩ = .ok listed) ↔
          ∀ entry ∈ entries, NameHashable entry ∧
            ∀ child ∈ listedSchema? entry, ∃ value, f child = .ok value :=
        exists_foldlM_eq_ok (fun entry _ listed => exists_addProperty_eq_ok listed) ⟨[], []⟩
      simp only [bind_eq_ok, NamesHashable, propertySchemas, hlookup, List.mem_filterMap]
      constructor
      · intro h
        obtain ⟨_, listed, hlisted, _⟩ := h
        have hall := hloop.mp ⟨listed, hlisted⟩
        refine ⟨?_, ?_⟩
        · intro entries' heq entry hentry
          obtain rfl := Placed.arr.inj (Option.some.inj heq)
          exact (hall entry hentry).1
        · intro child hchild
          obtain ⟨entry, hentry, hchild⟩ := hchild
          exact (hall entry hentry).2 child hchild
      · intro h
        obtain ⟨listed, hlisted⟩ := hloop.mpr fun entry hentry =>
          ⟨h.1 entries rfl entry hentry, fun child hchild => h.2 child ⟨entry, hentry, hchild⟩⟩
        exact ⟨_, listed, hlisted, rfl⟩
    · rename_i props hlookup
      have hloop : (∃ props', props.mapM (normalizeProperty f) = .ok props') ↔
          ∀ prop ∈ props, ∃ prop', normalizeProperty f prop = .ok prop' := exists_mapM_eq_ok
      simp only [bind_eq_ok, NamesHashable, propertySchemas, hlookup, List.mem_map]
      constructor
      · intro h
        obtain ⟨_, props', hprops', _⟩ := h
        refine ⟨by simp, ?_⟩
        intro child hchild
        obtain ⟨prop, hprop, rfl⟩ := hchild
        exact exists_normalizeProperty_eq_ok.mp (hloop.mp ⟨props', hprops'⟩ prop hprop)
      · intro h
        obtain ⟨props', hprops'⟩ := hloop.mpr fun prop hprop =>
          exists_normalizeProperty_eq_ok.mpr (h.2 prop.2 ⟨prop, hprop, rfl⟩)
        exact ⟨_, props', hprops', rfl⟩
    · rename_i hentries hprops
      have hinner : propertySchemas schema = [] := by
        unfold propertySchemas
        split
        · rename_i entries hlookup
          exact absurd hlookup (hentries entries)
        · rename_i origin props hlookup
          exact absurd hlookup (hprops origin props)
        · rfl
      have hnames : NamesHashable schema := by
        intro entries hlookup
        exact absurd hlookup (hentries entries)
      simp [hinner, hnames, pure, Except.pure]

/-- The schema under a key. -/
def innerSchemas (key : String) (schema : PlacedFields) : List Placed :=
  match schema.lookup (.text key) with
  | some (.obj origin inner) => [.obj origin inner]
  | _ => []

theorem isPart_normalizeInner (name : String) :
    IsPart [.text name] (innerSchemas name) (fun _ => True) (fun f => normalizeInner f name) where
  inner_congr := by
    intro schema schema' h
    rw [innerSchemas, innerSchemas, h (.text name) (List.mem_singleton_self _)]
  names_congr := by
    intro schema schema' h
    rfl
  frame := by
    intro f schema schema' h key hkey
    rw [List.mem_singleton] at hkey
    unfold normalizeInner at h
    split at h
    · obtain ⟨inner, _, h⟩ := bind_eq_ok.mp h
      obtain rfl := Except.ok.inj h
      exact lookup_putField_of_ne hkey
    · obtain rfl := Except.ok.inj h
      rfl
  empty := by
    intro f schema schema' h
    unfold normalizeInner at h
    split at h
    · rename_i hlookup
      obtain ⟨inner, _, h⟩ := bind_eq_ok.mp h
      obtain rfl := Except.ok.inj h
      exact putField_eq_nil_iff hlookup
    · obtain rfl := Except.ok.inj h
      rfl
  congr := by
    intro f g schema h
    unfold normalizeInner
    split
    · rename_i origin inner hlookup
      rw [h (.obj origin inner) (by simp [innerSchemas, hlookup])]
    · rfl
  ok := by
    intro f schema
    rw [normalizeInner, innerSchemas]
    generalize schema.lookup (.text name) = found
    split
    · simp [bind_eq_ok, pure, Except.pure]
    · simp [pure, Except.pure]

/-- The schemas under a combinator. -/
def combinedSchemas (combinator : String) (schema : PlacedFields) : List Placed :=
  match schema.lookup (.text combinator) with
  | some (.arr schemas) => schemas
  | _ => []

theorem isPart_normalizeCombinator (name : String) :
    IsPart [.text name] (combinedSchemas name) (fun _ => True)
      (fun f => normalizeCombinator f name) where
  inner_congr := by
    intro schema schema' h
    rw [combinedSchemas, combinedSchemas, h (.text name) (List.mem_singleton_self _)]
  names_congr := by
    intro schema schema' h
    rfl
  frame := by
    intro f schema schema' h key hkey
    rw [List.mem_singleton] at hkey
    unfold normalizeCombinator at h
    split at h
    · obtain ⟨schemas, _, h⟩ := bind_eq_ok.mp h
      obtain rfl := Except.ok.inj h
      exact lookup_putField_of_ne hkey
    · obtain rfl := Except.ok.inj h
      rfl
  empty := by
    intro f schema schema' h
    unfold normalizeCombinator at h
    split at h
    · rename_i hlookup
      obtain ⟨schemas, _, h⟩ := bind_eq_ok.mp h
      obtain rfl := Except.ok.inj h
      exact putField_eq_nil_iff hlookup
    · obtain rfl := Except.ok.inj h
      rfl
  congr := by
    intro f g schema h
    unfold normalizeCombinator
    split
    · rename_i schemas hlookup
      have hschemas : schemas.mapM (normalizeOr f) = schemas.mapM (normalizeOr g) := by
        apply mapM_congr_of_mem
        intro child hchild
        apply normalizeOr_congr
        apply h
        simpa [combinedSchemas, hlookup] using hchild
      rw [hschemas]
    · rfl
  ok := by
    intro f schema
    rw [normalizeCombinator, combinedSchemas]
    generalize schema.lookup (.text name) = found
    split
    · rename_i schemas
      have hschemas : (∃ result, schemas.mapM (normalizeOr f) = .ok result) ↔
          ∀ child ∈ schemas, ∃ value, f child = .ok value := by
        simp only [exists_mapM_eq_ok, exists_normalizeOr_eq_ok]
      simp only [bind_eq_ok, true_and, ← hschemas]
      constructor
      · intro h
        obtain ⟨_, result, hresult, _⟩ := h
        exact ⟨result, hresult⟩
      · intro h
        obtain ⟨result, hresult⟩ := h
        exact ⟨_, result, hresult, rfl⟩
    · simp [pure, Except.pure]

end

/-! ## The recursion -/

section

variable {f g : Placed → Except Raised Placed}

/-- The parts after the properties. -/
def otherParts : Part := fun f schema =>
  normalizeInner f "items" schema >>= fun schema =>
  normalizeInner f "additionalProperties" schema >>= fun schema =>
  normalizeCombinator f "anyOf" schema >>= fun schema =>
  normalizeCombinator f "oneOf" schema >>= fun schema =>
  normalizeCombinator f "allOf" schema

def otherKeys : List Hashed :=
  [.text "items"] ++ ([.text "additionalProperties"] ++
    ([.text "anyOf"] ++ ([.text "oneOf"] ++ [.text "allOf"])))

def otherSchemas (schema : PlacedFields) : List Placed :=
  innerSchemas "items" schema ++ (innerSchemas "additionalProperties" schema ++
    (combinedSchemas "anyOf" schema ++ (combinedSchemas "oneOf" schema ++
      combinedSchemas "allOf" schema)))

theorem isPart_otherParts :
    IsPart otherKeys otherSchemas (fun _ => True ∧ True ∧ True ∧ True ∧ True) otherParts := by
  have hcombinators := (isPart_normalizeCombinator "oneOf").comp
    (isPart_normalizeCombinator "allOf") (by decide)
  have hcombinators := (isPart_normalizeCombinator "anyOf").comp hcombinators (by decide)
  have hinner := (isPart_normalizeInner "additionalProperties").comp hcombinators (by decide)
  exact (isPart_normalizeInner "items").comp hinner (by decide)

theorem normalizeBody_obj (origin : Option Place) (schema : PlacedFields) :
    normalizeBody f (.obj origin schema) =
      Placed.obj none <$> (normalizeProperties f schema >>= otherParts f) := by
  simp [normalizeBody, otherParts]

theorem isPart_body : IsPart (propertyKeys ++ otherKeys)
    (fun schema => propertySchemas schema ++ otherSchemas schema)
    (fun schema => NamesHashable schema ∧ True ∧ True ∧ True ∧ True ∧ True)
    (fun f schema => normalizeProperties f schema >>= otherParts f) :=
  isPart_normalizeProperties.comp isPart_otherParts (by decide)

/-- The schemas that the normalization of a schema normalises on its way. -/
def innerOf : Placed → List Placed
  | .obj _ schema => propertySchemas schema ++ otherSchemas schema
  | _ => []

theorem normalizeBody_congr {schema : Placed} (h : ∀ child ∈ innerOf schema, f child = g child) :
    normalizeBody f schema = normalizeBody g schema := by
  cases schema with
  | obj origin fields =>
    rw [normalizeBody_obj, normalizeBody_obj, isPart_body.congr h]
  | null | bool | int | float | str | arr => rfl

theorem height_lt_of_mem_propertySchemas {schema : PlacedFields} {child : Placed}
    (h : child ∈ propertySchemas schema) (origin : Option Place) :
    child.height < (Placed.obj origin schema).height := by
  rw [Placed.height_obj]
  unfold propertySchemas at h
  split at h
  · rename_i entries hlookup
    obtain ⟨entry, hentry, hchild⟩ := List.mem_filterMap.mp h
    have hentries := Placed.height_le_of_lookup hlookup
    have hle := Placed.height_le_of_mem_items hentry
    unfold listedSchema? at hchild
    split at hchild
    · rename_i entryOrigin fields
      have hfilter := Placed.heightFields_filter_le
        (fun field => field.1 ∉ [.text "name", .text "optional"]) fields
      split at hchild
      · obtain rfl := Option.some.inj hchild
        simp only [Placed.height_arr, Placed.height_obj, withoutName] at *
        omega
      · simp at hchild
    · simp at hchild
  · rename_i propsOrigin props hlookup
    obtain ⟨prop, hprop, rfl⟩ := List.mem_map.mp h
    have hprops := Placed.height_le_of_lookup hlookup
    have hle := Placed.height_le_of_mem_fields hprop
    simp only [Placed.height_obj] at hprops
    omega
  · simp at h

theorem height_lt_of_mem_innerSchemas {key : String} {schema : PlacedFields} {child : Placed}
    (h : child ∈ innerSchemas key schema) (origin : Option Place) :
    child.height < (Placed.obj origin schema).height := by
  rw [Placed.height_obj]
  unfold innerSchemas at h
  split at h
  · rename_i innerOrigin inner hlookup
    obtain rfl := List.mem_singleton.mp h
    have hle := Placed.height_le_of_lookup hlookup
    omega
  · simp at h

theorem height_lt_of_mem_combinedSchemas {key : String} {schema : PlacedFields} {child : Placed}
    (h : child ∈ combinedSchemas key schema) (origin : Option Place) :
    child.height < (Placed.obj origin schema).height := by
  rw [Placed.height_obj]
  unfold combinedSchemas at h
  split at h
  · rename_i schemas hlookup
    have hle := Placed.height_le_of_lookup hlookup
    have hchild := Placed.height_le_of_mem_items h
    simp only [Placed.height_arr] at hle
    omega
  · simp at h

theorem height_lt_of_mem_innerOf {schema child : Placed} (h : child ∈ innerOf schema) :
    child.height < schema.height := by
  cases schema with
  | obj origin fields =>
    simp only [innerOf, otherSchemas, List.mem_append] at h
    obtain h | h | h | h | h | h := h
    · exact height_lt_of_mem_propertySchemas h origin
    · exact height_lt_of_mem_innerSchemas h origin
    · exact height_lt_of_mem_innerSchemas h origin
    · exact height_lt_of_mem_combinedSchemas h origin
    · exact height_lt_of_mem_combinedSchemas h origin
    · exact height_lt_of_mem_combinedSchemas h origin
  | null | bool | int | float | str | arr => simp [innerOf] at h

/-- More levels than a value has change nothing. -/
theorem normalizeWithin_succ {n : Nat} {schema : Placed} (h : schema.height ≤ n) :
    normalizeWithin (n + 1) schema = normalizeWithin n schema := by
  induction n generalizing schema with
  | zero =>
    cases schema with
    | obj origin fields => simp at h
    | null | bool | int | float | str | arr => rfl
  | succ n ih =>
    apply normalizeBody_congr
    intro child hchild
    have := height_lt_of_mem_innerOf hchild
    exact ih (by omega)

theorem normalizeWithin_eq {n : Nat} {schema : Placed} (h : schema.height ≤ n) :
    normalizeWithin n schema = normalizeSchema schema := by
  induction n, h using Nat.le_induction with
  | base => rfl
  | succ n h ih => rw [normalizeWithin_succ h, ih]

/-- The equation of `_normalize_schema`. -/
theorem normalizeSchema_eq (schema : Placed) :
    normalizeSchema schema = normalizeBody normalizeSchema schema := by
  rw [← normalizeWithin_eq (Nat.le_succ schema.height)]
  apply normalizeBody_congr
  intro child hchild
  exact normalizeWithin_eq (height_lt_of_mem_innerOf hchild).le

/-! ## What it returns -/

/-- The schemas that a schema holds where the normalization looks for them, at any depth. -/
inductive SubSchema : Placed → Placed → Prop where
  | self (schema : Placed) : SubSchema schema schema
  | inner {schema child sub : Placed} (hchild : child ∈ innerOf schema)
      (hsub : SubSchema child sub) : SubSchema schema sub

/-- Every listed property of a schema, at any depth, has a name that a dictionary takes. -/
def Normalisable (schema : Placed) : Prop :=
  ∀ origin fields, SubSchema schema (.obj origin fields) → NamesHashable fields

theorem normalisable_obj {origin : Option Place} {fields : PlacedFields} :
    Normalisable (.obj origin fields) ↔
      NamesHashable fields ∧ ∀ child ∈ innerOf (.obj origin fields), Normalisable child := by
  constructor
  · intro h
    exact ⟨h origin fields (.self _),
      fun child hchild subOrigin sub hsub => h subOrigin sub (.inner hchild hsub)⟩
  · intro h subOrigin sub hsub
    cases hsub with
    | self => exact h.1
    | inner hchild hsub => exact h.2 _ hchild subOrigin sub hsub

theorem exists_normalizeBody_eq_ok {origin : Option Place} {fields : PlacedFields} :
    (∃ value, normalizeBody f (.obj origin fields) = .ok value) ↔
      NamesHashable fields ∧
        ∀ child ∈ innerOf (.obj origin fields), ∃ value, f child = .ok value := by
  have h : (∃ schema, (normalizeProperties f fields >>= otherParts f) = .ok schema) ↔
      (NamesHashable fields ∧ True ∧ True ∧ True ∧ True ∧ True) ∧
        ∀ child ∈ innerOf (.obj origin fields), ∃ value, f child = .ok value := isPart_body.ok
  simp only [and_true] at h
  rw [normalizeBody_obj, ← h]
  cases normalizeProperties f fields >>= otherParts f with
  | error e => simp
  | ok schema => simp

/-- The normalization raises for the name of a listed property alone. -/
theorem normalizeSchema_ok_iff (schema : Placed) :
    (∃ value, normalizeSchema schema = .ok value) ↔ Normalisable schema := by
  induction h : schema.height using Nat.strongRecOn generalizing schema with
  | ind n ih =>
    rw [normalizeSchema_eq]
    cases schema with
    | obj origin fields =>
      rw [exists_normalizeBody_eq_ok, normalisable_obj]
      apply and_congr_right
      intro _
      apply forall₂_congr
      intro child hchild
      exact ih child.height (h ▸ height_lt_of_mem_innerOf hchild) child rfl
    | null | bool | int | float | str | arr =>
      constructor
      · intro _ origin fields hsub
        cases hsub with
        | inner hchild => simp [innerOf] at hchild
      · intro _
        exact ⟨_, rfl⟩

/-- The dictionary it returns is a new one. -/
theorem normalizeSchema_obj {origin : Option Place} {schema : PlacedFields} {value : Placed}
    (h : normalizeSchema (.obj origin schema) = .ok value) :
    ∃ normalised middle, value = .obj none normalised ∧
      normalizeProperties normalizeSchema schema = .ok middle ∧
      normalised.lookup (.text "properties") = middle.lookup (.text "properties") ∧
      (normalised = [] ↔ schema = []) := by
  rw [normalizeSchema_eq, normalizeBody_obj] at h
  cases hbody : normalizeProperties normalizeSchema schema >>= otherParts normalizeSchema with
  | error e =>
    rw [hbody] at h
    simp at h
  | ok normalised =>
    rw [hbody] at h
    obtain ⟨middle, hmiddle, hothers⟩ := bind_eq_ok.mp hbody
    refine ⟨normalised, middle, (Except.ok.inj h).symm, hmiddle, ?_, isPart_body.empty hbody⟩
    exact isPart_otherParts.frame hothers _ (by decide)

/-- Any other value is returned as it is. -/
theorem normalizeSchema_of_not_obj {schema : Placed} (h : schema.isObj = false) :
    normalizeSchema schema = .ok schema := by
  rw [normalizeSchema_eq]
  cases schema with
  | obj origin fields => simp [Placed.isObj] at h
  | null | bool | int | float | str | arr => rfl

end

end VirtualContributor.Graph
