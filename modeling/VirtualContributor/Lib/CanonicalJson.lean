import Mathlib
import VirtualContributor.Lib.JsonStyle

/-!
# Canonical JSON texts

A canonical text is the text of a value with sorted keys, in one style.  Two
objects have the same canonical text if and only if they are the same but for
the order of their keys (`canonical_eq_iff`); what stands at a key is then the
same as well (`lookup_of_sortKeys_eq`).
-/

namespace VirtualContributor.Lib

theorem sortItems_eq_map (items : List Json) : sortItems items = items.map sortKeys := by
  induction items with
  | nil => rfl
  | cons item items ih => rw [sortItems, ih, List.map_cons]

theorem sortFields_eq_map (fields : Fields) :
    sortFields fields = fields.map fun field => (field.1, sortKeys field.2) := by
  induction fields with
  | nil => rfl
  | cons field fields ih =>
    obtain ⟨key, value⟩ := field
    rw [sortFields, ih, List.map_cons]

/-- The fields of a sorted object. -/
def sortedFields (fields : Fields) : Fields :=
  (sortFields fields).insertionSort fun a b => a.1 ≤ b.1

theorem sortKeys_obj (fields : Fields) : sortKeys (.obj fields) = .obj (sortedFields fields) := by
  rw [sortKeys, sortedFields]

theorem perm_sortedFields (fields : Fields) :
    (sortedFields fields).Perm (fields.map fun field => (field.1, sortKeys field.2)) := by
  rw [← sortFields_eq_map]
  exact List.perm_insertionSort _ _

theorem keys_sortedFields (fields : Fields) :
    ((sortedFields fields).map Prod.fst).Perm (fields.map Prod.fst) := by
  have hperm := (perm_sortedFields fields).map Prod.fst
  rwa [List.map_map] at hperm

/-! ## Looking keys up -/

section Lookup

variable {β γ : Type}

theorem lookup_eq_some_iff {fields : List (String × β)} (hkeys : (fields.map Prod.fst).Nodup)
    {key : String} {value : β} : fields.lookup key = some value ↔ (key, value) ∈ fields := by
  induction fields with
  | nil => simp
  | cons field fields ih =>
    obtain ⟨name, found⟩ := field
    rw [List.map_cons, List.nodup_cons] at hkeys
    rw [List.lookup_cons]
    by_cases hname : key = name
    · subst hname
      have hnone : (key, value) ∉ fields := by
        intro h
        exact hkeys.1 (List.mem_map.mpr ⟨_, h, rfl⟩)
      simp [hnone, eq_comm]
    · have hbeq : (key == name) = false := beq_eq_false_iff_ne.mpr hname
      simp [hbeq, hname, ih hkeys.2]

/-- A key is looked up in a list of different keys as in any order of it. -/
theorem lookup_perm {fields other : List (String × β)} (hperm : fields.Perm other)
    (hkeys : (fields.map Prod.fst).Nodup) (key : String) :
    fields.lookup key = other.lookup key := by
  have hother : (other.map Prod.fst).Nodup := (hperm.map Prod.fst).nodup_iff.mp hkeys
  refine Option.ext fun value => ?_
  rw [lookup_eq_some_iff hkeys, lookup_eq_some_iff hother, hperm.mem_iff]

/-- Lists of different keys with the same at each key are orders of each other. -/
theorem perm_of_lookup_eq {fields other : List (String × β)}
    (hkeys : (fields.map Prod.fst).Nodup) (hother : (other.map Prod.fst).Nodup)
    (h : ∀ key, fields.lookup key = other.lookup key) : fields.Perm other := by
  rw [List.perm_ext_iff_of_nodup (List.Nodup.of_map _ hkeys) (List.Nodup.of_map _ hother)]
  intro field
  obtain ⟨key, value⟩ := field
  rw [← lookup_eq_some_iff hkeys, ← lookup_eq_some_iff hother, h]

theorem lookup_map_snd (f : β → γ) (fields : List (String × β)) (key : String) :
    (fields.map fun field => (field.1, f field.2)).lookup key = (fields.lookup key).map f := by
  induction fields with
  | nil => rfl
  | cons field fields ih =>
    obtain ⟨name, value⟩ := field
    by_cases hname : key = name
    · subst hname
      simp
    · have hbeq : (key == name) = false := beq_eq_false_iff_ne.mpr hname
      simp [List.lookup_cons, hbeq, ih]

/-- Lists with the same different keys and the same at each of them are equal. -/
theorem eq_of_lookup_eq {fields other : List (String × β)}
    (hkeys : fields.map Prod.fst = other.map Prod.fst) (hnodup : (fields.map Prod.fst).Nodup)
    (h : ∀ key ∈ fields.map Prod.fst, fields.lookup key = other.lookup key) : fields = other := by
  induction fields generalizing other with
  | nil => exact (List.map_eq_nil_iff.mp hkeys.symm).symm
  | cons field fields ih =>
    cases other with
    | nil => cases hkeys
    | cons field' other =>
      obtain ⟨name, value⟩ := field
      obtain ⟨name', value'⟩ := field'
      rw [List.map_cons, List.map_cons, List.cons.injEq] at hkeys
      obtain ⟨rfl, hkeys⟩ : name = name' ∧ _ := hkeys
      rw [List.map_cons, List.nodup_cons] at hnodup
      have hvalue := h name List.mem_cons_self
      simp only [List.lookup_cons_self, Option.some.injEq] at hvalue
      rw [hvalue, ih hkeys hnodup.2]
      intro key hkey
      have hne : key ≠ name := by
        intro heq
        exact hnodup.1 (heq ▸ hkey)
      have hbeq : (key == name) = false := beq_eq_false_iff_ne.mpr hne
      have hlookup := h key (List.mem_cons_of_mem _ hkey)
      simpa [List.lookup_cons, hbeq] using hlookup

end Lookup

theorem lookup_sortedFields {fields : Fields} (hkeys : (fields.map Prod.fst).Nodup)
    (key : String) : (sortedFields fields).lookup key = (fields.lookup key).map sortKeys := by
  have hsorted : ((sortedFields fields).map Prod.fst).Nodup :=
    (keys_sortedFields fields).nodup_iff.mpr hkeys
  rw [lookup_perm (perm_sortedFields fields) hsorted, lookup_map_snd]

/-- Objects that are the same when sorted have the same at each key. -/
theorem lookup_of_sortKeys_eq {fields other : Fields} (hkeys : (fields.map Prod.fst).Nodup)
    (hother : (other.map Prod.fst).Nodup) (h : sortKeys (.obj fields) = sortKeys (.obj other))
    (key : String) : (fields.lookup key).map sortKeys = (other.lookup key).map sortKeys := by
  rw [sortKeys_obj, sortKeys_obj, Json.obj.injEq] at h
  rw [← lookup_sortedFields hkeys, ← lookup_sortedFields hother, h]

/-! ## Updating -/

/-- `dict.update`. -/
def updateFields (fields updates : Fields) : Fields :=
  updates.foldl (fun fields update => setField fields update.1 update.2) fields

/-- The keys of a dictionary after a key was set. -/
def addKey (keys : List String) (key : String) : List String :=
  if key ∈ keys then keys else keys ++ [key]

theorem keys_setField (fields : Fields) (key : String) (value : Json) :
    (setField fields key value).map Prod.fst = addKey (fields.map Prod.fst) key := by
  induction fields with
  | nil => rfl
  | cons field fields ih =>
    unfold setField
    by_cases hkey : field.1 = key
    · simp [addKey, hkey]
    · rw [if_neg hkey, List.map_cons, ih]
      by_cases hmem : key ∈ fields.map Prod.fst
      · simp [addKey, hmem]
      · simp [addKey, hmem, Ne.symm hkey]

theorem keys_updateFields (fields updates : Fields) :
    (updateFields fields updates).map Prod.fst =
      (updates.map Prod.fst).foldl addKey (fields.map Prod.fst) := by
  induction updates generalizing fields with
  | nil => rfl
  | cons update updates ih =>
    show (updateFields (setField fields update.1 update.2) updates).map Prod.fst = _
    rw [ih, keys_setField]
    rfl

theorem mem_setField {fields : Fields} {key : String} {value : Json} {field : String × Json}
    (h : field ∈ setField fields key value) : field = (key, value) ∨ field ∈ fields := by
  induction fields with
  | nil => exact Or.inl (List.mem_singleton.mp h)
  | cons first fields ih =>
    unfold setField at h
    split at h
    · rcases List.mem_cons.mp h with h | h
      · exact Or.inl h
      · exact Or.inr (List.mem_cons_of_mem _ h)
    · rcases List.mem_cons.mp h with rfl | h
      · exact Or.inr List.mem_cons_self
      · rcases ih h with h | h
        · exact Or.inl h
        · exact Or.inr (List.mem_cons_of_mem _ h)

theorem mem_updateFields {fields updates : Fields} {field : String × Json}
    (h : field ∈ updateFields fields updates) : field ∈ updates ∨ field ∈ fields := by
  induction updates generalizing fields with
  | nil => exact Or.inr h
  | cons update updates ih =>
    have hrest : field ∈ updateFields (setField fields update.1 update.2) updates := h
    rcases ih hrest with h | h
    · exact Or.inl (List.mem_cons_of_mem _ h)
    · rcases mem_setField h with rfl | h
      · exact Or.inl List.mem_cons_self
      · exact Or.inr h

/-! ## Texts -/

variable {F : JsonFloats}

theorem printable_sortKeys {value : Json} (h : F.Printable value) :
    F.Printable (sortKeys value) := by
  induction h with
  | null => exact .null
  | bool value => exact .bool value
  | int value short => exact .int value short
  | float value float => exact .float value float
  | str value => exact .str value
  | arr items _ ih =>
    rw [sortKeys, sortItems_eq_map]
    refine .arr _ ?_
    intro item hitem
    obtain ⟨before, hbefore, rfl⟩ := List.mem_map.mp hitem
    exact ih before hbefore
  | obj fields keys _ ih =>
    rw [sortKeys_obj]
    refine .obj _ ((keys_sortedFields fields).nodup_iff.mpr keys) ?_
    intro field hfield
    obtain ⟨before, hbefore, rfl⟩ := List.mem_map.mp ((perm_sortedFields fields).mem_iff.mp hfield)
    exact ih before hbefore

/-- A canonical text tells the object but for the order of its keys. -/
theorem canonical_eq_iff (style : JsonStyle) {fields other : Fields}
    (hfields : F.Printable (.obj fields)) (hother : F.Printable (.obj other)) :
    style.dumps F (sortKeys (.obj fields)) = style.dumps F (sortKeys (.obj other)) ↔
      sortKeys (.obj fields) = sortKeys (.obj other) := by
  constructor
  · intro h
    have hprinted := printable_sortKeys hfields
    have hprinted' := printable_sortKeys hother
    rw [sortKeys_obj] at hprinted hprinted' h ⊢
    rw [sortKeys_obj] at h ⊢
    have hloads := JsonStyle.loads_dumps style hprinted
    rw [h, JsonStyle.loads_dumps style hprinted'] at hloads
    exact (Except.ok.inj hloads).symm
  · intro h
    rw [h]

end VirtualContributor.Lib
