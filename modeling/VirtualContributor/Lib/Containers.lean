import Mathlib.Data.List.Induction
import Mathlib.Data.List.Nodup
import Mathlib.Data.List.Perm.Subperm

/-!
# Insertion-ordered sets, dictionaries and slices

The containers of a scripting language, with their invariant as a field.

* `OrderedSet` is a set that remembers the order of insertion, so that a loop
  over it is a loop over a list.  Its list has no duplicates, so `card` is the
  size of the set.
* `OrderedDict` is a dictionary in order of first insertion.  Every key has
  one entry.
* `slices n xs` cuts a list into runs of `n`, which is the loop
  `for i in range(0, len(xs), n)` over `xs[i : i + n]`.
-/

namespace VirtualContributor.Lib

/-! ## Sets -/

/-- A duplicate-free list, read as a set. -/
structure OrderedSet (α : Type) where
  toList : List α
  nodup : toList.Nodup

namespace OrderedSet

variable {α : Type}

instance : Membership α (OrderedSet α) := ⟨fun s a => a ∈ s.toList⟩

theorem mem_def {a : α} {s : OrderedSet α} : a ∈ s ↔ a ∈ s.toList := Iff.rfl

instance [DecidableEq α] (a : α) (s : OrderedSet α) : Decidable (a ∈ s) :=
  inferInstanceAs (Decidable (a ∈ s.toList))

/-- The empty set. -/
def empty : OrderedSet α := ⟨[], List.nodup_nil⟩

/-- The number of elements. -/
def card (s : OrderedSet α) : Nat := s.toList.length

/-- Whether the set has no element. -/
def isEmpty (s : OrderedSet α) : Bool := s.toList.isEmpty

@[simp] theorem not_mem_empty (a : α) : a ∉ (empty : OrderedSet α) := List.not_mem_nil

theorem isEmpty_iff {s : OrderedSet α} : s.isEmpty = true ↔ ∀ a, a ∉ s := by
  unfold isEmpty
  rw [List.isEmpty_iff, List.eq_nil_iff_forall_not_mem]
  rfl

variable [DecidableEq α]

/-- Add an element at the end, unless it is there. -/
def insert (s : OrderedSet α) (a : α) : OrderedSet α :=
  if h : a ∈ s.toList then s
  else ⟨s.toList ++ [a], by
    rw [← List.concat_eq_append]
    exact s.nodup.concat h⟩

@[simp] theorem mem_insert {s : OrderedSet α} {a b : α} : b ∈ s.insert a ↔ b ∈ s ∨ b = a := by
  unfold insert
  split
  · rename_i h
    constructor
    · exact Or.inl
    · rintro (hb | rfl)
      · exact hb
      · exact h
  · rw [mem_def, mem_def, List.mem_append, List.mem_singleton]

theorem toList_insert_of_new {s : OrderedSet α} {a : α} (h : a ∉ s) :
    (s.insert a).toList = s.toList ++ [a] := by
  unfold insert
  rw [dif_neg (mem_def.not.mp h)]

/-- Add every element of a list. -/
def insertAll (s : OrderedSet α) (xs : List α) : OrderedSet α := xs.foldl insert s

@[simp] theorem mem_insertAll {s : OrderedSet α} {xs : List α} {a : α} :
    a ∈ s.insertAll xs ↔ a ∈ s ∨ a ∈ xs := by
  unfold insertAll
  induction xs generalizing s with
  | nil => simp
  | cons x xs ih =>
    rw [List.foldl_cons, ih, mem_insert, List.mem_cons, or_assoc]

/-- The set of the elements of a list. -/
def ofList (xs : List α) : OrderedSet α := empty.insertAll xs

@[simp] theorem mem_ofList {xs : List α} {a : α} : a ∈ ofList xs ↔ a ∈ xs := by
  simp [ofList]

theorem insertAll_append (s : OrderedSet α) (xs ys : List α) :
    s.insertAll (xs ++ ys) = (s.insertAll xs).insertAll ys :=
  List.foldl_append ..

theorem insert_of_mem {s : OrderedSet α} {a : α} (h : a ∈ s) : s.insert a = s := by
  unfold insert
  rw [dif_pos (mem_def.mp h)]

/-- The set of a list without duplicates is the list. -/
theorem toList_ofList_of_nodup {xs : List α} (hxs : xs.Nodup) : (ofList xs).toList = xs := by
  induction xs using List.reverseRecOn with
  | nil => rfl
  | append_singleton xs x ih =>
    rw [List.nodup_append] at hxs
    have hnew : x ∉ ofList xs := by
      rw [mem_ofList]
      exact fun hmem => hxs.2.2 x hmem x (List.mem_singleton_self _) rfl
    have hlast : ofList (xs ++ [x]) = (ofList xs).insert x := by
      rw [ofList, insertAll_append]
      rfl
    rw [hlast, toList_insert_of_new hnew, ih hxs.1]

/-- Set union. -/
def union (s t : OrderedSet α) : OrderedSet α := s.insertAll t.toList

@[simp] theorem mem_union {s t : OrderedSet α} {a : α} : a ∈ s.union t ↔ a ∈ s ∨ a ∈ t :=
  mem_insertAll

/-- Set difference. -/
def diff (s t : OrderedSet α) : OrderedSet α :=
  ⟨s.toList.filter (fun a => a ∉ t), s.nodup.filter _⟩

@[simp] theorem mem_diff {s t : OrderedSet α} {a : α} : a ∈ s.diff t ↔ a ∈ s ∧ a ∉ t := by
  rw [mem_def, diff, List.mem_filter, decide_eq_true_iff]
  rfl

end OrderedSet

/-! ## Dictionaries -/

/-- A list of key-value pairs with one pair for each key. -/
@[ext] structure OrderedDict (κ ν : Type) where
  entries : List (κ × ν)
  nodup : (entries.map Prod.fst).Nodup

namespace OrderedDict

variable {κ ν : Type}

/-- The empty dictionary. -/
def empty : OrderedDict κ ν := ⟨[], List.nodup_nil⟩

/-- Whether the dictionary has no key. -/
def isEmpty (d : OrderedDict κ ν) : Bool := d.entries.isEmpty

variable [DecidableEq κ]

/-- The value of a key, if it has one. -/
def get? (d : OrderedDict κ ν) (k : κ) : Option ν := d.entries.lookup k

/-- Assign a value: in place for a key that is there, else at the end. -/
def set (d : OrderedDict κ ν) (k : κ) (v : ν) : OrderedDict κ ν :=
  if h : k ∈ d.entries.map Prod.fst then
    ⟨d.entries.map (fun e => if e.1 = k then (k, v) else e), by
      have hkeys : (d.entries.map (fun e => if e.1 = k then (k, v) else e)).map Prod.fst
          = d.entries.map Prod.fst := by
        rw [List.map_map]
        refine List.map_congr_left fun e _ => ?_
        by_cases he : e.1 = k <;> simp [he]
      rw [hkeys]
      exact d.nodup⟩
  else
    ⟨d.entries ++ [(k, v)], by
      rw [List.map_append, List.map_singleton, ← List.concat_eq_append]
      exact d.nodup.concat h⟩

@[simp] theorem get?_empty (k : κ) : (empty : OrderedDict κ ν).get? k = none := rfl

private theorem lookup_cons_ite (es : List (κ × ν)) (k k' : κ) (v : ν) :
    List.lookup k' ((k, v) :: es) = if k' = k then some v else es.lookup k' := by
  by_cases h : k' = k
  · subst h
    simp
  · simp only [List.lookup_cons, beq_eq_false_iff_ne.mpr h, if_neg h]

private theorem lookup_map_set (es : List (κ × ν)) (k k' : κ) (v : ν)
    (h : k ∈ es.map Prod.fst) :
    (es.map (fun e => if e.1 = k then (k, v) else e)).lookup k'
      = if k' = k then some v else es.lookup k' := by
  induction es with
  | nil => simp at h
  | cons e es ih =>
    obtain ⟨k₀, v₀⟩ := e
    rw [List.map_cons, lookup_cons_ite]
    by_cases h₀ : k₀ = k
    · subst h₀
      rw [if_pos rfl, lookup_cons_ite]
      by_cases hin : k₀ ∈ es.map Prod.fst
      · rw [ih hin]
        split_ifs <;> rfl
      · have hsame : es.map (fun e => if e.1 = k₀ then (k₀, v) else e) = es := by
          refine (List.map_congr_left fun e he => ?_).trans (List.map_id es)
          have hne : e.1 ≠ k₀ := fun heq => hin (heq ▸ List.mem_map_of_mem he)
          simp [hne]
        rw [hsame]
        split_ifs <;> rfl
    · have hin : k ∈ es.map Prod.fst := by
        rw [List.map_cons, List.mem_cons] at h
        exact h.resolve_left (fun heq => h₀ heq.symm)
      rw [if_neg h₀, lookup_cons_ite, ih hin]
      by_cases hk : k' = k₀
      · rw [if_pos hk, if_pos hk, if_neg (fun heq => h₀ (hk ▸ heq))]
      · rw [if_neg hk, if_neg hk]

private theorem lookup_append_new (es : List (κ × ν)) (k k' : κ) (v : ν)
    (h : k ∉ es.map Prod.fst) :
    (es ++ [(k, v)]).lookup k' = if k' = k then some v else es.lookup k' := by
  induction es with
  | nil => exact lookup_cons_ite [] k k' v
  | cons e es ih =>
    obtain ⟨k₀, v₀⟩ := e
    rw [List.map_cons, List.mem_cons, not_or] at h
    rw [List.cons_append, lookup_cons_ite, lookup_cons_ite, ih h.2]
    by_cases hk : k' = k₀
    · rw [if_pos hk, if_pos hk, if_neg (fun heq => h.1 (heq.symm.trans hk))]
    · rw [if_neg hk, if_neg hk]

/-- Reading after an assignment. -/
@[simp] theorem get?_set (d : OrderedDict κ ν) (k k' : κ) (v : ν) :
    (d.set k v).get? k' = if k' = k then some v else d.get? k' := by
  unfold set get?
  split
  · rename_i h
    exact lookup_map_set d.entries k k' v h
  · rename_i h
    exact lookup_append_new d.entries k k' v h

theorem get?_eq_none {d : OrderedDict κ ν} {k : κ} :
    d.get? k = none ↔ k ∉ d.entries.map Prod.fst := by
  simp only [get?, List.lookup_eq_none_iff, List.mem_map, not_exists, not_and, bne_iff_ne, ne_eq,
    @eq_comm _ k]

/-- A new key is put at the end. -/
theorem entries_set_of_new {d : OrderedDict κ ν} {k : κ} {v : ν} (h : d.get? k = none) :
    (d.set k v).entries = d.entries ++ [(k, v)] := by
  unfold set
  rw [dif_neg (get?_eq_none.mp h)]

theorem isEmpty_iff {d : OrderedDict κ ν} : d.isEmpty = true ↔ ∀ k, d.get? k = none := by
  unfold isEmpty get?
  cases d.entries with
  | nil => simp
  | cons e es =>
    obtain ⟨k, v⟩ := e
    simp only [List.isEmpty_cons, Bool.false_eq_true, false_iff, not_forall]
    exact ⟨k, by simp⟩

/-- Assign the pairs of a list in order. -/
def setAll (d : OrderedDict κ ν) (es : List (κ × ν)) : OrderedDict κ ν :=
  es.foldl (fun d e => d.set e.1 e.2) d

/-- What is read after some assignments was assigned or was there. -/
theorem mem_of_get?_setAll {d : OrderedDict κ ν} {es : List (κ × ν)} {k : κ} {v : ν}
    (h : (d.setAll es).get? k = some v) : (k, v) ∈ es ∨ d.get? k = some v := by
  induction es generalizing d with
  | nil => exact Or.inr h
  | cons e es ih =>
    rcases ih h with hmem | hget
    · exact Or.inl (List.mem_cons_of_mem _ hmem)
    · rw [get?_set] at hget
      split at hget
      · rename_i hk
        subst hk
        obtain rfl := Option.some.inj hget
        exact Or.inl (List.mem_cons_self ..)
      · exact Or.inr hget

/-- A key that is assigned has a value. -/
theorem isSome_get?_setAll {d : OrderedDict κ ν} {es : List (κ × ν)} {k : κ}
    (h : k ∈ es.map Prod.fst ∨ (d.get? k).isSome = true) :
    ((d.setAll es).get? k).isSome = true := by
  induction es generalizing d with
  | nil => exact h.resolve_left List.not_mem_nil
  | cons e es ih =>
    refine ih ?_
    rw [List.map_cons, List.mem_cons, or_assoc] at h
    rw [get?_set]
    rcases h with rfl | hmem | hsome
    · exact Or.inr (by rw [if_pos rfl]; rfl)
    · exact Or.inl hmem
    · refine Or.inr ?_
      split
      · rfl
      · exact hsome

/-- What is read after some assignments is the last value assigned, or the
value from before. -/
theorem get?_setAll (d : OrderedDict κ ν) (es : List (κ × ν)) (k : κ) :
    (d.setAll es).get? k = ((es.filter (·.1 = k)).getLast?.map Prod.snd).or (d.get? k) := by
  induction es generalizing d with
  | nil => rfl
  | cons e es ih =>
    have hstep : (d.setAll (e :: es)).get? k = ((d.set e.1 e.2).setAll es).get? k := rfl
    rw [hstep, ih, get?_set, List.filter_cons]
    by_cases hk : e.1 = k
    · rw [if_pos hk.symm, if_pos (decide_eq_true hk), List.getLast?_cons]
      cases (es.filter (·.1 = k)).getLast? with
      | none => rfl
      | some last => rfl
    · rw [if_neg fun h => hk h.symm, if_neg (by simpa using hk)]

/-- `d.update(d')`. -/
def update (d d' : OrderedDict κ ν) : OrderedDict κ ν := d.setAll d'.entries

private theorem get?_foldl_set (es : List (κ × ν)) (hes : (es.map Prod.fst).Nodup)
    (d : OrderedDict κ ν) (k : κ) :
    (es.foldl (fun d e => d.set e.1 e.2) d).get? k = (es.lookup k).or (d.get? k) := by
  induction es generalizing d with
  | nil => rfl
  | cons e es ih =>
    obtain ⟨k₀, v₀⟩ := e
    rw [List.map_cons, List.nodup_cons] at hes
    rw [List.foldl_cons, ih hes.2]
    by_cases hk : k = k₀
    · subst hk
      have hnone : es.lookup k = none := by
        rw [List.lookup_eq_none_iff]
        intro p hp
        have hne : p.1 ≠ k := fun heq => hes.1 (List.mem_map.mpr ⟨p, hp, heq⟩)
        simp [Ne.symm hne]
      simp [hnone]
    · rw [get?_set, if_neg hk, lookup_cons_ite, if_neg hk]

@[simp] theorem get?_update (d d' : OrderedDict κ ν) (k : κ) :
    (d.update d').get? k = (d'.get? k).or (d.get? k) :=
  get?_foldl_set d'.entries d'.nodup d k

/-- `d.pop(k, None)`. -/
def erase (d : OrderedDict κ ν) (k : κ) : OrderedDict κ ν :=
  ⟨d.entries.filter (fun e => e.1 ≠ k), (List.filter_sublist.map _).nodup d.nodup⟩

private theorem lookup_filter_ne (es : List (κ × ν)) (k k' : κ) :
    (es.filter (fun e => e.1 ≠ k)).lookup k' = if k' = k then none else es.lookup k' := by
  induction es with
  | nil => simp
  | cons e es ih =>
    obtain ⟨k₀, v₀⟩ := e
    by_cases h₀ : k₀ = k
    · subst h₀
      rw [List.filter_cons_of_neg (by simp), ih, lookup_cons_ite]
      split_ifs <;> rfl
    · rw [List.filter_cons_of_pos (by simpa using h₀), lookup_cons_ite, ih, lookup_cons_ite]
      by_cases hk : k' = k₀
      · rw [if_pos hk, if_pos hk, if_neg (fun heq => h₀ (hk ▸ heq))]
      · rw [if_neg hk, if_neg hk]

@[simp] theorem get?_erase (d : OrderedDict κ ν) (k k' : κ) :
    (d.erase k).get? k' = if k' = k then none else d.get? k' :=
  lookup_filter_ne d.entries k k'

/-- `d.values()`. -/
def values (d : OrderedDict κ ν) : List ν := d.entries.map Prod.snd

private theorem lookup_of_mem {es : List (κ × ν)} (hes : (es.map Prod.fst).Nodup) {k : κ} {v : ν}
    (h : (k, v) ∈ es) : es.lookup k = some v := by
  induction es with
  | nil => cases h
  | cons e es ih =>
    obtain ⟨k₀, v₀⟩ := e
    obtain ⟨hnew, hes⟩ := List.nodup_cons.mp hes
    rw [lookup_cons_ite]
    rcases List.mem_cons.mp h with heq | hmem
    · obtain ⟨rfl, rfl⟩ := Prod.mk.inj heq
      rw [if_pos rfl]
    · have hne : k ≠ k₀ := by
        rintro rfl
        exact hnew (List.mem_map.mpr ⟨(k, v), hmem, rfl⟩)
      rw [if_neg hne, ih hes hmem]

theorem mem_entries {d : OrderedDict κ ν} {k : κ} {v : ν} :
    (k, v) ∈ d.entries ↔ d.get? k = some v := by
  constructor
  · exact lookup_of_mem d.nodup
  · intro hk
    obtain ⟨l₁, l₂, heq, _⟩ := List.lookup_eq_some_iff.mp hk
    rw [heq]
    simp

theorem mem_values {d : OrderedDict κ ν} {v : ν} : v ∈ d.values ↔ ∃ k, d.get? k = some v := by
  simp only [← mem_entries, values, List.mem_map, Prod.exists, exists_eq_right]

/-- New keys are put at the end, in their order. -/
theorem entries_setAll_of_new {d : OrderedDict κ ν} {es : List (κ × ν)}
    (hes : (es.map Prod.fst).Nodup) (hnew : ∀ e ∈ es, d.get? e.1 = none) :
    (d.setAll es).entries = d.entries ++ es := by
  induction es generalizing d with
  | nil => exact (List.append_nil _).symm
  | cons e es ih =>
    rw [List.map_cons, List.nodup_cons] at hes
    obtain ⟨he, hnew⟩ := List.forall_mem_cons.mp hnew
    have hrest : ∀ e' ∈ es, (d.set e.1 e.2).get? e'.1 = none := by
      intro e' hmem
      have hne : e'.1 ≠ e.1 := fun heq => hes.1 (heq ▸ List.mem_map_of_mem hmem)
      rw [get?_set, if_neg hne]
      exact hnew e' hmem
    show ((d.set e.1 e.2).setAll es).entries = _
    rw [ih hes.2 hrest, entries_set_of_new he, List.append_assoc]
    rfl

/-! ### Values that are updated

`d[key(x)] = step(x, d.get(key(x), start))`, for the items `x` of a list. -/

section Update

variable {ι : Type} (key : ι → κ) (step : ι → ν → ν) (start : ν)

/-- One update. -/
def modify (d : OrderedDict κ ν) (x : ι) : OrderedDict κ ν :=
  d.set (key x) (step x ((d.get? (key x)).getD start))

/-- Each key's value goes through the steps of its own items. -/
theorem getD_foldl_modify (xs : List ι) (d : OrderedDict κ ν) (k : κ) :
    ((xs.foldl (modify key step start) d).get? k).getD start =
      (xs.filter (key · = k)).foldl (fun v x => step x v) ((d.get? k).getD start) := by
  induction xs generalizing d with
  | nil => rfl
  | cons x xs ih =>
    rw [List.foldl_cons, ih, modify, get?_set, List.filter_cons]
    by_cases hk : key x = k
    · rw [if_pos hk.symm, if_pos (decide_eq_true hk), List.foldl_cons, hk]
      rfl
    · rw [if_neg fun h => hk h.symm, if_neg (by simpa using hk)]

/-- The keys, in the order of their first assignment. -/
def keys (d : OrderedDict κ ν) : OrderedSet κ := ⟨d.entries.map Prod.fst, d.nodup⟩

theorem keys_set (d : OrderedDict κ ν) (k : κ) (v : ν) : (d.set k v).keys = d.keys.insert k := by
  unfold keys set OrderedSet.insert
  by_cases h : k ∈ d.entries.map Prod.fst
  · have hkeys : (d.entries.map (fun e => if e.1 = k then (k, v) else e)).map Prod.fst =
        d.entries.map Prod.fst := by
      rw [List.map_map]
      apply List.map_congr_left
      intro e _
      by_cases he : e.1 = k <;> simp [he]
    simp only [dif_pos h, hkeys]
  · simp only [dif_neg h, List.map_append, List.map_singleton]

theorem keys_foldl_modify (xs : List ι) (d : OrderedDict κ ν) :
    (xs.foldl (modify key step start) d).keys = d.keys.insertAll (xs.map key) := by
  induction xs generalizing d with
  | nil => rfl
  | cons x xs ih =>
    rw [List.foldl_cons, ih, modify, keys_set]
    rfl

end Update

/-- `d.setdefault(k, []).append(x)`. -/
def push {ν : Type} (d : OrderedDict κ (List ν)) (k : κ) (x : ν) : OrderedDict κ (List ν) :=
  d.set k ((d.get? k).getD [] ++ [x])

end OrderedDict

/-! ## Slices -/

private def slicesAux {α : Type} (n : Nat) : Nat → List α → List (List α)
  | _, [] => []
  | 0, _ => []
  | fuel + 1, x :: xs => (x :: xs).take n :: slicesAux n fuel ((x :: xs).drop n)

/-- The slices `xs[0 : n]`, `xs[n : 2n]`, and so on.  The list itself bounds
the number of slices, since `n` is positive. -/
def slices {α : Type} (n : Nat) (xs : List α) : List (List α) := slicesAux n xs.length xs

private theorem flatten_slicesAux {α : Type} {n : Nat} (hn : 0 < n) :
    ∀ (fuel : Nat) (xs : List α), xs.length ≤ fuel → (slicesAux n fuel xs).flatten = xs := by
  intro fuel
  induction fuel with
  | zero =>
    intro xs h
    rw [List.length_eq_zero_iff.mp (Nat.le_zero.mp h)]
    rfl
  | succ fuel ih =>
    intro xs h
    cases xs with
    | nil => rfl
    | cons x xs =>
      rw [slicesAux, List.flatten_cons, ih]
      · exact List.take_append_drop n (x :: xs)
      · rw [List.length_drop]
        rw [List.length_cons] at h ⊢
        omega

/-- The slices are the list, cut. -/
@[simp] theorem flatten_slices {α : Type} {n : Nat} (hn : 0 < n) (xs : List α) :
    (slices n xs).flatten = xs :=
  flatten_slicesAux hn xs.length xs (Nat.le_refl _)

theorem mem_of_mem_slices {α : Type} {n : Nat} (hn : 0 < n) {xs ys : List α} {x : α}
    (h : ys ∈ slices n xs) (hx : x ∈ ys) : x ∈ xs := by
  rw [← flatten_slices hn xs]
  exact List.mem_flatten.mpr ⟨ys, h, hx⟩

private theorem slicesAux_map {α β : Type} (f : α → β) (n fuel : Nat) (xs : List α) :
    slicesAux n fuel (xs.map f) = (slicesAux n fuel xs).map (List.map f) := by
  induction fuel generalizing xs with
  | zero => cases xs <;> rfl
  | succ fuel ih =>
    cases xs with
    | nil => rfl
    | cons x xs =>
      rw [List.map_cons, slicesAux, slicesAux, ← List.map_cons, ← List.map_take, ← List.map_drop,
        ih, List.map_cons]

theorem slices_map {α β : Type} (f : α → β) (n : Nat) (xs : List α) :
    slices n (xs.map f) = (slices n xs).map (List.map f) := by
  unfold slices
  rw [List.length_map, slicesAux_map]

private theorem bounds_of_mem_slicesAux {α : Type} {n : Nat} (hn : 0 < n) {fuel : Nat}
    {xs ys : List α} (h : ys ∈ slicesAux n fuel xs) : ys ≠ [] ∧ ys.length ≤ n := by
  induction fuel generalizing xs with
  | zero => cases xs <;> exact absurd h List.not_mem_nil
  | succ fuel ih =>
    cases xs with
    | nil => exact absurd h List.not_mem_nil
    | cons x xs =>
      rw [slicesAux] at h
      obtain rfl | h := List.mem_cons.mp h
      · refine ⟨?_, List.length_take_le _ _⟩
        rw [ne_eq, List.take_eq_nil_iff]
        simp [Nat.pos_iff_ne_zero.mp hn]
      · exact ih h

/-- A slice has an element, and no more than `n`. -/
theorem bounds_of_mem_slices {α : Type} {n : Nat} (hn : 0 < n) {xs ys : List α}
    (h : ys ∈ slices n xs) : ys ≠ [] ∧ ys.length ≤ n :=
  bounds_of_mem_slicesAux hn h

@[simp] theorem slices_nil {α : Type} (n : Nat) : slices n ([] : List α) = [] := rfl

private theorem length_slicesAux_le {α : Type} {n : Nat} (hn : 0 < n) (fuel : Nat)
    (xs : List α) : (slicesAux n fuel xs).length ≤ xs.length := by
  induction fuel generalizing xs with
  | zero => cases xs <;> simp [slicesAux]
  | succ fuel ih =>
    cases xs with
    | nil => simp [slicesAux]
    | cons x xs =>
      have hrest := ih ((x :: xs).drop n)
      rw [List.length_drop] at hrest
      rw [slicesAux, List.length_cons]
      rw [List.length_cons] at hrest ⊢
      omega

/-- Slices of two or more elements are fewer than the elements. -/
theorem length_slices_lt {α : Type} {n : Nat} (hn : 2 ≤ n) {xs : List α} (h : 2 ≤ xs.length) :
    (slices n xs).length < xs.length := by
  cases xs with
  | nil => simp at h
  | cons x xs =>
    have hrest := length_slicesAux_le (by omega : 0 < n) xs.length ((x :: xs).drop n)
    rw [List.length_drop] at hrest
    show (slicesAux n (xs.length + 1) (x :: xs)).length < _
    rw [slicesAux, List.length_cons]
    rw [List.length_cons] at hrest h ⊢
    omega

end VirtualContributor.Lib
