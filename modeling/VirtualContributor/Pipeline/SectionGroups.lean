import VirtualContributor.Lib.SplitText
import VirtualContributor.Pipeline.Summaries

/-!
# The groups of an overview

`BodyOfKnowledgeSummaryStep` groups the sections of an overview by their length
before it joins the members of a group.  The loop counts the members and not the
separators between them.

* `groupedSections_eq`: the texts of the groups, and no section is lost.
* `grouped_within_limit_iff`: every group of several sections is within the limit
  unless separators take it past the limit.
-/

namespace VirtualContributor.Pipeline

open Lib

/-! ## Groups and their members -/

/-- Where the loop stands: the finished groups, the current one and its size. -/
structure Grouping where
  groups : List (List String) := []
  current : List String := []
  size : Nat := 0

namespace Grouping

/-- One turn of the loop. -/
def add (limit : Nat) (g : Grouping) (text : String) : Grouping :=
  if !g.current.isEmpty && g.size + text.length > limit then
    { groups := g.groups ++ [g.current], current := [text], size := text.length }
  else { g with current := g.current ++ [text], size := g.size + text.length }

/-- The loop over some sections. -/
def addAll (limit : Nat) (g : Grouping) (texts : List String) : Grouping :=
  texts.foldl (add limit) g

/-- All groups, the current one with them. -/
def all (g : Grouping) : List (List String) :=
  if g.current.isEmpty then g.groups else g.groups ++ [g.current]

/-- What the loop holds after some sections. -/
structure Holds (texts : List String) (g : Grouping) : Prop where
  members : g.groups.flatten ++ g.current = texts
  size : g.size = (g.current.map String.length).sum
  groups : ∀ group ∈ g.groups, group ≠ []

/-- The section has room in the current group by its length, and has none with the
separators. -/
structure Overflows (limit : Nat) (g : Grouping) (text : String) : Prop where
  several : g.current ≠ []
  fits : g.size + text.length ≤ limit
  tooLong : limit < g.size + text.length + g.current.length * SEPARATOR.length

variable {limit : Nat} {texts : List String} {g : Grouping} {text : String}

/-- A turn begins a group or adds to the current one. -/
theorem add_cases (limit : Nat) (g : Grouping) (text : String) :
    (g.current ≠ [] ∧ limit < g.size + text.length ∧
      g.add limit text = ⟨g.groups ++ [g.current], [text], text.length⟩) ∨
    ((g.current = [] ∨ g.size + text.length ≤ limit) ∧
      g.add limit text = ⟨g.groups, g.current ++ [text], g.size + text.length⟩) := by
  unfold add
  split
  · rename_i h
    simp only [Bool.and_eq_true, Bool.not_eq_true', List.isEmpty_eq_false_iff,
      decide_eq_true_eq] at h
    exact .inl ⟨h.1, h.2, rfl⟩
  · rename_i h
    simp only [Bool.and_eq_true, Bool.not_eq_true', List.isEmpty_eq_false_iff,
      decide_eq_true_eq, not_and, not_lt] at h
    refine .inr ⟨?_, rfl⟩
    by_cases hcurrent : g.current = []
    · exact .inl hcurrent
    · exact .inr (h hcurrent)

theorem Holds.add (h : Holds texts g) (text : String) :
    Holds (texts ++ [text]) (g.add limit text) := by
  obtain ⟨hcurrent, _, heq⟩ | ⟨_, heq⟩ := add_cases limit g text
  · rw [heq]
    constructor
    · simp [← h.members]
    · simp
    · intro group hgroup
      obtain hgroup | hgroup := List.mem_append.mp hgroup
      · exact h.groups group hgroup
      · rw [List.mem_singleton.mp hgroup]
        exact hcurrent
  · rw [heq]
    constructor
    · simp [← h.members]
    · simp [h.size]
    · exact h.groups

theorem addAll_single (limit : Nat) (text : String) :
    Grouping.addAll limit {} [text] = ⟨[], [text], text.length⟩ := by
  simp [Grouping.addAll, Grouping.add]

theorem Holds.addAll (h : Holds texts g) (more : List String) :
    Holds (texts ++ more) (g.addAll limit more) := by
  induction more generalizing texts g with
  | nil =>
    rw [List.append_nil]
    exact h
  | cons text more ih =>
    have hmore : Holds (texts ++ [text] ++ more) ((g.add limit text).addAll limit more) :=
      ih (h.add text)
    rw [List.append_assoc] at hmore
    exact hmore

theorem holds_empty : Holds [] {} := ⟨rfl, rfl, by simp⟩

theorem Holds.flatten_all (h : Holds texts g) : g.all.flatten = texts := by
  rw [← h.members]
  unfold all
  split
  · rename_i hcurrent
    rw [List.isEmpty_iff.mp hcurrent, List.append_nil]
  · simp

theorem Holds.ne_nil_of_mem_all (h : Holds texts g) : ∀ group ∈ g.all, group ≠ [] := by
  intro group hgroup
  unfold all at hgroup
  split at hgroup
  · exact h.groups group hgroup
  · rename_i hcurrent
    obtain hgroup | hgroup := List.mem_append.mp hgroup
    · exact h.groups group hgroup
    · rw [List.mem_singleton.mp hgroup]
      exact mt List.isEmpty_iff.mpr hcurrent

/-! ## Lengths -/

/-- A group is a single section, or its text is within the limit. -/
def Within (limit : Nat) (group : List String) : Prop :=
  (SEPARATOR.intercalate group).length ≤ limit ∨ group.length = 1

structure Fits (limit : Nat) (g : Grouping) : Prop where
  groups : ∀ group ∈ g.groups, Within limit group
  current : g.current = [] ∨ Within limit g.current

theorem length_add (h : Holds texts g) (text : String) :
    (SEPARATOR.intercalate (g.current ++ [text])).length =
      g.size + text.length + g.current.length * SEPARATOR.length := by
  rw [length_intercalate, h.size]
  simp

theorem Fits.add (h : Holds texts g) (hfits : Fits limit g) (hroom : ¬ Overflows limit g text) :
    Fits limit (g.add limit text) := by
  have hsingle : Within limit [text] := .inr rfl
  obtain ⟨hcurrent, _, heq⟩ | ⟨hadded, heq⟩ := add_cases limit g text
  · rw [heq]
    refine ⟨fun group hgroup => ?_, .inr hsingle⟩
    obtain hgroup | hgroup := List.mem_append.mp hgroup
    · exact hfits.groups group hgroup
    · rw [List.mem_singleton.mp hgroup]
      exact hfits.current.resolve_left hcurrent
  · rw [heq]
    refine ⟨hfits.groups, .inr ?_⟩
    by_cases hcurrent : g.current = []
    · show Within limit (g.current ++ [text])
      rw [hcurrent]
      exact hsingle
    · have hle := hadded.resolve_left hcurrent
      refine .inl ((length_add h text).trans_le ?_)
      exact Nat.le_of_not_lt fun hover => hroom ⟨hcurrent, hle, hover⟩

/-- The loop keeps to the limit as long as no section overflows its group. -/
theorem Fits.addAll (h : Holds texts g) (hfits : Fits limit g) (more : List String)
    (hroom : ∀ before text after, more = before ++ text :: after →
      ¬ Overflows limit (g.addAll limit before) text) :
    Fits limit (g.addAll limit more) := by
  induction more generalizing texts g with
  | nil => exact hfits
  | cons text more ih =>
    have hfirst : Fits limit (g.add limit text) := hfits.add h (hroom [] text more rfl)
    refine ih (h.add text) hfirst fun before next after hmore => ?_
    exact hroom (text :: before) next after (congrArg (List.cons text) hmore)

theorem Fits.within_all (hfits : Fits limit g) : ∀ group ∈ g.all, Within limit group := by
  intro group hgroup
  unfold all at hgroup
  split at hgroup
  · exact hfits.groups group hgroup
  · rename_i hcurrent
    obtain hgroup | hgroup := List.mem_append.mp hgroup
    · exact hfits.groups group hgroup
    · rw [List.mem_singleton.mp hgroup]
      exact hfits.current.resolve_left (mt List.isEmpty_iff.mpr hcurrent)

/-! ## What becomes of a group -/

theorem mem_groups_addAll {group : List String} (hgroup : group ∈ g.groups)
    (more : List String) : group ∈ (g.addAll limit more).groups := by
  induction more generalizing g with
  | nil => exact hgroup
  | cons text more ih =>
    apply ih
    obtain ⟨_, _, heq⟩ | ⟨_, heq⟩ := add_cases limit g text
    · rw [heq]
      exact List.mem_append_left _ hgroup
    · rw [heq]
      exact hgroup

theorem mem_all_of_mem_groups {group : List String} (hgroup : group ∈ g.groups) :
    group ∈ g.all := by
  unfold all
  split
  · exact hgroup
  · exact List.mem_append_left _ hgroup

/-- The members of the current group stay together. -/
theorem exists_group_of_current (hcurrent : g.current ≠ []) (more : List String) :
    ∃ group ∈ (g.addAll limit more).all, g.current <+: group := by
  induction more generalizing g with
  | nil =>
    refine ⟨g.current, ?_, List.prefix_rfl⟩
    unfold addAll all
    rw [List.foldl_nil, if_neg (mt List.isEmpty_iff.mp hcurrent)]
    exact List.mem_append_right _ (List.mem_singleton_self _)
  | cons text more ih =>
    show ∃ group ∈ ((g.add limit text).addAll limit more).all, _
    obtain ⟨_, _, heq⟩ | ⟨_, heq⟩ := add_cases limit g text
    · have hmem : g.current ∈ (g.add limit text).groups := by
        rw [heq]
        exact List.mem_append_right _ (List.mem_singleton_self _)
      exact ⟨g.current, mem_all_of_mem_groups (mem_groups_addAll hmem more), List.prefix_rfl⟩
    · have hadded : (g.add limit text).current = g.current ++ [text] := by rw [heq]
      obtain ⟨group, hgroup, hprefix⟩ := ih (g := g.add limit text) (by simp [hadded])
      rw [hadded] at hprefix
      exact ⟨group, hgroup, (List.prefix_append _ _).trans hprefix⟩

theorem length_joined_prefix {group more : List String} (h : group <+: more) :
    (SEPARATOR.intercalate group).length ≤ (SEPARATOR.intercalate more).length := by
  obtain ⟨rest, rfl⟩ := h
  rw [length_intercalate, length_intercalate, List.map_append, List.sum_append, List.length_append]
  have hseparators := Nat.mul_le_mul_right SEPARATOR.length
    (show group.length - 1 ≤ group.length + rest.length - 1 by omega)
  omega

/-- A section that overflows its group takes that group past the limit. -/
theorem Overflows.not_within (hover : Overflows limit g text) (h : Holds texts g)
    (after : List String) :
    ∃ group ∈ (g.addAll limit (text :: after)).all, ¬ Within limit group := by
  obtain ⟨_, hflush, _⟩ | ⟨_, heq⟩ := add_cases limit g text
  · exact absurd hover.fits (Nat.not_le_of_lt hflush)
  · have hadded : (g.add limit text).current = g.current ++ [text] := by rw [heq]
    have hne : (g.add limit text).current ≠ [] := by simp [hadded]
    obtain ⟨group, hgroup, hprefix⟩ := @exists_group_of_current limit _ hne after
    rw [hadded] at hprefix
    have hlong : limit < (SEPARATOR.intercalate group).length := by
      refine Nat.lt_of_lt_of_le hover.tooLong ?_
      rw [← length_add h text]
      exact length_joined_prefix hprefix
    have hseveral : 2 ≤ group.length := by
      have hlength := hprefix.length_le
      have hpos := List.length_pos_of_ne_nil hover.several
      rw [List.length_append, List.length_singleton] at hlength
      omega
    refine ⟨group, hgroup, fun hwithin => ?_⟩
    obtain hle | hone := hwithin
    · exact absurd hle (Nat.not_le_of_lt hlong)
    · omega

end Grouping

/-! ## The sections of an overview -/

namespace BodyOfKnowledgeSummaryStep

open Grouping

/-- The longest text that a group of several sections should have. -/
def groupLimit (step : BodyOfKnowledgeSummaryStep) : Nat := max 1000 step.maxSectionChars

/-- The groups of some sections. -/
def sectionGroups (step : BodyOfKnowledgeSummaryStep) (texts : List String) :
    List (List String) :=
  (Grouping.addAll step.groupLimit {} texts).all

/-- The loop of the step keeps the text of each finished group. -/
theorem foldl_groupInto (limit : Nat) (g : Grouping) (texts : List String) :
    texts.foldl (groupInto limit) (g.groups.map SEPARATOR.intercalate, g.current, g.size) =
      ((g.addAll limit texts).groups.map SEPARATOR.intercalate, (g.addAll limit texts).current,
        (g.addAll limit texts).size) := by
  induction texts generalizing g with
  | nil => rfl
  | cons text texts ih =>
    have hturn : groupInto limit (g.groups.map SEPARATOR.intercalate, g.current, g.size) text =
        ((g.add limit text).groups.map SEPARATOR.intercalate, (g.add limit text).current,
          (g.add limit text).size) := by
      unfold groupInto Grouping.add
      dsimp only
      split
      · simp
      · rfl
    rw [List.foldl_cons, hturn]
    exact ih (g.add limit text)

theorem length_le_length_flatten {groups : List (List String)} (hne : ∀ group ∈ groups, group ≠ []) :
    groups.length ≤ groups.flatten.length := by
  induction groups with
  | nil => exact Nat.le_refl 0
  | cons group groups ih =>
    have hpos := List.length_pos_of_ne_nil (hne group List.mem_cons_self)
    have hle := ih fun more hmore => hne more (List.mem_cons_of_mem _ hmore)
    simp only [List.flatten_cons, List.length_append, List.length_cons]
    omega

/-- If there are as many groups as sections, each section is a group. -/
theorem map_joined_of_length_le {groups : List (List String)} (hne : ∀ group ∈ groups, group ≠ [])
    (hle : groups.flatten.length ≤ groups.length) :
    groups.map SEPARATOR.intercalate = groups.flatten := by
  induction groups with
  | nil => rfl
  | cons group groups ih =>
    have hpos := List.length_pos_of_ne_nil (hne group List.mem_cons_self)
    have hrest : ∀ more ∈ groups, more ≠ [] := fun more hmore =>
      hne more (List.mem_cons_of_mem _ hmore)
    have hmore := length_le_length_flatten hrest
    simp only [List.flatten_cons, List.length_append, List.length_cons] at hle
    obtain ⟨text, rfl⟩ := List.length_eq_one_iff.mp (show group.length = 1 by omega)
    rw [List.map_cons, ih hrest (by omega), List.flatten_cons, String.intercalate_singleton]
    rfl

/-- What goes to the model are the texts of the groups. -/
theorem groupedSections_eq (step : BodyOfKnowledgeSummaryStep) (texts : List String) :
    groupedSections step texts = (step.sectionGroups texts).map SEPARATOR.intercalate := by
  have hholds : Holds texts (Grouping.addAll step.groupLimit {} texts) :=
    holds_empty.addAll texts
  have hflatten : (step.sectionGroups texts).flatten = texts := hholds.flatten_all
  have hne : ∀ group ∈ step.sectionGroups texts, group ≠ [] := hholds.ne_nil_of_mem_all
  have hsingle (hle : texts.length ≤ (step.sectionGroups texts).length) :
      texts = (step.sectionGroups texts).map SEPARATOR.intercalate := by
    have hmap := map_joined_of_length_le hne (by rw [hflatten]; exact hle)
    rw [hmap, hflatten]
  unfold groupedSections
  split
  · have hloop : texts.foldl (groupInto (max 1000 step.maxSectionChars)) ([], [], 0) = _ :=
      foldl_groupInto step.groupLimit {} texts
    have hall : (if (Grouping.addAll step.groupLimit {} texts).current.isEmpty then
        (Grouping.addAll step.groupLimit {} texts).groups.map SEPARATOR.intercalate
      else (Grouping.addAll step.groupLimit {} texts).groups.map SEPARATOR.intercalate ++
        [SEPARATOR.intercalate (Grouping.addAll step.groupLimit {} texts).current]) =
          (step.sectionGroups texts).map SEPARATOR.intercalate := by
      unfold sectionGroups Grouping.all
      split
      · rfl
      · rw [List.map_append]
        rfl
    rw [hloop]
    dsimp only
    rw [hall, List.length_map]
    split
    · rfl
    · rename_i hmany
      exact hsingle (Nat.le_of_not_lt hmany)
  · rename_i hshort
    apply hsingle
    cases texts with
    | nil => exact Nat.zero_le _
    | cons text texts =>
      have hpos : step.sectionGroups (text :: texts) ≠ [] := by
        intro hnil
        rw [hnil] at hflatten
        cases hflatten
      have hlength := List.length_pos_of_ne_nil hpos
      omega

/-- The groups of some sections hold each of them once, in order, and their texts
are what goes to the model.  A group of several sections is within the limit. -/
structure GroupedWithin (step : BodyOfKnowledgeSummaryStep) (texts : List String) : Prop where
  texts_eq : groupedSections step texts = (step.sectionGroups texts).map SEPARATOR.intercalate
  members : (step.sectionGroups texts).flatten = texts
  within : ∀ group ∈ step.sectionGroups texts,
    (SEPARATOR.intercalate group).length ≤ step.groupLimit ∨ group.length = 1

/-- A section that overflows its group takes it past the limit. -/
theorem not_groupedWithin {step : BodyOfKnowledgeSummaryStep} {before after : List String}
    {text : String}
    (hover : Overflows step.groupLimit (Grouping.addAll step.groupLimit {} before) text) :
    ¬ step.GroupedWithin (before ++ text :: after) := by
  intro h
  obtain ⟨group, hgroup, hlong⟩ := hover.not_within (holds_empty.addAll before) after
  apply hlong
  apply h.within group
  unfold sectionGroups Grouping.addAll
  rw [List.foldl_append]
  exact hgroup

/-- Nothing is lost, and the groups are within the limit exactly when no section is
added to a group that has room for it but not for the separators. -/
theorem grouped_within_limit_iff (step : BodyOfKnowledgeSummaryStep) (texts : List String) :
    step.GroupedWithin texts ↔
      ∀ before text after, texts = before ++ text :: after →
        ¬ Overflows step.groupLimit (Grouping.addAll step.groupLimit {} before) text := by
  constructor
  · rintro h before text after rfl hover
    exact not_groupedWithin hover h
  · intro hroom
    have hholds : Holds texts (Grouping.addAll step.groupLimit {} texts) :=
      holds_empty.addAll texts
    have hfits : Fits step.groupLimit (Grouping.addAll step.groupLimit {} texts) :=
      Fits.addAll holds_empty ⟨by simp, .inl rfl⟩ texts hroom
    exact ⟨step.groupedSections_eq texts, hholds.flatten_all, hfits.within_all⟩

/-- A section of half the limit. -/
def halfSection : String := String.ofList (List.replicate 500 'x')

/-- Two sections that fill the limit leave no room for the separator. -/
theorem separator_exceeds_limit :
    ¬ GroupedWithin { maxSectionChars := 1000 } [halfSection, halfSection] := by
  have hlength : halfSection.length = 500 :=
    String.length_ofList.trans List.length_replicate
  have hstate : Grouping.addAll 1000 {} [halfSection] = ⟨[], [halfSection], 500⟩ := by
    rw [Grouping.addAll_single, hlength]
  have hover : Overflows 1000 (Grouping.addAll 1000 {} [halfSection]) halfSection := by
    rw [hstate]
    refine ⟨List.cons_ne_nil _ _, ?_, ?_⟩
    · rw [hlength]
    · rw [hlength]
      decide
  exact @not_groupedWithin { maxSectionChars := 1000 } [halfSection] [] _ hover

end BodyOfKnowledgeSummaryStep

end VirtualContributor.Pipeline
