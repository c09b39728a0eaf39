import Mathlib.Data.Bool.AllAny
import VirtualContributor.Lib.SplitText
import VirtualContributor.Retrieval.ContextSize

/-!
# Labels of untrusted metadata

The label of a block is one bracketed line whose parts cannot be confused with
each other, whatever the metadata of the row are.

* `labelText_of_mem_labelParts`: no part has a bracket, a middle dot or a blank
  other than a space.
* `shown_not_ownIds_iff`: a field repeats an identifier of its row only when it
  is cut to one that ends in a blank.
* `soundBlock_iff`: the label is sound unless that happens.
-/

namespace VirtualContributor.Retrieval

open Lib

/-! ## Texts of a label -/

/-- A text with no bracket, no middle dot and no blank but spaces. -/
def LabelText (text : String) : Prop :=
  ∀ c ∈ text.toList, c ≠ '[' ∧ c ≠ ']' ∧ c ≠ '·' ∧ (isPythonSpace c = true → c = ' ')

instance (text : String) : Decidable (LabelText text) :=
  decidable_of_iff ((text.toList.all fun c =>
      c ≠ '[' ∧ c ≠ ']' ∧ c ≠ '·' ∧ (isPythonSpace c = true → c = ' ')) = true)
    List.all_iff_forall_prop

theorem labelText_append {before after : String} (hbefore : LabelText before)
    (hafter : LabelText after) : LabelText (before ++ after) := by
  intro c hc
  rw [String.toList_append] at hc
  obtain hc | hc := List.mem_append.mp hc
  · exact hbefore c hc
  · exact hafter c hc

/-- What is left of a text once the unsafe characters are gone. -/
theorem labelText_joinWords (text : String) : LabelText (joinWords (removeUnsafe text)) := by
  intro c hc
  obtain rfl | ⟨hmem, hspace⟩ := mem_spaced hc
  · decide
  · unfold removeUnsafe at hmem
    rw [String.toList_ofList] at hmem
    have hsafe := (List.mem_filter.mp hmem).2
    simp only [Bool.and_eq_true, decide_eq_true_eq] at hsafe
    obtain ⟨⟨hopen, hclose⟩, hdot⟩ := hsafe
    exact ⟨hopen, hclose, hdot, by simp [hspace]⟩

theorem labelText_of_subset {text part : String} (h : LabelText text)
    (hpart : ∀ c ∈ part.toList, c ∈ text.toList) : LabelText part :=
  fun c hc => h c (hpart c hc)

theorem labelText_natText (n : Nat) : LabelText (toString n) := by
  intro c hc
  rw [Nat.toString_eq_repr, Nat.toList_repr] at hc
  have hdigit := Nat.isDigit_of_mem_toDigits (by decide) (by decide) hc
  have hrange : 48 ≤ c.toNat ∧ c.toNat ≤ 57 := by
    simp only [Char.isDigit, ge_iff_le, Bool.and_eq_true, decide_eq_true_eq,
      UInt32.le_iff_toNat_le] at hdigit
    exact hdigit
  refine ⟨?_, ?_, ?_, ?_⟩
  · rintro rfl
    exact absurd hrange (by decide)
  · rintro rfl
    exact absurd hrange (by decide)
  · rintro rfl
    exact absurd hrange (by decide)
  · intro hspace
    unfold isPythonSpace at hspace
    simp only [Bool.or_eq_true, Bool.and_eq_true, decide_eq_true_eq] at hspace
    omega

section

variable (T : UnicodeText)

/-- The text of a value, before it is cut. -/
def cleanedText (metadata : Metadata) (key : String) : String :=
  match metadataText T metadata key with
  | none => ""
  | some value => joinWords (removeUnsafe (joinWords value))

theorem legacyMetadataText_eq (metadata : Metadata) (key : String) :
    legacyMetadataText T metadata key =
      if T.casefold (cleanedText T metadata key) = "none" then ""
      else
        match metadataValueLimit key with
        | some limit => String.ofList ((cleanedText T metadata key).toList.take limit)
        | none => cleanedText T metadata key := by
  unfold legacyMetadataText cleanedText
  cases metadataText T metadata key with
  | none =>
    cases metadataValueLimit key with
    | none => simp
    | some limit => simp
  | some value => rfl

theorem labelText_cleanedText (metadata : Metadata) (key : String) :
    LabelText (cleanedText T metadata key) := by
  unfold cleanedText
  cases metadataText T metadata key with
  | none => exact nofun
  | some value => exact labelText_joinWords _

theorem tightEnds_cleanedText (metadata : Metadata) (key : String) :
    TightEnds (cleanedText T metadata key).toList := by
  unfold cleanedText
  cases metadataText T metadata key with
  | none => exact ⟨nofun, nofun⟩
  | some value => exact tightEnds_spaced _

theorem labelText_legacyMetadataText (metadata : Metadata) (key : String) :
    LabelText (legacyMetadataText T metadata key) := by
  rw [legacyMetadataText_eq]
  apply labelText_of_subset (labelText_cleanedText T metadata key)
  intro c hc
  split at hc
  · exact absurd hc List.not_mem_nil
  · split at hc
    · rw [String.toList_ofList] at hc
      exact List.mem_of_mem_take hc
    · exact hc

theorem labelText_legacyAliasText (metadata : Metadata) (key : String) (stableIds : List String) :
    LabelText (legacyAliasText T metadata key stableIds) := by
  unfold legacyAliasText
  dsimp only
  split
  · exact nofun
  · exact labelText_legacyMetadataText T metadata key

theorem mem_utf8Prefix {limit : Nat} {letters : List Char} :
    ∀ c ∈ utf8Prefix limit letters, c ∈ letters := by
  induction letters generalizing limit with
  | nil => exact nofun
  | cons a letters ih =>
    intro c hc
    rw [utf8Prefix] at hc
    split at hc
    · exact absurd hc List.not_mem_nil
    · obtain rfl | hc := List.mem_cons.mp hc
      · exact List.mem_cons_self
      · exact List.mem_cons_of_mem _ (ih c hc)

theorem labelText_hierarchyName (metadata : Metadata) (key : String) :
    LabelText (hierarchyName T metadata key) := by
  unfold hierarchyName
  split
  · exact nofun
  · dsimp only
    split
    · exact nofun
    · apply labelText_of_subset (labelText_joinWords _)
      intro c hc
      rw [String.toList_ofList] at hc
      exact mem_utf8Prefix c hc

/-! ## Parts of a label -/

/-- The text that a field has in the label of its row. -/
def aliasText (metadata : Metadata) (key : String) : String :=
  legacyAliasText T metadata key (stableHierarchyIds T metadata)

/-- The field that a label gives as the origin: the source only for want of a
URI. -/
def originKey (metadata : Metadata) : String :=
  if aliasText T metadata "uri" = "" then "source" else "uri"

/-- The fields that a label shows. -/
def shownKeys (metadata : Metadata) : List String := ["title", originKey T metadata, "type"]

/-- The field values that a label shows. -/
def shownTexts (metadata : Metadata) : List String :=
  ((shownKeys T metadata).map (aliasText T metadata)).filter (· ≠ "")

/-- The names of the space and the subspace. -/
def hierarchyParts (metadata : Metadata) (hierarchy : Bool) : List String :=
  let space := if hierarchy then hierarchyName T metadata "spaceName" else ""
  let subspace := if hierarchy then hierarchyName T metadata "subspaceName" else ""
  (if space = "" then [] else [s!"Space: {space}"]) ++
    (if subspace = "" then [] else [s!"Subspace: {subspace}"])

/-- What stands for the row: its title, its origin or `Untitled`. -/
def identityText (metadata : Metadata) : String :=
  if aliasText T metadata "title" ≠ "" then aliasText T metadata "title"
  else if aliasText T metadata (originKey T metadata) ≠ "" then
    aliasText T metadata (originKey T metadata)
  else "Untitled"

/-- The parts of a label after its number. -/
def labelTail (metadata : Metadata) (hierarchy : Bool) : List String :=
  let kind := aliasText T metadata "type"
  let origin := aliasText T metadata (originKey T metadata)
  hierarchyParts T metadata hierarchy ++ [identityText T metadata] ++
    (if kind = "" then [] else [kind]) ++ (if origin = "" then [] else [s!"origin: {origin}"])

theorem aliasText_originKey (metadata : Metadata) :
    aliasText T metadata (originKey T metadata) =
      if aliasText T metadata "uri" = "" then aliasText T metadata "source"
      else aliasText T metadata "uri" := by
  unfold originKey
  exact apply_ite _ _ _ _

theorem identityText_eq (metadata : Metadata) :
    identityText T metadata =
      (([aliasText T metadata "title", aliasText T metadata "uri",
        aliasText T metadata "source"].find? (· ≠ "")).getD "Untitled") := by
  unfold identityText
  rw [aliasText_originKey]
  by_cases htitle : aliasText T metadata "title" = ""
  · by_cases huri : aliasText T metadata "uri" = ""
    · by_cases hsource : aliasText T metadata "source" = "" <;> simp [htitle, huri, hsource]
    · simp [htitle, huri]
  · simp [htitle]

theorem labelParts_eq (number : ℕ+) (metadata : Metadata) (hierarchy : Bool) :
    labelParts T number metadata hierarchy =
      s!"Document {(number : Nat)}" :: labelTail T metadata hierarchy := by
  unfold labelTail
  rw [identityText_eq, aliasText_originKey]
  simp only [labelParts, hierarchyParts, aliasText, List.append_assoc, List.cons_append,
    List.nil_append]
  rfl

theorem labelTail_ne_nil (metadata : Metadata) (hierarchy : Bool) :
    labelTail T metadata hierarchy ≠ [] := by
  unfold labelTail
  simp

theorem labelText_aliasText (metadata : Metadata) (key : String) :
    LabelText (aliasText T metadata key) :=
  labelText_legacyAliasText T metadata key _

theorem labelText_identityText (metadata : Metadata) : LabelText (identityText T metadata) := by
  unfold identityText
  split
  · exact labelText_aliasText T metadata _
  · split
    · exact labelText_aliasText T metadata _
    · decide

theorem labelText_prefixed {before text : String} (hbefore : LabelText before)
    (h : LabelText text) : ∀ part ∈ (if text = "" then [] else [before ++ text]),
      LabelText part := by
  intro part hpart
  split at hpart
  · exact absurd hpart List.not_mem_nil
  · rw [List.mem_singleton.mp hpart]
    exact labelText_append hbefore h

theorem labelText_of_hierarchy (metadata : Metadata) (key : String) (hierarchy : Bool) :
    LabelText (if hierarchy then hierarchyName T metadata key else "") := by
  split
  · exact labelText_hierarchyName T metadata key
  · exact nofun

/-- No part of a label has a bracket, a middle dot or a blank but spaces. -/
theorem labelText_of_mem_labelParts {number : ℕ+} {metadata : Metadata} {hierarchy : Bool} :
    ∀ part ∈ labelParts T number metadata hierarchy, LabelText part := by
  intro part hpart
  rw [labelParts_eq] at hpart
  obtain rfl | hpart := List.mem_cons.mp hpart
  · exact labelText_append (by decide) (labelText_natText number)
  · unfold labelTail hierarchyParts at hpart
    simp only [List.mem_append, List.mem_singleton] at hpart
    obtain (((hspace | hsubspace) | rfl) | hkind) | horigin := hpart
    · exact labelText_prefixed (by decide)
        (labelText_of_hierarchy T metadata "spaceName" hierarchy) part hspace
    · exact labelText_prefixed (by decide)
        (labelText_of_hierarchy T metadata "subspaceName" hierarchy) part hsubspace
    · exact labelText_identityText T metadata
    · have hempty : LabelText "" := by decide
      exact labelText_prefixed hempty (labelText_aliasText T metadata "type") part
        (by simpa using hkind)
    · exact labelText_prefixed (by decide) (labelText_aliasText T metadata _)
        part horigin

/-! ## Identifiers -/

/-- The space and subspace identifiers of a row, as they are stored. -/
def ownIds (metadata : Metadata) : List String :=
  ["spaceId", "subspaceId"].filterMap (metadataText T metadata)

/-- A text of the form `space:<remainder>`. -/
def SpaceAlias (text : String) : Prop :=
  "space:".toList <+: text.toList ∧ "space:".length < text.length

theorem carriesStableHierarchyId_iff {text : String} (hne : text ≠ "") (stableIds : List String) :
    carriesStableHierarchyId text stableIds = true ↔ SpaceAlias text ∨ text ∈ stableIds := by
  unfold carriesStableHierarchyId SpaceAlias
  rw [if_neg hne, Bool.ite_eq_true_distrib]
  simp only [Bool.and_eq_true, List.isPrefixOf_iff_prefix, decide_eq_true_eq,
    List.contains_iff_mem, if_true_left]
  exact Decidable.imp_iff_not_or.trans (by rw [Decidable.not_not])

theorem mem_stableHierarchyIds {metadata : Metadata} {text : String} :
    text ∈ stableHierarchyIds T metadata ↔ text ≠ "" ∧ ∃ id ∈ ownIds T metadata, strip id = text := by
  unfold stableHierarchyIds ownIds
  simp only [List.mem_filter, List.mem_filterMap, Option.map_eq_some_iff, decide_eq_true_eq]
  constructor
  · rintro ⟨⟨key, hkey, id, hid, hstrip⟩, hne⟩
    exact ⟨hne, id, ⟨key, hkey, hid⟩, hstrip⟩
  · rintro ⟨hne, id, ⟨key, hkey, hid⟩, hstrip⟩
    exact ⟨⟨key, hkey, id, hid, hstrip⟩, hne⟩

theorem aliasText_eq_iff {metadata : Metadata} {key text : String} (hne : text ≠ "") :
    aliasText T metadata key = text ↔
      legacyMetadataText T metadata key = text ∧ ¬ SpaceAlias text ∧
        text ∉ stableHierarchyIds T metadata := by
  have hcarries := carriesStableHierarchyId_iff hne (stableHierarchyIds T metadata)
  unfold aliasText legacyAliasText
  dsimp only
  constructor
  · intro h
    split at h
    case isTrue => exact absurd h.symm hne
    case isFalse hnot =>
      rw [h, hcarries, not_or] at hnot
      exact ⟨h, hnot⟩
  · rintro ⟨htext, hnot⟩
    rw [htext, if_neg]
    rw [hcarries, not_or]
    exact hnot

/-- An identifier of the row that ends in a blank, and a field whose text is
cut to it. -/
structure CutToOwnId (metadata : Metadata) (key id : String) : Prop where
  own : id ∈ ownIds T metadata
  blank : id.toList.getLast? = some ' '
  limit : metadataValueLimit key = some id.length
  start : id.toList <+: (cleanedText T metadata key).toList
  longer : id.length < (cleanedText T metadata key).length
  named : T.casefold (cleanedText T metadata key) ≠ "none"
  noAlias : ¬ SpaceAlias id

instance (metadata : Metadata) (key id : String) : Decidable (CutToOwnId T metadata key id) :=
  decidable_of_iff (id ∈ ownIds T metadata ∧ id.toList.getLast? = some ' ' ∧
      metadataValueLimit key = some id.length ∧
      id.toList <+: (cleanedText T metadata key).toList ∧
      id.length < (cleanedText T metadata key).length ∧
      T.casefold (cleanedText T metadata key) ≠ "none" ∧
      ¬ ("space:".toList <+: id.toList ∧ "space:".length < id.length))
    ⟨fun ⟨hown, hblank, hlimit, hstart, hlonger, hnamed, halias⟩ =>
      ⟨hown, hblank, hlimit, hstart, hlonger, hnamed, halias⟩,
    fun h => ⟨h.own, h.blank, h.limit, h.start, h.longer, h.named, h.noAlias⟩⟩

theorem not_mem_stableHierarchyIds {metadata : Metadata} {id : String}
    (h : id.toList.getLast? = some ' ') : id ∉ stableHierarchyIds T metadata := by
  intro hmem
  obtain ⟨_, own, _, rfl⟩ := (mem_stableHierarchyIds T).mp hmem
  exact absurd ((tightEnds_strip own).last ' ' h) (by decide)

theorem ne_empty_of_getLast? {text : String} {c : Char} (h : text.toList.getLast? = some c) :
    text ≠ "" := by
  rintro rfl
  exact absurd h nofun

theorem aliasText_of_cutToOwnId {metadata : Metadata} {key id : String}
    (h : CutToOwnId T metadata key id) : aliasText T metadata key = id := by
  have hcut : legacyMetadataText T metadata key = id := by
    rw [legacyMetadataText_eq, if_neg h.named, h.limit]
    dsimp only
    rw [← String.length_toList, ← List.prefix_iff_eq_take.mp h.start, String.ofList_toList]
  rw [aliasText_eq_iff T (ne_empty_of_getLast? h.blank)]
  exact ⟨hcut, h.noAlias, not_mem_stableHierarchyIds T h.blank⟩

/-- A text that a field shows and that is an identifier of the row is cut. -/
theorem cutToOwnId_of_mem {metadata : Metadata} {key : String} {limit : Nat}
    (hlimit : metadataValueLimit key = some limit) (hne : aliasText T metadata key ≠ "")
    (hown : aliasText T metadata key ∈ ownIds T metadata) :
    CutToOwnId T metadata key (aliasText T metadata key) := by
  obtain ⟨hlegacy, halias, hstable⟩ := (aliasText_eq_iff T hne).mp rfl
  have hlabel := labelText_aliasText T metadata key
  generalize aliasText T metadata key = text at *
  rw [legacyMetadataText_eq, hlimit] at hlegacy
  split at hlegacy
  case isTrue => exact absurd hlegacy.symm hne
  case isFalse hnamed =>
    dsimp only at hlegacy
    have htake : text.toList = (cleanedText T metadata key).toList.take limit := by
      rw [← hlegacy, String.toList_ofList]
    have hstart : text.toList <+: (cleanedText T metadata key).toList := by
      rw [htake]
      exact List.take_prefix _ _
    -- A text with no blank at the ends is its own stable identifier.
    have hloose : ¬ TightEnds text.toList := by
      intro htight
      exact hstable ((mem_stableHierarchyIds T).mpr ⟨hne, text, hown, strip_of_tightEnds htight⟩)
    have hlonger : limit < (cleanedText T metadata key).length := by
      rw [← String.length_toList]
      by_contra hle
      rw [List.take_of_length_le (Nat.le_of_not_lt hle)] at htake
      exact hloose (htake ▸ tightEnds_cleanedText T metadata key)
    have hlength : text.length = limit := by
      rw [← String.length_toList, htake, List.length_take, String.length_toList]
      exact Nat.min_eq_left hlonger.le
    refine ⟨hown, ?_, by rw [hlimit, hlength], hstart, hlength ▸ hlonger, hnamed, halias⟩
    by_contra hlast
    refine hloose ⟨?_, ?_⟩
    · intro c hc
      obtain ⟨rest, hrest⟩ := hstart
      apply (tightEnds_cleanedText T metadata key).first c
      rw [← hrest, List.head?_append, hc]
      rfl
    · intro c hc
      cases hspace : isPythonSpace c with
      | false => rfl
      | true =>
        have hblank := (hlabel c (List.mem_of_mem_getLast? hc)).2.2.2 hspace
        exact absurd (hblank ▸ hc) hlast

theorem metadataValueLimit_of_shown {metadata : Metadata} :
    ∀ key ∈ shownKeys T metadata, ∃ limit, metadataValueLimit key = some limit := by
  intro key hkey
  unfold shownKeys originKey at hkey
  simp only [List.mem_cons, List.not_mem_nil, or_false] at hkey
  obtain rfl | rfl | rfl := hkey
  · exact ⟨200, rfl⟩
  · split
    · exact ⟨300, rfl⟩
    · exact ⟨300, rfl⟩
  · exact ⟨200, rfl⟩

/-- No shown text is an identifier of its row unless a shown field is cut to
one. -/
theorem shown_not_ownIds_iff (metadata : Metadata) :
    (∀ text ∈ shownTexts T metadata, text ∉ ownIds T metadata) ↔
      ∀ key ∈ shownKeys T metadata, ∀ id ∈ ownIds T metadata, ¬ CutToOwnId T metadata key id := by
  unfold shownTexts
  constructor
  · intro h key hkey id hid hcut
    apply h id _ hid
    rw [List.mem_filter, List.mem_map, decide_eq_true_eq]
    exact ⟨⟨key, hkey, aliasText_of_cutToOwnId T hcut⟩, ne_empty_of_getLast? hcut.blank⟩
  · intro h text htext hown
    rw [List.mem_filter, List.mem_map, decide_eq_true_eq] at htext
    obtain ⟨⟨key, hkey, rfl⟩, hne⟩ := htext
    obtain ⟨limit, hlimit⟩ := metadataValueLimit_of_shown T key hkey
    exact h key hkey _ hown (cutToOwnId_of_mem T hlimit hne hown)

theorem not_spaceAlias_of_shown {metadata : Metadata} :
    ∀ text ∈ shownTexts T metadata, ¬ SpaceAlias text := by
  intro text htext
  unfold shownTexts at htext
  rw [List.mem_filter, List.mem_map, decide_eq_true_eq] at htext
  obtain ⟨⟨key, hkey, rfl⟩, hne⟩ := htext
  exact ((aliasText_eq_iff T hne).mp rfl).2.1

/-! ## Blocks -/

/-- The header of a block, between whose brackets the label stands. -/
def headerOf (label : String) : String := "[" ++ label ++ "]"

/-- A block whose header is one bracketed line that gives back its parts and
keeps the identifiers of the row to itself. -/
structure SoundBlock (number : ℕ+) (content : String) (metadata : Metadata) (hierarchy : Bool)
    (label : String) : Prop where
  block : renderDocumentBlock T number content metadata hierarchy =
    headerOf label ++ "\n" ++ content
  oneLine : ∀ c ∈ (headerOf label).toList, isPythonSpace c = true → c = ' '
  opening : (headerOf label).toList.count '[' = 1
  closing : (headerOf label).toList.count ']' = 1
  numbered : s!"[Document {(number : Nat)}".toList <+: (headerOf label).toList
  parts : splitOn label " · " = labelParts T number metadata hierarchy
  noAlias : ∀ text ∈ shownTexts T metadata, ¬ SpaceAlias text
  noId : ∀ text ∈ shownTexts T metadata, text ∉ ownIds T metadata
  size : renderedDocumentBudgetSize (renderDocumentBlock T number content metadata hierarchy)
    content = content.length + (headerOf label ++ "\n").utf8ByteSize

/-- The label of a block. -/
def labelOf (number : ℕ+) (metadata : Metadata) (hierarchy : Bool) : String :=
  " · ".intercalate (labelParts T number metadata hierarchy)

theorem mem_labelOf {number : ℕ+} {metadata : Metadata} {hierarchy : Bool} {c : Char}
    (h : c ∈ (labelOf T number metadata hierarchy).toList) :
    c ≠ '[' ∧ c ≠ ']' ∧ (isPythonSpace c = true → c = ' ') := by
  unfold labelOf at h
  rw [String.toList_intercalate] at h
  obtain hseparator | ⟨letters, hletters, hc⟩ := mem_intercalate h
  · have hall : ∀ c ∈ [' ', '·', ' '], c ≠ '[' ∧ c ≠ ']' ∧ (isPythonSpace c = true → c = ' ') :=
      List.all_iff_forall_prop.mp (by decide)
    exact hall c hseparator
  · obtain ⟨part, hpart, rfl⟩ := List.mem_map.mp hletters
    obtain ⟨hopen, hclose, _, hspace⟩ := labelText_of_mem_labelParts T part hpart c hc
    exact ⟨hopen, hclose, hspace⟩

theorem splitOn_labelOf (number : ℕ+) (metadata : Metadata) (hierarchy : Bool) :
    splitOn (labelOf T number metadata hierarchy) " · " =
      labelParts T number metadata hierarchy := by
  apply splitOn_intercalate (a := ' ') (m := '·') (b := ' ') rfl (by decide)
  · rw [labelParts_eq]
    exact List.cons_ne_nil _ _
  · intro part hpart hdot
    exact (labelText_of_mem_labelParts T part hpart '·' hdot).2.2.1 rfl

theorem numbered_labelOf (number : ℕ+) (metadata : Metadata) (hierarchy : Bool) :
    s!"[Document {(number : Nat)}".toList <+:
      (headerOf (labelOf T number metadata hierarchy)).toList := by
  have htail : (labelTail T metadata hierarchy).map String.toList ≠ [] := by
    simpa using labelTail_ne_nil T metadata hierarchy
  have hopening : s!"[Document {(number : Nat)}" = "[" ++ s!"Document {(number : Nat)}" := by
    rw [← String.append_assoc]
    rfl
  have hlabel : s!"Document {(number : Nat)}".toList <+:
      (labelOf T number metadata hierarchy).toList := by
    unfold labelOf
    rw [String.toList_intercalate, labelParts_eq, List.map_cons,
      List.intercalate_cons_of_ne_nil htail, List.append_assoc]
    exact List.prefix_append _ _
  obtain ⟨rest, hrest⟩ := hlabel
  refine ⟨rest ++ "]".toList, ?_⟩
  unfold headerOf
  rw [hopening]
  simp only [String.toList_append, ← hrest, List.append_assoc]

theorem renderDocumentBlock_labelOf (number : ℕ+) (content : String) (metadata : Metadata)
    (hierarchy : Bool) :
    renderDocumentBlock T number content metadata hierarchy =
      headerOf (labelOf T number metadata hierarchy) ++ "\n" ++ content := by
  rw [renderDocumentBlock_eq]
  unfold blockLabel headerOf labelOf
  simp only [String.append_assoc]
  rfl

theorem count_headerOf {label : String} {a : Char} (ha : a ∉ label.toList) :
    (headerOf label).toList.count a = ['[', ']'].count a := by
  unfold headerOf
  rw [String.toList_append, String.toList_append, List.count_append, List.count_append,
    List.count_eq_zero_of_not_mem ha, Nat.add_zero, ← List.count_append]
  rfl

theorem soundBlock_labelOf {number : ℕ+} {content : String} {metadata : Metadata}
    {hierarchy : Bool} (hid : ∀ text ∈ shownTexts T metadata, text ∉ ownIds T metadata) :
    SoundBlock T number content metadata hierarchy (labelOf T number metadata hierarchy) where
  block := renderDocumentBlock_labelOf T number content metadata hierarchy
  oneLine := by
    intro c hc hspace
    unfold headerOf at hc
    simp only [String.toList_append, List.mem_append] at hc
    obtain (hopen | hlabel) | hclose := hc
    · rw [List.mem_singleton.mp hopen] at hspace
      exact absurd hspace (by decide)
    · exact (mem_labelOf T hlabel).2.2 hspace
    · rw [List.mem_singleton.mp hclose] at hspace
      exact absurd hspace (by decide)
  opening := count_headerOf fun hmem => (mem_labelOf T hmem).1 rfl
  closing := count_headerOf fun hmem => (mem_labelOf T hmem).2.1 rfl
  numbered := numbered_labelOf T number metadata hierarchy
  parts := splitOn_labelOf T number metadata hierarchy
  noAlias := not_spaceAlias_of_shown T
  noId := hid
  size := by rw [renderDocumentBlock_labelOf, budgetSize_append]

/-- A block is sound if and only if no shown field is cut to an identifier of
its row that ends in a blank. -/
theorem soundBlock_iff (number : ℕ+) (content : String) (metadata : Metadata)
    (hierarchy : Bool) :
    (∃ label, SoundBlock T number content metadata hierarchy label) ↔
      ∀ key ∈ shownKeys T metadata, ∀ id ∈ ownIds T metadata,
        ¬ CutToOwnId T metadata key id := by
  rw [← shown_not_ownIds_iff]
  constructor
  · rintro ⟨_, h⟩
    exact h.noId
  · intro h
    exact ⟨_, soundBlock_labelOf T h⟩

end

/-- A text of two words is joined to itself. -/
theorem joinWords_pair {left right : List Char} (hleft : left ≠ []) (hright : right ≠ [])
    (hl : ∀ c ∈ left, isPythonSpace c = false) (hr : ∀ c ∈ right, isPythonSpace c = false) :
    joinWords (String.ofList (left ++ ' ' :: right)) = String.ofList (left ++ ' ' :: right) := by
  have hwords : words (String.ofList (left ++ ' ' :: right)) =
      [String.ofList left, String.ofList right] := by
    unfold words
    rw [String.toList_ofList, List.splitOnP_append_cons_of_forall_mem hl ' ' (by decide),
      List.splitOnP_eq_singleton hr]
    simp [hleft, hright]
  unfold joinWords
  rw [hwords]
  apply String.toList_injective
  simp

section LongIdentifier

variable {letters : List Char} (hletters : ∀ c ∈ letters, c = 'x')

include hletters in
/-- A title of letters, a space and one letter more is shown as it is. -/
theorem cleanedText_letters (hne : letters ≠ []) {spaceId : String}
    (hid : spaceId.toList = letters ++ [' ']) :
    cleanedText asciiUnicode [("title", .str (spaceId ++ "y")), ("spaceId", .str spaceId)]
      "title" = spaceId ++ "y" := by
  have htitle : spaceId ++ "y" = String.ofList (letters ++ ' ' :: ['y']) := by
    apply String.toList_injective
    simp [hid]
  have hjoin : joinWords (spaceId ++ "y") = spaceId ++ "y" := by
    rw [htitle]
    refine joinWords_pair hne (by decide) (fun c hc => ?_) (List.forall_mem_singleton.mpr rfl)
    rw [hletters c hc]
    rfl
  have hsafe : removeUnsafe (spaceId ++ "y") = spaceId ++ "y" := by
    unfold removeUnsafe
    rw [htitle, String.toList_ofList]
    refine congrArg String.ofList (List.filter_eq_self.mpr fun c hc => ?_)
    obtain hc | hc := List.mem_append.mp hc
    · rw [hletters c hc]
      rfl
    · simp at hc
      obtain rfl | rfl := hc <;> rfl
  show joinWords (removeUnsafe (joinWords (spaceId ++ "y"))) = _
  rw [hjoin, hsafe, hjoin]

include hletters in
/-- Such a title is cut to the letters and the space when they fill the limit. -/
theorem cutToOwnId_letters (hlength : letters.length = 199) {spaceId : String}
    (hid : spaceId.toList = letters ++ [' ']) :
    CutToOwnId asciiUnicode [("title", .str (spaceId ++ "y")), ("spaceId", .str spaceId)]
      "title" spaceId := by
  have hne : letters ≠ [] := by
    intro hnil
    rw [hnil] at hlength
    cases hlength
  have hclean := cleanedText_letters hletters hne hid
  obtain ⟨c, rest, rfl⟩ := List.exists_cons_of_ne_nil hne
  obtain rfl : c = 'x' := hletters c List.mem_cons_self
  constructor
  · exact List.mem_cons_self
  · rw [hid, List.getLast?_concat]
  · rw [← String.length_toList, hid, List.length_append, hlength]
    rfl
  · rw [hclean, String.toList_append]
    exact List.prefix_append _ _
  · rw [hclean, String.length_append]
    exact Nat.lt_succ_self _
  · rw [hclean]
    intro hnone
    have hhead := congrArg (fun text => text.toList.head?) hnone
    unfold UnicodeText.casefold at hhead
    rw [String.toList_append, hid, String.toList_ofList] at hhead
    exact absurd (Option.some.inj hhead) (by decide)
  · intro halias
    have hprefix := halias.1
    rw [hid] at hprefix
    have hhead := (List.cons_prefix_cons.mp hprefix).1
    exact absurd hhead (by decide)

end LongIdentifier

/-- An identifier with a space after it, and a title that is cut to it. -/
theorem title_cut_to_own_id :
    let spaceId := String.ofList (List.replicate 199 'x') ++ " "
    let metadata : Metadata := [("title", .str (spaceId ++ "y")), ("spaceId", .str spaceId)]
    ¬ ∃ label, SoundBlock asciiUnicode 1 "" metadata false label := by
  intro spaceId metadata h
  obtain ⟨label, h⟩ := h
  have hid : spaceId.toList = List.replicate 199 'x' ++ [' '] := by
    unfold spaceId
    rw [String.toList_append, String.toList_ofList]
    rfl
  have hcut : CutToOwnId asciiUnicode metadata "title" spaceId :=
    cutToOwnId_letters (fun c hc => List.eq_of_mem_replicate hc) List.length_replicate hid
  exact (shown_not_ownIds_iff asciiUnicode metadata).mp h.noId "title" List.mem_cons_self spaceId
    hcut.own hcut

end VirtualContributor.Retrieval
