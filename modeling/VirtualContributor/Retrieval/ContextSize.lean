import Mathlib
import VirtualContributor.Lib.Budget
import VirtualContributor.Lib.SplitText
import VirtualContributor.Retrieval.DocumentBlocks

/-!
# The size of a context

A block is its label followed by the passage.  Its charge is the length of the
passage and the bytes of the label, so a block is no longer than its charge,
and a context is no longer than the charges of its blocks and the separators
between them.
-/

namespace VirtualContributor.Retrieval

open Lib

theorem length_le_utf8ByteSize (text : String) : text.length ≤ text.utf8ByteSize := by
  induction text using String.push_induction with
  | empty => exact Nat.le_refl 0
  | push text c ih =>
    have hpos := Char.utf8Size_pos c
    rw [String.length_push, String.utf8ByteSize_push]
    omega

/-! ## Blocks -/

theorem removeSuffix_append (label content : String) :
    removeSuffix (label ++ content) content = label := by
  have hsuffix : endsWith (label ++ content) content = true := by
    unfold endsWith
    rw [String.toList_append, List.isSuffixOf_iff_suffix]
    exact List.suffix_append _ _
  have hlength : (label ++ content).length - content.length = label.toList.length := by
    rw [String.length_append, Nat.add_sub_cancel, String.length_toList]
  unfold removeSuffix
  rw [if_pos hsuffix, hlength, String.toList_append, List.take_left, String.ofList_toList]

theorem budgetSize_append (label content : String) :
    renderedDocumentBudgetSize (label ++ content) content =
      content.length + label.utf8ByteSize := by
  unfold renderedDocumentBudgetSize
  rw [removeSuffix_append]

/-- A block is as long as its charge, but for the bytes of the label beyond
its characters. -/
theorem length_add_excess (label content : String) :
    (label ++ content).length + (label.utf8ByteSize - label.length) =
      renderedDocumentBudgetSize (label ++ content) content := by
  have hlabel := length_le_utf8ByteSize label
  rw [budgetSize_append, String.length_append]
  omega

section

variable (T : UnicodeText) (hierarchy : Bool)

/-- A passage: its text and its metadata. -/
abbrev Passage := String × Metadata

/-- The label of a block, with the line break after it. -/
def blockLabel (number : ℕ+) (metadata : Metadata) : String :=
  "[" ++ " · ".intercalate (labelParts T number metadata hierarchy) ++ "]\n"

theorem renderDocumentBlock_eq (number : ℕ+) (content : String) (metadata : Metadata) :
    renderDocumentBlock T number content metadata hierarchy =
      blockLabel T hierarchy number metadata ++ content := rfl

/-- The blocks of some passages, numbered from 1. -/
def renderBlocks (passages : List Passage) : List String :=
  passages.zipIdx.map fun e => renderDocumentBlock T e.2.succPNat e.1.1 e.1.2 hierarchy

/-- What the blocks of some passages are charged. -/
def blocksCharge (passages : List Passage) : Nat :=
  (passages.zipIdx.map fun e =>
    renderedDocumentBudgetSize (renderDocumentBlock T e.2.succPNat e.1.1 e.1.2 hierarchy) e.1.1).sum

variable {T hierarchy}

@[simp] theorem length_renderBlocks (passages : List Passage) :
    (renderBlocks T hierarchy passages).length = passages.length := by
  unfold renderBlocks
  rw [List.length_map, List.length_zipIdx]

/-- The block of one more passage has the next number. -/
theorem renderBlocks_append (passages : List Passage) (passage : Passage) :
    renderBlocks T hierarchy (passages ++ [passage]) =
      renderBlocks T hierarchy passages ++
        [renderDocumentBlock T passages.length.succPNat passage.1 passage.2 hierarchy] := by
  unfold renderBlocks
  rw [List.zipIdx_append, List.map_append, Nat.zero_add]
  rfl

theorem blocksCharge_append (passages : List Passage) (passage : Passage) :
    blocksCharge T hierarchy (passages ++ [passage]) =
      blocksCharge T hierarchy passages +
        renderedDocumentBudgetSize
          (renderDocumentBlock T passages.length.succPNat passage.1 passage.2 hierarchy)
          passage.1 := by
  unfold blocksCharge
  rw [List.zipIdx_append, List.map_append, List.sum_append, Nat.zero_add]
  simp only [List.zipIdx_singleton, List.map_singleton, List.sum_singleton]

theorem getElem?_renderBlocks (passages : List Passage) (i : Nat) :
    (renderBlocks T hierarchy passages)[i]? =
      passages[i]?.map fun passage =>
        renderDocumentBlock T i.succPNat passage.1 passage.2 hierarchy := by
  unfold renderBlocks
  rw [List.getElem?_map, List.getElem?_zipIdx, Option.map_map, Nat.zero_add]
  rfl

/-- The first blocks are those of the first passages. -/
theorem take_renderBlocks (passages : List Passage) (n : Nat) :
    (renderBlocks T hierarchy passages).take n = renderBlocks T hierarchy (passages.take n) := by
  apply List.ext_getElem?
  intro i
  rw [getElem?_renderBlocks, List.getElem?_take, List.getElem?_take, getElem?_renderBlocks]
  split <;> rfl

theorem blocksCharge_eq (passages : List Passage) :
    blocksCharge T hierarchy passages =
      (((renderBlocks T hierarchy passages).zip (passages.map Prod.fst)).map fun pair =>
        renderedDocumentBudgetSize pair.1 pair.2).sum := by
  have htexts : passages.map Prod.fst = passages.zipIdx.map fun e => e.1.1 := by
    conv_lhs => rw [← List.zipIdx_map_fst 0 passages, List.map_map]
    rfl
  unfold blocksCharge renderBlocks
  rw [htexts, List.zip_map', List.map_map]
  rfl

/-- The bytes of the labels beyond their characters. -/
def labelExcess (T : UnicodeText) (hierarchy : Bool) (passages : List Passage) : Nat :=
  (passages.zipIdx.map fun e =>
    (blockLabel T hierarchy e.2.succPNat e.1.2).utf8ByteSize -
      (blockLabel T hierarchy e.2.succPNat e.1.2).length).sum

theorem sum_length_add_labelExcess (passages : List Passage) :
    ((renderBlocks T hierarchy passages).map String.length).sum +
        labelExcess T hierarchy passages = blocksCharge T hierarchy passages := by
  unfold renderBlocks blocksCharge labelExcess
  rw [List.map_map, ← List.sum_map_add]
  apply congrArg List.sum
  apply List.map_congr_left
  intro e _
  rw [Function.comp_apply, renderDocumentBlock_eq]
  exact length_add_excess _ _

theorem grows_blocksCharge : Grows (blocksCharge T hierarchy) := by
  intro xs ys
  unfold blocksCharge
  rw [List.zipIdx_append, List.map_append, List.sum_append]
  exact Nat.le_add_right _ _

end

/-! ## Contexts -/

/-- A context is its blocks and the separators between them. -/
theorem length_joinDocumentBlocks {blocks : List String} (hne : blocks ≠ []) :
    (joinDocumentBlocks blocks).length =
      (blocks.map String.length).sum + interBlockBudgetSize blocks.length := by
  unfold joinDocumentBlocks
  rw [if_neg (by simpa using hne), length_intercalate]
  rfl

end VirtualContributor.Retrieval
