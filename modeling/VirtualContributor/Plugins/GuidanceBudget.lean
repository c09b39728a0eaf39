import VirtualContributor.Plugins.GuidancePassages
import VirtualContributor.Retrieval.ContextSize

/-!
# The budget of a guidance context

`GuidancePlugin.handle` charges each block for its size and nothing for the
separators between the blocks.  So the context of the passages it keeps is
within the budget exactly when the separators are paid for otherwise: by the
part of the budget that the blocks leave over, and by the bytes that their
labels have beyond their characters (`context_within_budget_iff`).
-/

namespace VirtualContributor.Plugins

open Lib Retrieval Messaging

def RankedPassage.passage (passage : RankedPassage) : Passage :=
  (passage.document, passage.metadata)

namespace GuidancePlugin

variable {T : UnicodeText} {host : GuidanceHost}

/-- What the blocks of some passages are charged. -/
def charge (T : UnicodeText) (passages : List RankedPassage) : Nat :=
  blocksCharge T false (passages.map RankedPassage.passage)

theorem formattedBlocks_eq (passages : List RankedPassage) :
    formattedBlocks host passages =
      renderBlocks host.text false (passages.map RankedPassage.passage) := by
  unfold formattedBlocks renderBlocks
  rw [List.zipIdx_map, List.map_map]
  rfl

theorem grows_charge : Grows (charge T) := by
  intro xs ys
  unfold charge
  rw [List.map_append]
  exact grows_blocksCharge _ _

/-- One round of the budget loop. -/
theorem keepPassages_cons (budget : Nat) (kept : List RankedPassage) (passage : RankedPassage)
    (rest : List (String × RankedPassage)) :
    keepPassages budget (formattedBlocks host kept, kept) (charge host.text kept)
        ((renderDocumentBlock host.text kept.length.succPNat passage.document passage.metadata
          false, passage) :: rest) =
      if budget < charge host.text (kept ++ [passage]) then (formattedBlocks host kept, kept)
      else keepPassages budget (formattedBlocks host (kept ++ [passage]), kept ++ [passage])
        (charge host.text (kept ++ [passage])) rest := by
  have hcharge : charge host.text (kept ++ [passage]) = charge host.text kept +
      renderedDocumentBudgetSize (renderDocumentBlock host.text kept.length.succPNat
        passage.document passage.metadata false) passage.document := by
    unfold charge
    rw [List.map_append, List.map_singleton, blocksCharge_append, List.length_map]
    rfl
  have hblocks : formattedBlocks host (kept ++ [passage]) = formattedBlocks host kept ++
      [renderDocumentBlock host.text kept.length.succPNat passage.document passage.metadata
        false] := by
    rw [formattedBlocks_eq, formattedBlocks_eq, List.map_append, List.map_singleton,
      renderBlocks_append, List.length_map]
    rfl
  rw [hcharge, hblocks, keepPassages]

/-- The loop keeps the passages that fit. -/
theorem keepPassages_eq (budget : Nat) (kept rest : List RankedPassage) :
    keepPassages budget (formattedBlocks host kept, kept) (charge host.text kept)
        ((rest.zipIdx kept.length).map fun e =>
          (renderDocumentBlock host.text e.2.succPNat e.1.document e.1.metadata false, e.1)) =
      (formattedBlocks host (extendWithin (charge host.text) budget kept rest),
        extendWithin (charge host.text) budget kept rest) := by
  induction rest generalizing kept with
  | nil => rfl
  | cons passage rest ih =>
    rw [List.zipIdx_cons, List.map_cons, keepPassages_cons, extendWithin]
    split
    · rfl
    · have hrest := ih (kept ++ [passage])
      rw [List.length_append, List.length_singleton] at hrest
      exact hrest

/-- The budget keeps the longest prefix of the passages whose charge fits. -/
theorem enforceBudget_eq (budget : Nat) (passages : List RankedPassage) :
    enforceBudget host budget passages =
      (formattedBlocks host (fitting (charge host.text) budget passages),
        fitting (charge host.text) budget passages) := by
  have hpairs : (formattedBlocks host passages).zip passages = passages.zipIdx.map fun e =>
      (renderDocumentBlock host.text e.2.succPNat e.1.document e.1.metadata false, e.1) := by
    have hzip : (formattedBlocks host passages).zip (passages.zipIdx.map Prod.fst) =
        passages.zipIdx.map fun e =>
          (renderDocumentBlock host.text e.2.succPNat e.1.document e.1.metadata false, e.1) :=
      List.zip_map'
    rw [List.zipIdx_map_fst] at hzip
    exact hzip
  have htotal : (((formattedBlocks host passages).zip passages).map fun e =>
      renderedDocumentBudgetSize e.1 e.2.document).sum = charge host.text passages := by
    unfold charge blocksCharge
    rw [hpairs, List.map_map, List.zipIdx_map, List.map_map]
    rfl
  unfold enforceBudget
  dsimp only
  rw [htotal]
  split
  · rw [hpairs]
    exact keepPassages_eq budget [] passages
  · rename_i hfits
    rw [fitting_eq_self grows_charge (Nat.not_lt.mp hfits)]

/-! ## The context -/

/-- The passages that fit, without a charge for separators. -/
def fittingPassages (T : UnicodeText) (budget : Nat) (passages : List RankedPassage) :
    List RankedPassage :=
  fitting (charge T) budget passages

/-- What the separators cost is left of the budget, or is in the charges of
the labels beyond their characters. -/
def SeparatorsPaid (T : UnicodeText) (budget : Nat) (passages : List RankedPassage) : Prop :=
  let kept := fittingPassages T budget passages
  interBlockBudgetSize kept.length ≤
    (budget - charge T kept) + labelExcess T false (kept.map RankedPassage.passage)

/-- The context that handling a query passes to the model, if it keeps a
passage, is within the budget exactly when the separators are paid. -/
theorem context_within_budget_iff (host : GuidanceHost) (plugin : GuidancePlugin)
    (question : String) (profile : RetrievalProfile)
    (outcomes : List (String × Except Exc QueryResult)) (passages : List RankedPassage)
    (hpassages : plugin.selectPassages question profile
      (if profile.retrieve then outcomes.flatMap fun e => collectionPassages host e.1 e.2 else [])
        = .ok passages) :
    ∃ kept, plugin.guidanceContext host question profile outcomes = .ok kept ∧
      (kept.blocks ≠ [] →
        (kept.context.length ≤ profile.maxContextChars ↔
          SeparatorsPaid host.text profile.maxContextChars passages)) := by
  have hbudget := @enforceBudget_eq host profile.maxContextChars passages
  have hcharge : charge host.text (fittingPassages host.text profile.maxContextChars passages) ≤
      profile.maxContextChars := charge_fitting_le (Nat.zero_le _) passages
  refine ⟨⟨formattedBlocks host (fittingPassages host.text profile.maxContextChars passages),
    fittingPassages host.text profile.maxContextChars passages⟩, ?_, fun hne => ?_⟩
  · unfold guidanceContext
    dsimp only
    rw [hpassages]
    show Except.ok (GuidanceContext.mk (enforceBudget host profile.maxContextChars passages).1
      (enforceBudget host profile.maxContextChars passages).2) = _
    rw [hbudget]
    rfl
  · unfold SeparatorsPaid GuidanceContext.context
    dsimp only at hne ⊢
    generalize fittingPassages host.text profile.maxContextChars passages = fit at hne hcharge ⊢
    have hblocks := @sum_length_add_labelExcess host.text false
      (fit.map RankedPassage.passage)
    rw [length_joinDocumentBlocks hne, formattedBlocks_eq, length_renderBlocks, List.length_map]
    unfold charge at hcharge ⊢
    omega

/-- A text or nothing. -/
def textField : Json → Except Exc (Option String)
  | .str text => .ok (some text)
  | .null => .ok none
  | _ => .error { typeName := "ValidationError" }

/-- The validation of a source with plain fields. -/
def plainSource (url title : Json) (score : Option Rat) : Except Exc Source := do
  let source ← textField url
  let title ← textField title
  return { source, title, score, uri := source }

def threePagesHost : GuidanceHost where
  text := asciiUnicode
  source := plainSource
  isComplex _ := false

/-- Each collection returns one page of one character. -/
def threePages : List (String × Except Exc QueryResult) :=
  DEFAULT_COLLECTIONS.map fun collection =>
    (collection, .ok
      { documents := [["x"]], metadatas := [[[]]], distances := [[some (1 / 10)]], ids := [["1"]] })

/-- The charges of the three pages are the whole budget. -/
def threePagesProfile : RetrievalProfile where
  retrieve := true
  nResults := 5
  scoreThreshold := 3 / 10
  maxContextChars := 78

/-- The passages of the three pages. -/
def threePassages : List RankedPassage :=
  threePages.flatMap fun e => collectionPassages threePagesHost e.1 e.2

theorem selectPassages_threePages :
    ({} : GuidancePlugin).selectPassages "x" threePagesProfile threePassages =
      .ok threePassages := by
  have hsorted : ({} : GuidancePlugin).sortPassages threePassages = threePassages := by
    apply List.mergeSort_of_pairwise
    decide +kernel
  have hpassing : threePassages.filter (passesThreshold (3 / 10)) = threePassages := by
    apply List.filter_eq_self.mpr
    decide +kernel
  unfold selectPassages
  rw [hsorted]
  show Except.ok ((dedupe [] (threePassages.filter (passesThreshold (3 / 10))).zipIdx).take 5) = _
  rw [hpassing]
  rfl

/-- Three pages that fill the budget make a context that is longer. -/
theorem context_exceeds_budget :
    ¬ ∀ (host : GuidanceHost) (plugin : GuidancePlugin) (question : String)
        (profile : RetrievalProfile) (outcomes : List (String × Except Exc QueryResult))
        (kept : GuidanceContext),
        plugin.guidanceContext host question profile outcomes = .ok kept → kept.blocks ≠ [] →
          kept.context.length ≤ profile.maxContextChars := by
  intro hbound
  have hkept : ({} : GuidancePlugin).guidanceContext threePagesHost "x" threePagesProfile
      threePages = .ok ⟨formattedBlocks threePagesHost threePassages, threePassages⟩ := by
    show (({} : GuidancePlugin).selectPassages "x" threePagesProfile threePassages >>= _) = _
    rw [selectPassages_threePages]
    rfl
  have hlength := hbound _ _ _ _ _ _ hkept (by decide)
  revert hlength
  decide

theorem context_within_budget_iff_threePages :
    ∃ kept, ({} : GuidancePlugin).guidanceContext threePagesHost "x" threePagesProfile
        threePages = .ok kept ∧
      (kept.blocks ≠ [] →
        (kept.context.length ≤ 78 ↔ SeparatorsPaid asciiUnicode 78 threePassages)) :=
  context_within_budget_iff threePagesHost {} "x" threePagesProfile threePages threePassages
    selectPassages_threePages

end GuidancePlugin

end VirtualContributor.Plugins
