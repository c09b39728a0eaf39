import Mathlib.Tactic.Linarith
import VirtualContributor.Lib.SplitText
import VirtualContributor.Web.HtmlParser

/-!
# Paragraphs that pages share

`remove_cross_page_boilerplate` takes out of each page the long paragraphs that
more than half of the pages have.

* `mem_boilerplateKeys_iff`: what counts as boilerplate.
* `removeBoilerplate_exact`: each page keeps its other paragraphs, in order, and a
  second removal changes nothing.
-/

namespace VirtualContributor.Web

open Lib

variable {lower : String → String}

/-! ## Counting pages -/

/-- The pages that have a paragraph with the given normal form. -/
def pagesWith (lower : String → String) (texts : List String) (key : String) : Nat :=
  texts.countP fun text => key ∈ (splitOn text "\n\n").map (normalizeParagraph lower)

theorem mem_pageKeys {text key : String} :
    key ∈ pageKeys lower text ↔
      key ∈ (splitOn text "\n\n").map (normalizeParagraph lower) ∧ 20 ≤ key.length := by
  unfold pageKeys
  rw [OrderedSet.mem_ofList, List.mem_filter, decide_eq_true_iff]

theorem getD_countPage (counts : OrderedDict String Nat) (text key : String) :
    ((countPage lower counts text).get? key).getD 0 =
      (counts.get? key).getD 0 + if key ∈ pageKeys lower text then 1 else 0 := by
  have hcount : countPage lower counts text =
      (pageKeys lower text).toList.foldl
        (OrderedDict.modify id (fun _ count => count + 1) 0) counts := rfl
  rw [hcount, OrderedDict.getD_foldl_modify]
  show (((pageKeys lower text).toList.filter (· = key)).foldl _ _) = _
  rw [List.filter_eq]
  by_cases hkey : key ∈ pageKeys lower text
  · rw [if_pos hkey, List.count_eq_one_of_mem (pageKeys lower text).nodup hkey]
    rfl
  · rw [if_neg hkey, List.count_eq_zero_of_not_mem hkey]
    rfl

/-- The counter of a long paragraph is the number of pages that have it. -/
theorem getD_countPages (counts : OrderedDict String Nat) (texts : List String) (key : String) :
    ((texts.foldl (countPage lower) counts).get? key).getD 0 =
      (counts.get? key).getD 0 + texts.countP fun text => key ∈ pageKeys lower text := by
  induction texts generalizing counts with
  | nil => rfl
  | cons text texts ih =>
    rw [List.foldl_cons, ih, getD_countPage, List.countP_cons, Nat.add_assoc]
    congr 1
    simp only [decide_eq_true_iff]
    exact Nat.add_comm _ _

/-- A paragraph that has at least twenty characters and is on more than half of the
pages. -/
structure IsBoilerplate (lower : String → String) (texts : List String) (paragraph : String) :
    Prop where
  long : 20 ≤ (normalizeParagraph lower paragraph).length
  frequent : texts.length < 2 * pagesWith lower texts (normalizeParagraph lower paragraph)

instance (texts : List String) (paragraph : String) :
    Decidable (IsBoilerplate lower texts paragraph) :=
  decidable_of_iff (20 ≤ (normalizeParagraph lower paragraph).length ∧
      texts.length < 2 * pagesWith lower texts (normalizeParagraph lower paragraph))
    ⟨fun h => ⟨h.1, h.2⟩, fun h => ⟨h.long, h.frequent⟩⟩

theorem countP_pageKeys {texts : List String} {key : String} (hlong : 20 ≤ key.length) :
    (texts.countP fun text => key ∈ pageKeys lower text) = pagesWith lower texts key := by
  refine List.countP_congr fun text _ => ?_
  simp only [decide_eq_true_iff, mem_pageKeys, hlong, and_true]

theorem half_lt_iff (count n : Nat) : ((count : Rat) > 1 / 2 * n) ↔ n < 2 * count := by
  constructor
  · intro h
    have hdouble : (n : Rat) < 2 * count := by linarith
    exact_mod_cast hdouble
  · intro h
    have hdouble : (n : Rat) < 2 * count := by exact_mod_cast h
    linarith

theorem mem_boilerplateKeys_iff {texts : List String} {key : String} :
    key ∈ boilerplateKeys lower (1 / 2) texts ↔
      20 ≤ key.length ∧ texts.length < 2 * pagesWith lower texts key := by
  have hcount := @getD_countPages lower .empty texts key
  rw [OrderedDict.get?_empty, Option.getD_none, Nat.zero_add] at hcount
  unfold boilerplateKeys
  simp only [List.mem_map, List.mem_filter, decide_eq_true_iff, half_lt_iff, Prod.exists,
    exists_and_right, exists_eq_right]
  constructor
  · rintro ⟨count, hentry, hfrequent⟩
    rw [OrderedDict.mem_entries.mp hentry, Option.getD_some] at hcount
    rw [hcount] at hfrequent
    have hpos : 0 < texts.countP fun text => key ∈ pageKeys lower text := by omega
    obtain ⟨text, _, htext⟩ := List.countP_pos_iff.mp hpos
    have hlong := (mem_pageKeys.mp (of_decide_eq_true htext)).2
    rw [countP_pageKeys hlong] at hfrequent
    exact ⟨hlong, hfrequent⟩
  · rintro ⟨hlong, hfrequent⟩
    rw [countP_pageKeys hlong] at hcount
    cases hget : (texts.foldl (countPage lower) .empty).get? key with
    | none =>
      rw [hget, Option.getD_none] at hcount
      omega
    | some count =>
      rw [hget, Option.getD_some] at hcount
      exact ⟨count, OrderedDict.mem_entries.mpr hget, hcount ▸ hfrequent⟩

/-! ## Removal -/

/-- The paragraphs of a page that are no boilerplate. -/
def keptParagraphs (lower : String → String) (texts : List String) (page : String) :
    List String :=
  (splitOn page "\n\n").filter fun paragraph => !decide (IsBoilerplate lower texts paragraph)

/-- What is left of a page. -/
def cleanedPage (lower : String → String) (texts : List String) (page : String) : String :=
  "\n\n".intercalate (keptParagraphs lower texts page)

theorem normalize_mem_boilerplateKeys {texts : List String} {paragraph : String} :
    normalizeParagraph lower paragraph ∈ boilerplateKeys lower (1 / 2) texts ↔
      IsBoilerplate lower texts paragraph :=
  mem_boilerplateKeys_iff.trans ⟨fun h => ⟨h.1, h.2⟩, fun h => ⟨h.long, h.frequent⟩⟩

section Pages

variable {texts : List String} {page cleaned key : String} {minPages : Nat}

theorem mem_keptParagraphs {paragraph : String} :
    paragraph ∈ keptParagraphs lower texts page ↔
      paragraph ∈ splitOn page "\n\n" ∧ ¬ IsBoilerplate lower texts paragraph := by
  unfold keptParagraphs
  rw [List.mem_filter, Bool.not_eq_true', decide_eq_false_iff_not]

/-- Without boilerplate there is nothing to remove. -/
theorem map_cleanedPage_of_clean (h : ∀ paragraph, ¬ IsBoilerplate lower texts paragraph)
    (pages : List String) : pages.map (cleanedPage lower texts) = pages := by
  have hpage (page : String) : cleanedPage lower texts page = page := by
    have hkept : keptParagraphs lower texts page = splitOn page "\n\n" := by
      refine List.filter_eq_self.mpr fun paragraph _ => ?_
      rw [Bool.not_eq_true', decide_eq_false_iff_not]
      exact h paragraph
    rw [cleanedPage, hkept]
    exact intercalate_splitOn (by decide) page
  exact List.map_id'' hpage pages

theorem removeBoilerplate_eq (hpages : minPages ≤ texts.length) :
    removeCrossPageBoilerplate lower texts (1 / 2) minPages =
      texts.map (cleanedPage lower texts) := by
  have hfilter (page : String) : ((splitOn page "\n\n").filter fun paragraph =>
      normalizeParagraph lower paragraph ∉ boilerplateKeys lower (1 / 2) texts) =
        keptParagraphs lower texts page := by
    refine List.filter_congr fun paragraph _ => ?_
    simp only [normalize_mem_boilerplateKeys, decide_not]
  unfold removeCrossPageBoilerplate
  rw [if_neg (Nat.not_lt.mpr hpages)]
  dsimp only
  split
  · rename_i hnone
    refine (map_cleanedPage_of_clean (fun paragraph => ?_) texts).symm
    rw [← normalize_mem_boilerplateKeys, List.isEmpty_iff.mp hnone]
    exact List.not_mem_nil
  · simp only [hfilter]
    rfl

/-- What removal leaves of a page: its other paragraphs in order, if it has any. -/
def Cleans (lower : String → String) (texts : List String) (page cleaned : String) : Prop :=
  if keptParagraphs lower texts page = [] then cleaned = ""
  else splitOn cleaned "\n\n" = keptParagraphs lower texts page

theorem cleans_cleanedPage (lower : String → String) (texts : List String) (page : String) :
    Cleans lower texts page (cleanedPage lower texts page) := by
  unfold Cleans cleanedPage
  split
  · rename_i hnone
    rw [hnone]
    rfl
  · rename_i hkept
    exact splitOn_sublist (by decide) List.filter_sublist hkept

/-- A long paragraph of a cleaned page is one that the page had. -/
theorem Cleans.mem_kept (h : Cleans lower texts page cleaned) (hlower : lower "" = "")
    (hlong : 20 ≤ key.length)
    (hkey : key ∈ (splitOn cleaned "\n\n").map (normalizeParagraph lower)) :
    ∃ paragraph ∈ keptParagraphs lower texts page, normalizeParagraph lower paragraph = key := by
  unfold Cleans at h
  split at h
  · have hparagraphs : splitOn cleaned "\n\n" = [""] := by
      rw [h]
      rfl
    have hempty : normalizeParagraph lower "" = "" := hlower
    rw [hparagraphs, List.map_singleton, List.mem_singleton, hempty] at hkey
    rw [hkey] at hlong
    exact absurd hlong (by decide)
  · rw [h] at hkey
    exact List.mem_map.mp hkey

/-- A long paragraph is on no more pages than before, and boilerplate is on none. -/
theorem pagesWith_cleaned (hlower : lower "" = "") (hlong : 20 ≤ key.length) :
    pagesWith lower (texts.map (cleanedPage lower texts)) key ≤ pagesWith lower texts key := by
  unfold pagesWith
  rw [List.countP_map]
  refine List.countP_mono_left fun text _ htext => ?_
  rw [Function.comp_apply, decide_eq_true_iff] at htext
  obtain ⟨paragraph, hkept, rfl⟩ :=
    (cleans_cleanedPage lower texts text).mem_kept hlower hlong htext
  rw [decide_eq_true_iff]
  exact List.mem_map_of_mem (mem_keptParagraphs.mp hkept).1

/-- After the removal no boilerplate is left. -/
theorem not_isBoilerplate_cleaned (hlower : lower "" = "") (paragraph : String) :
    ¬ IsBoilerplate lower (texts.map (cleanedPage lower texts)) paragraph := by
  intro h
  have hfrequent := h.frequent
  rw [List.length_map] at hfrequent
  have hpos : 0 < pagesWith lower (texts.map (cleanedPage lower texts))
      (normalizeParagraph lower paragraph) := by
    omega
  obtain ⟨text, htext, hkey⟩ := List.countP_pos_iff.mp hpos
  obtain ⟨page, _, rfl⟩ := List.mem_map.mp htext
  obtain ⟨kept, hkept, hsame⟩ :=
    (cleans_cleanedPage lower texts page).mem_kept hlower h.long (of_decide_eq_true hkey)
  have hle := @pagesWith_cleaned lower texts _ hlower h.long
  apply (mem_keptParagraphs.mp hkept).2
  constructor
  · rw [hsame]
    exact h.long
  · rw [hsame]
    omega

end Pages

/-- Each page is left with its other paragraphs, and a second removal changes
nothing. -/
theorem removeBoilerplate_exact (hlower : lower "" = "") (texts : List String) (minPages : Nat)
    (hpages : minPages ≤ texts.length) :
    List.Forall₂ (Cleans lower texts) texts
        (removeCrossPageBoilerplate lower texts (1 / 2) minPages) ∧
      removeCrossPageBoilerplate lower
          (removeCrossPageBoilerplate lower texts (1 / 2) minPages) (1 / 2) minPages =
        removeCrossPageBoilerplate lower texts (1 / 2) minPages := by
  rw [removeBoilerplate_eq hpages]
  constructor
  · rw [List.forall₂_map_right_iff, List.forall₂_same]
    exact fun page _ => cleans_cleanedPage lower texts page
  · have hlength : minPages ≤ (texts.map (cleanedPage lower texts)).length := by
      rw [List.length_map]
      exact hpages
    rw [removeBoilerplate_eq hlength]
    exact map_cleanedPage_of_clean (not_isBoilerplate_cleaned hlower) _

/-- Two pages with a notice, the second with an empty line more before it. -/
def noticePages : List String :=
  ["We use cookies on it.", "Two\n\n\nWe use  Cookies on it."]

theorem removeBoilerplate_exact_notice :
    removeCrossPageBoilerplate asciiLower ["", "Two"] (1 / 2) 2 = ["", "Two"] ∧
      List.Forall₂ (Cleans asciiLower noticePages) noticePages ["", "Two"] := by
  have hcleaned : removeCrossPageBoilerplate asciiLower noticePages (1 / 2) 2 = ["", "Two"] := by
    decide +kernel
  have hexact := @removeBoilerplate_exact asciiLower rfl noticePages 2 (by decide)
  rw [hcleaned] at hexact
  exact ⟨hexact.2, hexact.1⟩

end VirtualContributor.Web
