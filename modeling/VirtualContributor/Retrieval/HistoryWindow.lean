import VirtualContributor.Lib.Budget
import VirtualContributor.Retrieval.QueryRewrite

/-!
# The window of a history

`recent_history` on messages of any kind.  It keeps the turns of a list from its
end, up to a number of turns and of characters.

* `recentHistory_eq`: on the turns of an event it is `recentHistory`.
* `recentHistory_longest`: it returns the longest suffix within both bounds.
-/

namespace VirtualContributor.Retrieval

open Lib

/-! ## Messages of any kind -/

/-- The content of a message. -/
inductive Content where
  | text (value : String)
  | other
deriving DecidableEq

/-- What `_turn_length` asks of a message: `getattr(item, "content", None)`, and
`item.get("content")` if it is a dictionary.  `None` is no content. -/
structure TurnView (α : Type) where
  getattr : α → Option Content
  get : α → Option Content

namespace TurnView

/-- A turn of an event. -/
def historyItem : TurnView HistoryItem where
  getattr item := some (.text item.content)
  get _ := none

variable {α : Type} (V : TurnView α)

/-- `_turn_length`. -/
def turnLength (item : α) : Nat :=
  match (V.getattr item).or (V.get item) with
  | some (.text value) => value.length
  | _ => 0

/-- The loop of `recent_history` over the turns, newest first. -/
def keepTurns (budget : Int) : List α → List α → List α
  | kept, [] => kept
  | kept, item :: older =>
    let length : Int := V.turnLength item
    if kept.isEmpty = false ∧ budget < length then kept
    else keepTurns (budget - length) (item :: kept) older

/-- `recent_history`. -/
def recentHistory (history : List α) (maxTurns maxChars : Int) : List α :=
  let items := if 0 < maxTurns then lastItems maxTurns.toNat history else history
  if maxChars ≤ 0 then items else V.keepTurns maxChars [] items.reverse

/-- The length of the turns together. -/
def totalLength (items : List α) : Nat := (items.map V.turnLength).sum

/-- A window of a history: its last turns, at most `maxTurns`, and within `maxChars`
characters unless it is a single turn. -/
structure IsWindow (maxTurns maxChars : Int) (history window : List α) : Prop where
  suffix : window <:+ history
  turns : (window.length : Int) ≤ maxTurns
  chars : (V.totalLength window : Int) ≤ maxChars ∨ window.length = 1

end TurnView

theorem historyItem_keepTurns (budget : Int) (kept older : List HistoryItem) :
    TurnView.historyItem.keepTurns budget kept older = keepTurns budget kept older := by
  induction older generalizing budget kept with
  | nil => rfl
  | cons item older ih =>
    have hlength : TurnView.historyItem.turnLength item = item.content.length := rfl
    unfold keepTurns TurnView.keepTurns
    simp only [ih, hlength, List.isEmpty_eq_false_iff]

theorem recentHistory_eq (history : List HistoryItem) (maxTurns maxChars : Int) :
    recentHistory history maxTurns maxChars =
      TurnView.historyItem.recentHistory history maxTurns maxChars := by
  unfold recentHistory TurnView.recentHistory
  simp only [historyItem_keepTurns]

/-! ## The longest window -/

section Window

variable {α : Type} {V : TurnView α}

theorem grows_totalLength : Grows V.totalLength := by
  intro xs ys
  unfold TurnView.totalLength
  simp

theorem totalLength_reverse (items : List α) :
    V.totalLength items.reverse = V.totalLength items := by
  unfold TurnView.totalLength
  rw [List.map_reverse, List.sum_reverse]

/-- The loop adds the turns that fit, once it has one. -/
theorem keepTurns_eq {maxChars : Nat} {kept : List α} (hkept : kept ≠ []) (older : List α) :
    V.keepTurns ((maxChars : Int) - V.totalLength kept) kept older =
      (extendWithin V.totalLength maxChars kept.reverse older).reverse := by
  induction older generalizing kept with
  | nil =>
    unfold TurnView.keepTurns extendWithin
    rw [List.reverse_reverse]
  | cons item older ih =>
    have htotal : V.totalLength (kept.reverse ++ [item]) =
        V.totalLength kept + V.turnLength item := by
      unfold TurnView.totalLength
      simp
    have hcons : V.totalLength (item :: kept) = V.turnLength item + V.totalLength kept := by
      simp [TurnView.totalLength]
    unfold TurnView.keepTurns extendWithin
    have hif : (kept.isEmpty = false ∧
        (maxChars : Int) - V.totalLength kept < (V.turnLength item : Int)) ↔
          maxChars < V.totalLength (kept.reverse ++ [item]) := by
      rw [htotal]
      simp only [List.isEmpty_eq_false_iff, hkept, ne_eq, not_false_eq_true, true_and]
      omega
    by_cases hover : maxChars < V.totalLength (kept.reverse ++ [item])
    · rw [if_pos hover, List.reverse_reverse]
      exact if_pos (hif.mpr hover)
    · rw [if_neg hover, ← List.reverse_cons, ← ih (List.cons_ne_nil item kept), hcons]
      refine (if_neg (mt hif.mp hover)).trans ?_
      congr 1
      push_cast
      rw [sub_sub, add_comm]

/-- The loop over a history keeps its newest turn and what fits besides. -/
theorem keepTurns_cons {maxChars : Int} (hchars : 0 < maxChars) (item : α) (older : List α) :
    V.keepTurns maxChars [] (item :: older) =
      (extendWithin V.totalLength maxChars.toNat [item] older).reverse := by
  have hloop := @keepTurns_eq _ V maxChars.toNat _ (List.cons_ne_nil item []) older
  rw [Int.toNat_of_nonneg hchars.le, List.reverse_singleton] at hloop
  have htotal : V.totalLength [item] = V.turnLength item := by simp [TurnView.totalLength]
  rw [htotal] at hloop
  rw [← hloop, TurnView.keepTurns]
  exact if_neg fun h => Bool.noConfusion h.1

theorem reverse_lastItems (n : Nat) (items : List α) :
    (lastItems n items).reverse = items.reverse.take n :=
  List.take_reverse.symm

/-- A history and its bounds, read from the newest turn. -/
theorem reverse_recentHistory {history older : List α} {newest : α}
    (hnewest : history.reverse = newest :: older) {maxTurns maxChars : Int}
    (hturns : 0 < maxTurns) (hchars : 0 < maxChars) :
    (V.recentHistory history maxTurns maxChars).reverse =
      extendWithin V.totalLength maxChars.toNat [newest] (older.take (maxTurns.toNat - 1)) := by
  obtain ⟨n, hn⟩ : ∃ n, maxTurns.toNat = n + 1 := ⟨maxTurns.toNat - 1, by omega⟩
  unfold TurnView.recentHistory
  dsimp only
  rw [if_pos hturns, if_neg (by omega), reverse_lastItems, hnewest, hn, List.take_succ_cons,
    keepTurns_cons hchars, List.reverse_reverse, Nat.add_sub_cancel]

variable {history older : List α} {newest : α} {maxTurns maxChars : Int}

theorem isWindow_recentHistory (hnewest : history.reverse = newest :: older)
    (hturns : 0 < maxTurns) (hchars : 0 < maxChars) :
    V.IsWindow maxTurns maxChars history (V.recentHistory history maxTurns maxChars) := by
  have hwindow := reverse_recentHistory (V := V) hnewest hturns hchars
  obtain ⟨n, hn⟩ := @exists_extendWithin_eq _ V.totalLength maxChars.toNat
    [newest] (older.take (maxTurns.toNat - 1))
  constructor
  · rw [← List.reverse_prefix, hwindow, hn, hnewest, List.take_take]
    exact (List.prefix_append_right_inj [newest]).mpr (List.take_prefix _ _)
  · rw [← List.length_reverse, hwindow, hn, List.length_append, List.length_take,
      List.length_take, List.length_singleton]
    omega
  · rw [← totalLength_reverse, ← List.length_reverse, hwindow]
    by_cases hover : maxChars.toNat < V.totalLength [newest]
    · rw [extendWithin_of_over grows_totalLength hover]
      exact .inr rfl
    · have hle := charge_extendWithin_le (Nat.le_of_not_lt hover)
        (older.take (maxTurns.toNat - 1))
      exact .inl (by omega)

/-- No window reaches further back. -/
theorem TurnView.IsWindow.suffix_recentHistory (hnewest : history.reverse = newest :: older)
    (hturns : 0 < maxTurns) (hchars : 0 < maxChars) {window : List α}
    (h : V.IsWindow maxTurns maxChars history window) :
    window <:+ V.recentHistory history maxTurns maxChars := by
  rw [← List.reverse_prefix, reverse_recentHistory hnewest hturns hchars]
  have hprefix := List.reverse_prefix.mpr h.suffix
  have hlength : window.reverse.length = window.length := List.length_reverse
  have htotal := totalLength_reverse (V := V) window
  rw [hnewest] at hprefix
  cases hreverse : window.reverse with
  | nil => exact List.nil_prefix
  | cons first rest =>
    rw [hreverse] at hprefix hlength htotal
    obtain ⟨rfl, hrest⟩ := List.cons_prefix_cons.mp hprefix
    have hturn := h.turns
    -- the rest of the window lies within the turns that the loop sees
    have htake : rest = (older.take (maxTurns.toNat - 1)).take rest.length := by
      rw [List.take_take, Nat.min_eq_left (by simp at hlength; omega)]
      exact List.prefix_iff_eq_take.mp hrest
    obtain hle | hone := h.chars
    · rw [htake]
      refine @extendWithin_longest _ _ _ grows_totalLength [first] _ _ ?_
      rw [← htake]
      show V.totalLength (first :: rest) ≤ _
      omega
    · obtain rfl : rest = [] := by
        rw [← hlength] at hone
        simpa using hone
      obtain ⟨n, hn⟩ := @exists_extendWithin_eq _ V.totalLength maxChars.toNat [first]
        (older.take (maxTurns.toNat - 1))
      rw [hn]
      exact List.prefix_append _ _

/-- The window is a window, and no other is longer. -/
theorem recentHistory_longest (V : TurnView α) (history : List α) (maxTurns maxChars : Int)
    (hturns : 0 < maxTurns) (hchars : 0 < maxChars) :
    V.IsWindow maxTurns maxChars history (V.recentHistory history maxTurns maxChars) ∧
      (∀ window, V.IsWindow maxTurns maxChars history window →
        window <:+ V.recentHistory history maxTurns maxChars) ∧
      (V.recentHistory history maxTurns maxChars = [] → history = []) := by
  cases hreverse : history.reverse with
  | nil =>
    obtain rfl := List.reverse_eq_nil_iff.mp hreverse
    have hempty : V.recentHistory [] maxTurns maxChars = [] := by
      unfold TurnView.recentHistory
      simp [lastItems, TurnView.keepTurns]
    rw [hempty]
    refine ⟨⟨List.suffix_rfl, hturns.le, .inl hchars.le⟩, fun window h => h.suffix, fun _ => rfl⟩
  | cons newest older =>
    refine ⟨isWindow_recentHistory hreverse hturns hchars,
      fun window h => h.suffix_recentHistory hreverse hturns hchars, ?_⟩
    intro hnil
    have hwindow := reverse_recentHistory (V := V) hreverse hturns hchars
    obtain ⟨n, hn⟩ := @exists_extendWithin_eq _ V.totalLength maxChars.toNat [newest]
      (older.take (maxTurns.toNat - 1))
    rw [hnil, hn] at hwindow
    cases hwindow

end Window

/-- Three messages, of five, three and one characters. -/
def shortChat : List HistoryItem := [⟨"first", .HUMAN⟩, ⟨"abc", .ASSISTANT⟩, ⟨"d", .HUMAN⟩]

example : (TurnView.historyItem.recentHistory shortChat 20 4).map HistoryItem.content =
    ["abc", "d"] := by decide

theorem recentHistory_longest_shortChat :
    TurnView.historyItem.IsWindow 20 4 shortChat
        (TurnView.historyItem.recentHistory shortChat 20 4) ∧
      ¬ TurnView.historyItem.IsWindow 20 4 shortChat shortChat := by
  obtain ⟨hwindow, hlongest, _⟩ :=
    recentHistory_longest TurnView.historyItem shortChat 20 4 (by decide) (by decide)
  refine ⟨hwindow, fun hall => ?_⟩
  have hlength := (hlongest shortChat hall).length_le
  exact absurd hlength (by decide)

end VirtualContributor.Retrieval
