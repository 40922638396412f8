/-
  File:      CacheDirectory/Library/Newest.lean
  Subject:   THE ITEMS OF THE GREATEST KEY.

  Items are offered one after the other, each with a key. A shelf keeps those of the greatest key
  offered so far: an item below it is refused, one at it is added, and one above it clears the
  shelf. What is on the shelf at the end does not depend on the order of the offers.

  * `Shelf` -- the greatest key and the items; every item has that key;
  * `offer_below`, `offer_level`, `offer_above` -- the three ways an offer goes;
  * `newest_offered`, `items_offered` -- the shelf behind a sequence of offers, in closed form;
  * `offered_perm` -- the order of the offers does not matter.
-/
import Mathlib.Data.List.MinMax

namespace CacheDirectory.Library

/-- The items of the greatest key so far; an empty shelf need not have a key. -/
@[ext] structure Shelf {α κ : Type} (key : α → κ) where
  newest : WithBot κ
  items : List α
  level : ∀ a ∈ items, newest = key a

namespace Shelf

variable {α κ : Type} [LinearOrder κ] {key : α → κ}

def offer (s : Shelf key) (a : α) : Shelf key :=
  if (key a : WithBot κ) < s.newest then s
  else if h : s.newest = key a then
    { newest := s.newest
      items := s.items ++ [a]
      level := fun x hx => by
        rcases List.mem_append.mp hx with hold | hnew
        · exact s.level x hold
        · rw [List.mem_singleton.mp hnew]
          exact h }
  else { newest := key a, items := [a], level := fun x hx => by rw [List.mem_singleton.mp hx] }

/-! ## 1. One offer -/

section Offer

variable {s : Shelf key} {a : α}

theorem offer_below (h : (key a : WithBot κ) < s.newest) : s.offer a = s := if_pos h

theorem offer_level (h : s.newest = key a) :
    (s.offer a).newest = key a ∧ (s.offer a).items = s.items ++ [a] := by
  have hnot : ¬ (key a : WithBot κ) < s.newest := by
    rw [h]
    exact lt_irrefl _
  unfold offer
  rw [if_neg hnot, dif_pos h]
  exact ⟨h, rfl⟩

theorem offer_above (h : s.newest < key a) :
    (s.offer a).newest = key a ∧ (s.offer a).items = [a] := by
  unfold offer
  rw [if_neg h.not_gt, dif_neg h.ne]
  exact ⟨rfl, rfl⟩

theorem newest_offer (s : Shelf key) (a : α) : (s.offer a).newest = max s.newest (key a) := by
  rcases lt_trichotomy s.newest (key a) with habove | hlevel | hbelow
  · rw [(offer_above habove).1, max_eq_right habove.le]
  · rw [(offer_level hlevel).1, hlevel, max_self]
  · rw [offer_below hbelow, max_eq_left hbelow.le]

/-- No item offered so far is above the shelf. -/
theorem key_le_newest_offer {x : α} (hx : x ∈ s.items ++ [a]) :
    (key x : WithBot κ) ≤ (s.offer a).newest := by
  rw [newest_offer]
  rcases List.mem_append.mp hx with hold | hnew
  · rw [← s.level x hold]
    exact le_max_left _ _
  · rw [List.mem_singleton.mp hnew]
    exact le_max_right _ _

/-- **One offer**: of the old items and the new one those of the greatest key stay. -/
theorem items_offer (s : Shelf key) (a : α) :
    (s.offer a).items =
      (s.items ++ [a]).filter fun x => decide ((key x : WithBot κ) = (s.offer a).newest) := by
  have hold : s.items.filter (fun x => decide ((key x : WithBot κ) = s.newest)) = s.items :=
    List.filter_eq_self.mpr fun x hx => by
      rw [s.level x hx]
      exact decide_eq_true rfl
  rcases lt_trichotomy s.newest (key a) with habove | hlevel | hbelow
  · have hgone : s.items.filter (fun x => decide ((key x : WithBot κ) = key a)) = [] :=
      List.filter_eq_nil_iff.mpr fun x hx => by
        rw [decide_eq_true_eq, ← s.level x hx]
        exact habove.ne
    rw [(offer_above habove).1, (offer_above habove).2, List.filter_append, hgone]
    simp
  · rw [(offer_level hlevel).1, (offer_level hlevel).2, List.filter_append, ← hlevel, hold]
    simp [hlevel]
  · rw [offer_below hbelow, List.filter_append, hold]
    simp [hbelow.ne]

end Offer

/-! ## 2. A sequence of offers -/

def offered (s : Shelf key) (as : List α) : Shelf key := as.foldl offer s

/-- **The greatest key**, of the shelf and of all that was offered. -/
theorem newest_offered : ∀ (as : List α) (s : Shelf key),
    (s.offered as).newest = max s.newest (as.map key).maximum
  | [], s => by
      rw [List.map_nil, List.maximum_nil, max_eq_left bot_le]
      rfl
  | a :: as, s => by
      show ((s.offer a).offered as).newest = _
      rw [newest_offered as (s.offer a), newest_offer, List.map_cons, List.maximum_cons, max_assoc]

/-- **The items of that key**, of the shelf and of all that was offered, in the order of the
    offers. -/
theorem items_offered : ∀ (as : List α) (s : Shelf key),
    (s.offered as).items =
      (s.items ++ as).filter fun x => decide ((key x : WithBot κ) = (s.offered as).newest)
  | [], s => by
      rw [List.append_nil]
      refine (List.filter_eq_self.mpr fun x hx => ?_).symm
      rw [decide_eq_true_eq]
      exact (s.level x hx).symm
  | a :: as, s => by
      have hgrown : (s.offer a).newest ≤ ((s.offer a).offered as).newest := by
        rw [newest_offered]
        exact le_max_left _ _
      -- an item at the last key was at the key of the first offer
      have hfirst : (s.offer a).items.filter
            (fun x => decide ((key x : WithBot κ) = ((s.offer a).offered as).newest)) =
          (s.items ++ [a]).filter
            fun x => decide ((key x : WithBot κ) = ((s.offer a).offered as).newest) := by
        rw [items_offer, List.filter_filter]
        refine List.filter_congr fun x hx => ?_
        rw [Bool.and_eq_left_iff_imp]
        simp only [decide_eq_true_eq]
        intro hlast
        exact le_antisymm (key_le_newest_offer hx) (hlast ▸ hgrown)
      show ((s.offer a).offered as).items =
        (s.items ++ a :: as).filter
          fun x => decide ((key x : WithBot κ) = ((s.offer a).offered as).newest)
      rw [items_offered as (s.offer a), List.filter_append, hfirst, ← List.filter_append,
        List.append_assoc, List.singleton_append]

/-- **The order of the offers does not matter.** -/
theorem offered_perm {as bs : List α} (h : as.Perm bs) (s : Shelf key) :
    (s.offered as).newest = (s.offered bs).newest ∧
      (s.offered as).items.Perm (s.offered bs).items := by
  have hnewest : (s.offered as).newest = (s.offered bs).newest := by
    rw [newest_offered, newest_offered, (h.map key).maximum_eq]
  refine ⟨hnewest, ?_⟩
  rw [items_offered, items_offered, hnewest]
  exact (h.append_left s.items).filter _

end Shelf

end CacheDirectory.Library
