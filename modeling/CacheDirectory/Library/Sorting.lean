/-
  File:      CacheDirectory/Library/Sorting.lean
  Subject:   SORTING WHERE THE COMPARISON IS LAWFUL ON WHAT IS SORTED.

  A comparison need not be an order on its whole type (that of doubles is none, for NaN); what
  a sort does depends on the elements of the list alone.

  * `RankedBy` -- on the list, the comparison is that of ranks in a linear order;
  * `RankedBy.pairwise` -- then the sort orders the list by rank;
  * `RankedBy.eq_of_perm` -- and permuted lists are sorted alike, when the ranks are distinct;
  * `RankedBy.pair_sublist_iff` -- which of two elements comes first behind the sort.
-/
import Mathlib.Data.List.Sort

namespace CacheDirectory.Library

/-! ## 1. Two elements of a list -/

section Pairs

variable {α : Type} {a b : α} {l : List α}

/-- Of two different elements one comes first. -/
theorem pair_sublist_or (ha : a ∈ l) (hb : b ∈ l) (hne : a ≠ b) :
    [a, b].Sublist l ∨ [b, a].Sublist l := by
  induction l with
  | nil => cases ha
  | cons x l ih =>
      rcases List.mem_cons.mp ha with rfl | ha'
      · have hb' := (List.mem_cons.mp hb).resolve_left (Ne.symm hne)
        exact .inl ((List.singleton_sublist.mpr hb').cons_cons a)
      · rcases List.mem_cons.mp hb with rfl | hb'
        · exact .inr ((List.singleton_sublist.mpr ha').cons_cons b)
        · exact (ih ha' hb').imp (·.cons x) (·.cons x)

/-- And not the other one as well. -/
theorem not_pair_sublist (hl : l.Nodup) (h : [a, b].Sublist l) : ¬ [b, a].Sublist l := by
  induction l with
  | nil => cases h
  | cons x l ih =>
      obtain ⟨hx, hl⟩ := List.nodup_cons.mp hl
      have hmem {c : α} {m : List α} (h : (c :: m).Sublist l) : c ∈ l :=
        h.subset List.mem_cons_self
      intro h'
      cases h with
      | cons _ h =>
          cases h' with
          | cons _ h' => exact ih hl h h'
          | cons_cons _ h' => exact hx (h.subset (by simp))
      | cons_cons _ h =>
          cases h' with
          | cons _ h' => exact hx (h'.subset (by simp))
          | cons_cons _ h' => exact hx (hmem h')

end Pairs

/-! ## 2. Sorting by rank -/

variable {α ρ : Type} [LinearOrder ρ]

/-- On the elements of the list, `le` compares the ranks. -/
def RankedBy (rank : α → ρ) (le : α → α → Bool) (l : List α) : Prop :=
  ∀ a ∈ l, ∀ b ∈ l, le a b = true ↔ rank a ≤ rank b

namespace RankedBy

variable {rank : α → ρ} {le : α → α → Bool} {l l' : List α}

/-- The sort sees only how the elements compare. -/
theorem mergeSort_eq (h : RankedBy rank le l) :
    l.mergeSort le = l.mergeSort fun a b => decide (rank a ≤ rank b) := by
  have hmap := List.map_mergeSort (r := le) (s := fun a b => decide (rank a ≤ rank b)) (f := id)
    (l := l) fun a ha b hb => Bool.eq_iff_iff.mpr ((h a ha b hb).trans decide_eq_true_iff.symm)
  rw [List.map_id, List.map_id] at hmap
  exact hmap

/-- **The sort orders the list by rank.** -/
theorem pairwise (h : RankedBy rank le l) :
    (l.mergeSort le).Pairwise fun a b => rank a ≤ rank b := by
  rw [h.mergeSort_eq]
  refine (List.pairwise_mergeSort ?_ ?_ l).imp decide_eq_true_iff.mp
  · intro a b c hab hbc
    rw [decide_eq_true_iff] at hab hbc ⊢
    exact hab.trans hbc
  · intro a b
    rw [Bool.or_eq_true, decide_eq_true_iff, decide_eq_true_iff]
    exact le_total _ _

/-- **Permuted lists are sorted alike**, when no two elements have one rank. -/
theorem eq_of_perm (h : RankedBy rank le l) (hp : l.Perm l')
    (hinj : ∀ a ∈ l, ∀ b ∈ l, rank a = rank b → a = b) : l.mergeSort le = l'.mergeSort le := by
  have h' : RankedBy rank le l' := fun a ha b hb => h a (hp.mem_iff.mpr ha) b (hp.mem_iff.mpr hb)
  have hsorted : (l.mergeSort le).Perm (l'.mergeSort le) :=
    ((List.mergeSort_perm _ _).trans hp).trans (List.mergeSort_perm _ _).symm
  refine hsorted.eq_of_pairwise (fun a b ha hb hab hba => ?_) h.pairwise h'.pairwise
  rw [List.mem_mergeSort] at ha hb
  exact hinj a ha b (hp.mem_iff.mpr hb) (le_antisymm hab hba)

/-- **Which of two elements comes first**: the one of the lower rank, at one rank the one that
    came first before. -/
theorem pair_sublist_iff (h : RankedBy rank le l) (hl : l.Nodup) {a b : α} (ha : a ∈ l)
    (hb : b ∈ l) (hne : a ≠ b) : [a, b].Sublist (l.mergeSort le) ↔
      rank a < rank b ∨ rank a = rank b ∧ [a, b].Sublist l := by
  have hstable {x y : α} (hxy : rank x ≤ rank y) (hsub : [x, y].Sublist l) :
      [x, y].Sublist (l.mergeSort le) := by
    rw [h.mergeSort_eq]
    refine List.pair_sublist_mergeSort ?_ ?_ (decide_eq_true hxy) hsub
    · intro a b c hab hbc
      rw [decide_eq_true_iff] at hab hbc ⊢
      exact hab.trans hbc
    · intro a b
      rw [Bool.or_eq_true, decide_eq_true_iff, decide_eq_true_iff]
      exact le_total _ _
  have hordered {x y : α} (hsub : [x, y].Sublist (l.mergeSort le)) : rank x ≤ rank y :=
    List.pairwise_iff_forall_sublist.mp h.pairwise hsub
  have hnodup : (l.mergeSort le).Nodup := (List.mergeSort_perm l le).nodup_iff.mpr hl
  constructor
  · intro hsub
    refine (hordered hsub).lt_or_eq.imp id fun heq => ⟨heq, ?_⟩
    refine (pair_sublist_or ha hb hne).resolve_right fun hback => ?_
    exact not_pair_sublist hnodup hsub (hstable (ge_of_eq heq) hback)
  · rintro (hlt | ⟨heq, hsub⟩)
    · refine (pair_sublist_or (List.mem_mergeSort.mpr ha) (List.mem_mergeSort.mpr hb)
        hne).resolve_right fun hback => ?_
      exact absurd (hordered hback) (not_le_of_gt hlt)
    · exact hstable (le_of_eq heq) hsub

end RankedBy

end CacheDirectory.Library
