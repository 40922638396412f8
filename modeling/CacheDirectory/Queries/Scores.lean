/-
  File:      CacheDirectory/Queries/Scores.lean
  Subject:   THE ORDER OF THE CANDIDATES.

  `candidate_less` compares scores first, then the record id, the location, the replica, the
  domain and the cache. Scores are doubles: a NaN compares with nothing, all others are linearly
  ordered. Where no candidate has a NaN for its score, `candidate_less` is the comparison of
  standings in a linear order.

  * `OrderedScores` -- an arithmetic of scores whose comparisons are those of doubles;
  * `standing` ... `rankedBy_standing` -- the comparison of candidates with comparable scores;
  * `ranked_iff` -- a sorted list of two or more candidates is in order exactly when all
    scores are comparable.
-/
import CacheDirectory.Library.Doubles
import CacheDirectory.Library.Sorting
import CacheDirectory.Model.Query
import Mathlib.Order.WithBot

namespace CacheDirectory

open Library ScoreArith Directory

/-! ## 1. Scores -/

/-- Comparisons as on doubles: every score has a place in a linear order, or none (NaN), and what
    has no place compares with nothing. -/
class OrderedScores (F : Type) extends ScoreArith F where
  Place : Type
  [linear : LinearOrder Place]
  place : F → Option Place
  lt_iff : ∀ a b : F, lt a b = true ↔ ∃ x y, place a = some x ∧ place b = some y ∧ x < y
  le_iff : ∀ a b : F, le a b = true ↔ ∃ x y, place a = some x ∧ place b = some y ∧ x ≤ y
  beq_iff : ∀ a b : F, beq a b = true ↔ ∃ x, place a = some x ∧ place b = some x

attribute [reducible, instance] OrderedScores.linear

instance : OrderedScores Float where
  Place := Library.Place
  place := placeOf
  lt_iff _ _ := decide_eq_true_iff.trans lt_iff_place
  le_iff _ _ := decide_eq_true_iff.trans le_iff_place
  beq_iff _ _ := beq_iff_place

/-- `x == x`: not a NaN. -/
def Comparable {F : Type} [ScoreArith F] (x : F) : Prop := beq x x = true

instance {F : Type} [ScoreArith F] (x : F) : Decidable (Comparable x) :=
  inferInstanceAs (Decidable (_ = true))

section Scores

variable {F : Type} [OrderedScores F]

open OrderedScores

theorem comparable_iff {x : F} : Comparable x ↔ ∃ p, place x = some p := by
  unfold Comparable
  rw [beq_iff]
  simp only [and_self]

/-! ## 2. Standings -/

/-- What decides between equal scores, in order. -/
abbrev Ties : Type := ℕ ×ₗ ℕ ×ₗ ℕ ×ₗ ℕ ×ₗ ℕ

def ties (r : DirectoryRecord) : Ties :=
  toLex (r.recordId.value.toNat, toLex (r.location.value.toNat, toLex (r.replica.value.toNat,
    toLex ((toByte r.domain).toNat, r.cache.value.toNat))))

/-- The greater score comes first, a NaN last. -/
def standing (c : Candidate F) : WithTop (Place F)ᵒᵈ ×ₗ Ties :=
  toLex ((place c.score).map OrderDual.toDual, ties c.record)

theorem standing_le_iff {a b : Candidate F} {x y : Place F} (ha : place a.score = some x)
    (hb : place b.score = some y) :
    standing a ≤ standing b ↔ y < x ∨ x = y ∧ ties a.record ≤ ties b.record := by
  have hlt : WithTop.some (OrderDual.toDual x) < WithTop.some (OrderDual.toDual y) ↔ y < x :=
    WithTop.coe_lt_coe
  have heq : WithTop.some (OrderDual.toDual x) = WithTop.some (OrderDual.toDual y) ↔ x = y :=
    WithTop.coe_inj
  unfold standing
  rw [ha, hb, Prod.Lex.toLex_le_toLex]
  exact or_congr hlt (and_congr_left' heq)

/-- One comparison of the chain: unequal numbers decide, equal ones pass on. -/
theorem chain_iff {x y : ℕ} {differ less rest : Bool} (hdiffer : differ = true ↔ x ≠ y)
    (hless : less = true ↔ x < y) :
    (if differ then less else rest) = true ↔ x < y ∨ x = y ∧ rest = true := by
  by_cases hxy : x = y
  · rw [if_neg fun h => hdiffer.mp h hxy]
    simp [hxy]
  · rw [if_pos (hdiffer.mpr hxy), hless]
    simp [hxy]

/-- The comparisons behind the scores are those of the ties. -/
theorem candidateLess_ties {a b : Candidate F} (h : beq a.score b.score = true) :
    candidateLess a b = true ↔ ties a.record < ties b.record := by
  have hdiffer {Tag : Type} (x y : StrongValue Tag) :
      (x != y) = true ↔ x.value.toNat ≠ y.value.toNat := by
    rw [bne_iff_ne]
    exact not_congr ⟨fun h => by rw [h], fun h => StrongValue.ext (UInt64.toNat_inj.mp h)⟩
  have hless {Tag : Type} (x y : StrongValue Tag) :
      decide (x.value < y.value) = true ↔ x.value.toNat < y.value.toNat := by
    rw [decide_eq_true_iff, UInt64.lt_iff_toNat_lt]
  have hdomain : (a.record.domain != b.record.domain) = true ↔
      (toByte a.record.domain).toNat ≠ (toByte b.record.domain).toNat := by
    rw [bne_iff_ne]
    refine not_congr ⟨fun h => by rw [h], fun h => ?_⟩
    rw [← ofByte_toByte a.record.domain, UInt8.toNat_inj.mp h, ofByte_toByte]
  have hbyte : decide (toByte a.record.domain < toByte b.record.domain) = true ↔
      (toByte a.record.domain).toNat < (toByte b.record.domain).toNat := by
    rw [decide_eq_true_iff, UInt8.lt_iff_toNat_lt]
  unfold candidateLess ties
  rw [h, Bool.not_true, if_neg (by simp), chain_iff (hdiffer _ _) (hless _ _),
    chain_iff (hdiffer _ _) (hless _ _), chain_iff (hdiffer _ _) (hless _ _),
    chain_iff hdomain hbyte, hless]
  simp only [Prod.Lex.toLex_lt_toLex]

/-- **Between comparable scores, `candidate_less` is the order of the standings.** -/
theorem not_candidateLess_iff {a b : Candidate F} (ha : Comparable a.score)
    (hb : Comparable b.score) : (!candidateLess b a) = true ↔ standing a ≤ standing b := by
  obtain ⟨x, hx⟩ := comparable_iff.mp ha
  obtain ⟨y, hy⟩ := comparable_iff.mp hb
  rw [standing_le_iff hx hy, Bool.not_eq_true', ← Bool.not_eq_true]
  by_cases heq : x = y
  · have hbeq : beq b.score a.score = true := (beq_iff _ _).mpr ⟨y, hy, by rw [hx, heq]⟩
    rw [candidateLess_ties hbeq, not_lt]
    simp [heq]
  · have hbeq : ¬ beq b.score a.score = true := by
      rintro h
      obtain ⟨z, hz, hz'⟩ := (beq_iff _ _).mp h
      rw [hy] at hz
      rw [hx, ← hz] at hz'
      exact heq (Option.some.inj hz')
    have hless : candidateLess b a = true ↔ x < y := by
      unfold candidateLess
      rw [if_pos (by simpa using hbeq), lt_iff]
      constructor
      · rintro ⟨x', y', hx', hy', hlt⟩
        rw [hx] at hx'
        rw [hy] at hy'
        cases hx'
        cases hy'
        exact hlt
      · exact fun hlt => ⟨x, y, hx, hy, hlt⟩
    rw [hless, not_lt, le_iff_lt_or_eq]
    simp [heq, Ne.symm heq]

theorem rankedBy_standing {cs : List (Candidate F)} (h : ∀ c ∈ cs, Comparable c.score) :
    RankedBy standing (fun a b => !candidateLess b a) cs :=
  fun a ha b hb => not_candidateLess_iff (h a ha) (h b hb)

/-! ## 3. Lists in order -/

/-- The scores do not increase along the list, and at one score the record ids do not decrease. -/
def Ranked (cs : List (Candidate F)) : Prop :=
  cs.Pairwise fun a b => le b.score a.score = true ∧
    (beq a.score b.score = true → a.record.recordId.value ≤ b.record.recordId.value)

theorem recordId_le_of_ties {r s : DirectoryRecord} (h : ties r ≤ ties s) :
    r.recordId.value ≤ s.recordId.value := by
  unfold ties at h
  rw [Prod.Lex.toLex_le_toLex] at h
  rw [UInt64.le_iff_toNat_le]
  rcases h with hlt | ⟨heq, _⟩
  · exact le_of_lt hlt
  · exact le_of_eq heq

/-- One pair of a list that is sorted by standing. -/
theorem inOrder_of_standing {a b : Candidate F} (ha : Comparable a.score)
    (hb : Comparable b.score) (h : standing a ≤ standing b) :
    le b.score a.score = true ∧
      (beq a.score b.score = true → a.record.recordId.value ≤ b.record.recordId.value) := by
  obtain ⟨x, hx⟩ := comparable_iff.mp ha
  obtain ⟨y, hy⟩ := comparable_iff.mp hb
  rw [standing_le_iff hx hy] at h
  constructor
  · refine (le_iff _ _).mpr ⟨y, x, hy, hx, ?_⟩
    rcases h with hlt | ⟨heq, _⟩
    · exact le_of_lt hlt
    · exact ge_of_eq heq
  · intro hbeq
    obtain ⟨z, hz, hz'⟩ := (beq_iff _ _).mp hbeq
    rw [hx] at hz
    rw [hy] at hz'
    cases hz
    cases hz'
    rcases h with hlt | ⟨_, hties⟩
    · exact absurd hlt (lt_irrefl _)
    · exact recordId_le_of_ties hties

/-- Nothing is at most a NaN. -/
theorem comparable_of_ranked {cs : List (Candidate F)} (h : Ranked cs) (htwo : 2 ≤ cs.length) :
    ∀ c ∈ cs, Comparable c.score := by
  have hcomparable {a b : F} (h : le b a = true) : Comparable a ∧ Comparable b := by
    obtain ⟨x, y, hx, hy, _⟩ := (le_iff b a).mp h
    exact ⟨comparable_iff.mpr ⟨y, hy⟩, comparable_iff.mpr ⟨x, hx⟩⟩
  rcases cs with - | ⟨a, - | ⟨b, cs⟩⟩
  · cases htwo
  · exact absurd htwo (by simp)
  · obtain ⟨hfirst, _⟩ := List.pairwise_cons.mp h
    intro c hc
    rcases List.mem_cons.mp hc with rfl | hmem
    · exact (hcomparable (hfirst b List.mem_cons_self).1).1
    · exact (hcomparable (hfirst c hmem).1).2

/-- **A sorted list is in order exactly when it is short or all its scores are comparable.** -/
theorem ranked_iff (cs : List (Candidate F)) :
    Ranked (cs.mergeSort fun a b => !candidateLess b a) ↔
      cs.length ≤ 1 ∨ ∀ c ∈ cs, Comparable c.score := by
  constructor
  · intro h
    by_cases hone : cs.length ≤ 1
    · exact .inl hone
    · refine .inr fun c hc => ?_
      refine comparable_of_ranked h ?_ c (List.mem_mergeSort.mpr hc)
      rw [List.length_mergeSort]
      omega
  · rintro (hone | hall)
    · rcases cs with - | ⟨a, - | ⟨b, cs⟩⟩
      · rw [List.mergeSort_nil]
        exact List.Pairwise.nil
      · rw [List.mergeSort_singleton]
        exact List.pairwise_singleton _ _
      · exact absurd hone (by simp)
    · refine (rankedBy_standing hall).pairwise.imp_of_mem fun {a b} ha hb hle => ?_
      rw [List.mem_mergeSort] at ha hb
      exact inOrder_of_standing (hall a ha) (hall b hb) hle

end Scores

end CacheDirectory
