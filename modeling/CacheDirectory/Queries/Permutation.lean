/-
  File:      CacheDirectory/Queries/Permutation.lean
  Subject:   THE ORDER OF REGISTRATION DOES NOT SHOW.

  Two directories that hold the same records in another order, with the same locations, current
  generations and weights, answer every query alike: the scores do not see positions, and with
  distinct record ids no two candidates share a standing.

  * `SameButForOrder` -- the two states;
  * `scoreFactors_eq` ... `chosen_eq` -- the factors, the candidates and their order;
  * `ranking_order_free` -- the answers.
-/
import CacheDirectory.Invariants.RecordIds
import CacheDirectory.Queries.Specification

namespace CacheDirectory

open Library Directory

/-! ## 1. Two directories -/

/-- The same records in some order; what the ranking reads beside them is equal. -/
structure SameButForOrder (d d' : Directory) : Prop where
  records : d.records.Perm d'.records
  locations : ∀ id, d.locations.find id = d'.locations.find id
  currentGen : ∀ s, d.currentGen s = d'.currentGen s
  policy : d.policy = d'.policy

/-- The same candidates in the same order, with the same factors and scores; the same outcome; the
    same rejections in some order. -/
structure SameAnswer {F : Type} (res res' : QueryResult F) : Prop where
  candidates : res.candidates = res'.candidates
  outcome : res.outcome = res'.outcome
  rejections : res.rejections.Perm res'.rejections

/-! ## 2. Factors and candidates -/

section Factors

variable {d d' : Directory}

theorem sameProcess_eq (h : SameButForOrder d d') (r : DirectoryRecord) (q : DirectoryQuery) :
    d.sameProcess r q = d'.sameProcess r q := by
  unfold sameProcess processTag
  rw [h.locations]

theorem isLocal_eq (h : SameButForOrder d d') (q : DirectoryQuery) (r : DirectoryRecord) :
    d.isLocal q r = d'.isLocal q r := by
  unfold isLocal
  rw [sameProcess_eq h]

theorem replicaCount_eq (h : SameButForOrder d d') (r : DirectoryRecord) :
    d.replicaCount r = d'.replicaCount r := by
  unfold replicaCount
  rw [h.records.countP_eq]

/-- No factor sees the order of the records. -/
theorem scoreFactors_eq {F : Type} [ScoreArith F] (h : SameButForOrder d d') (r : DirectoryRecord)
    (q : DirectoryQuery) : d.scoreFactors (F := F) r q = d'.scoreFactors r q := by
  unfold scoreFactors exactGeneration
  rw [h.policy, h.currentGen, sameProcess_eq h, replicaCount_eq h]

theorem candidateOf_eq {F : Type} [ScoreArith F] (h : SameButForOrder d d') (q : DirectoryQuery)
    (r : DirectoryRecord) : d.candidateOf (F := F) q r = d'.candidateOf q r := by
  unfold candidateOf
  rw [scoreFactors_eq h]

/-- What the kinds of rejections decide does not depend on their order. -/
theorem emptyOutcome_perm {rejections rejections' : List Rejection}
    (h : rejections.Perm rejections') (n : Nat) :
    emptyOutcome rejections n = emptyOutcome rejections' n := by
  unfold emptyOutcome
  simp only [h.any_eq]

end Factors

/-! ## 3. The answers -/

section Ranking

variable {F : Type} [OrderedScores F] {d d' : Directory} {q : DirectoryQuery}

/-- Candidates of one directory with one standing are one candidate. -/
theorem eq_of_standing (hids : d.UniqueIds) {a b : Candidate F} (ha : a ∈ chosen d q)
    (hb : b ∈ chosen d q) (h : standing a = standing b) : a = b := by
  have hties : ties a.record = ties b.record := (Prod.ext_iff.mp (toLex_inj.mp h)).2
  have hvalue : a.record.recordId.value.toNat = b.record.recordId.value.toNat :=
    (Prod.ext_iff.mp (toLex_inj.mp hties)).1
  have hid : a.record.recordId = b.record.recordId :=
    StrongValue.ext (UInt64.toNat_inj.mp hvalue)
  obtain ⟨⟨hra, _⟩, hca⟩ := mem_chosen.mp ha
  obtain ⟨⟨hrb, _⟩, hcb⟩ := mem_chosen.mp hb
  rw [hca, hcb, List.inj_on_of_nodup_map hids hra hrb hid]

/-- **The candidates are sorted alike.** -/
theorem chosen_eq (h : SameButForOrder d d') (hids : d.UniqueIds)
    (hscores : ∀ r ∈ d.records, Eligible q r → Comparable (d.scoreOf (F := F) q r)) :
    chosen (F := F) d q = chosen d' q := by
  have hcandidates : ((d.records.filter fun r => Eligible q r).map (d.candidateOf (F := F) q)).Perm
      ((d'.records.filter fun r => Eligible q r).map (d'.candidateOf q)) := by
    rw [show d'.candidateOf (F := F) q = d.candidateOf q from
      funext fun r => (candidateOf_eq h q r).symm]
    exact (h.records.filter _).map _
  have hcomparable : ∀ c ∈ (d.records.filter fun r => Eligible q r).map (d.candidateOf (F := F) q),
      Comparable c.score := by
    rw [List.forall_mem_map]
    intro r hr
    have hmem := List.mem_filter.mp hr
    exact hscores r hmem.1 (decide_eq_true_iff.mp hmem.2)
  refine (rankedBy_standing hcomparable).eq_of_perm hcandidates fun a ha b hb hab => ?_
  exact eq_of_standing hids (List.mem_mergeSort.mpr ha) (List.mem_mergeSort.mpr hb) hab

/-- The scans of both answer alike. -/
theorem sameAnswer_queryScan (h : SameButForOrder d d') (hids : d.UniqueIds)
    (hscores : ∀ r ∈ d.records, Eligible q r → Comparable (d.scoreOf (F := F) q r)) :
    SameAnswer (d.queryScan (F := F) q) (d'.queryScan q) := by
  obtain ⟨hcands, _, hout⟩ := queryScan_eq (F := F) d q
  obtain ⟨hcands', _, hout'⟩ := queryScan_eq (F := F) d' q
  have hchosen := chosen_eq (F := F) h hids hscores
  have hmatching := h.records.filter fun r => Matching q r
  have hrejections : (d.queryScan (F := F) q).rejections.Perm
      (d'.queryScan (F := F) q).rejections := by
    rw [rejections_queryScan, rejections_queryScan]
    exact hmatching.filterMap _
  refine ⟨by rw [hcands, hcands', hchosen], ?_, hrejections⟩
  rw [hout, hout', hchosen, hmatching.length_eq]
  rcases chosen (F := F) d' q with - | ⟨c, - | ⟨c', cs⟩⟩
  · exact emptyOutcome_perm hrejections _
  · show (if d.isLocal q c.record then QueryOutcome.foundLocal else .foundRemote) = _
    rw [isLocal_eq h]
    rfl
  · rfl

/-- **Ranking does not depend on the order of registration**: two directories with the same records
    in any order, under distinct ids, and with the same locations, current generations and weights
    answer every query alike, by scan and by index, where no score is a NaN. -/
theorem ranking_order_free (F : Type) [OrderedScores F] (d d' : Directory) (q : DirectoryQuery)
    (h : SameButForOrder d d') (hids : d.UniqueIds)
    (hscores : ∀ r ∈ d.records, Eligible q r → Comparable (d.scoreOf (F := F) q r)) :
    SameAnswer (d.queryScan (F := F) q) (d'.queryScan q) ∧
      ∀ order order', d.IndexFits → d'.IndexFits →
        ∃ res res', (d.query (F := F) order q).1 = .ok res ∧ (d'.query order' q).1 = .ok res' ∧
          SameAnswer res res' := by
  have hsame := sameAnswer_queryScan (F := F) h hids hscores
  exact ⟨hsame, fun order order' hd hd' =>
    ⟨_, _, query_answer hd order q, query_answer hd' order' q, hsame⟩⟩

end Ranking

/-- The two copies, the second one first. -/
def turned : Directory :=
  { beside {} with records := (beside {}).records.reverse, indexesDirty := true }

theorem ranking_order_free_beside :
    ∃ res res', ((beside {}).query (F := Float) (.stored _) anyCopy).1 = .ok res ∧
      (turned.query (F := Float) (.reversed _) anyCopy).1 = .ok res' ∧ SameAnswer res res' := by
  have hsame : SameButForOrder (beside {}) turned :=
    ⟨(List.reverse_perm _).symm, fun _ => rfl, fun _ => rfl, rfl⟩
  have hreached : Reached Float (besideRun {}) (beside {}) := after_mem_visited _ _ _
  have hids : (beside {}).UniqueIds := by
    unfold UniqueIds
    decide +kernel
  exact (ranking_order_free Float (beside {}) turned anyCopy hsame hids (by decide +kernel)).2
    (.stored _) (.reversed _) (indexFits_reached hreached) (.inl rfl)

end CacheDirectory
