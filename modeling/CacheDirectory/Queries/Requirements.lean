/-
  File:      CacheDirectory/Queries/Requirements.lean
  Subject:   THE REQUIREMENTS NO QUERY ENFORCES.

  A query carries a latency limit and a number of replicas it wants. Both are decoded and passed
  on, and neither the filters nor the ranking reads them.

  * `WithinLatency`, `Enforced` -- what the two requirements ask of an answer;
  * `RequirementsMet` -- the state has no eligible record above the limit, and none at all or
    enough of them;
  * `requirements_enforced_iff` -- exactly then the answer is as required.
-/
import CacheDirectory.Queries.Specification

namespace CacheDirectory

open Library Directory ScoreArith

/-! ## 1. What is required -/

/-- The estimated latency is at most the limit of the query, when it has one. -/
def WithinLatency (F : Type) [ScoreArith F] (q : DirectoryQuery) (r : DirectoryRecord) : Prop :=
  q.hasMaxLatency = true →
    le (ofBits r.estimate.estimatedLatencyNs : F) (ofBits q.maxLatencyNs) = true

instance (F : Type) [ScoreArith F] (q : DirectoryQuery) (r : DirectoryRecord) :
    Decidable (WithinLatency F q r) :=
  inferInstanceAs (Decidable (_ → _))

/-- The answer keeps to the limit and to the number of replicas; with fewer candidates, every
    matching record is rejected, for that reason if for no other. -/
structure Enforced {F : Type} [ScoreArith F] (d : Directory) (q : DirectoryQuery)
    (res : QueryResult F) : Prop where
  latency : ∀ c ∈ res.candidates, WithinLatency F q c.record
  replicas : 0 < q.minReplicaCount → res.outcome.isFound = true →
    q.minReplicaCount.toNat ≤ res.candidates.length
  refused : res.candidates.length < q.minReplicaCount.toNat →
    ∀ r ∈ d.records, Matching q r → ∃ rj ∈ res.rejections,
      RejectedFor q r rj ∨ rj = rejectionOf r .noRequiredReplicaCount

/-- The state meets the requirements by itself. -/
structure RequirementsMet (F : Type) [ScoreArith F] (d : Directory) (q : DirectoryQuery) :
    Prop where
  latency : ∀ r ∈ d.records, Eligible q r → WithinLatency F q r
  replicas : (d.records.countP fun r => Eligible q r) = 0 ∨
    q.minReplicaCount.toNat ≤ d.records.countP fun r => Eligible q r

/-! ## 2. When it is enforced -/

section Enforcement

variable {F : Type} [ScoreArith F]

/-- A matching record of a state without candidates is rejected. -/
theorem rejected_of_no_candidate {d : Directory} {q : DirectoryQuery} {res : QueryResult F}
    (hanswers : AnswersQuery d q res) (hnone : res.candidates = []) {r : DirectoryRecord}
    (hr : r ∈ d.records) (hm : Matching q r) : ∃ rj ∈ res.rejections, RejectedFor q r rj := by
  obtain ⟨refused, hperm, hrejected⟩ := hanswers.split
  have hmem : r ∈ refused := by
    have hall := hperm.mem_iff.mpr (List.mem_filter.mpr ⟨hr, decide_eq_true hm⟩)
    rwa [hnone, List.map_nil, List.nil_append] at hall
  exact exists_of_forall₂ hrejected.flip hmem

/-- **The requirements of a query are enforced exactly when the state meets them anyway**: in
    every state of every run, for every query. -/
theorem requirements_enforced_iff (F : Type) [ScoreArith F] (ops : List Operation) (d : Directory)
    (order : Enumeration Nat) (q : DirectoryQuery) (hd : Reached F ops d) :
    ∃ res, (d.query (F := F) order q).1 = .ok res ∧
      (Enforced d q res ↔ RequirementsMet F d q) := by
  have hres := query_answer (F := F) (indexFits_reached hd) order q
  refine ⟨_, hres, ?_⟩
  have hmem := mem_candidates (indexFits_reached hd) hres
  have hlength := length_queryScan (F := F) d q
  have hfound := (selected_of_query (indexFits_reached hd) hres).1
  constructor
  · intro h
    refine ⟨fun r hr helig => ?_, ?_⟩
    · obtain ⟨c, hc, rfl⟩ := (hmem r).mpr ⟨hr, helig⟩
      exact h.latency c hc
    · by_cases hnone : (d.records.countP fun r => Eligible q r) = 0
      · exact .inl hnone
      · refine .inr ?_
        obtain ⟨r, hr, helig⟩ := List.countP_pos_iff.mp (Nat.pos_of_ne_zero hnone)
        rw [← hlength]
        by_cases hzero : q.minReplicaCount = 0
        · rw [hzero]
          exact Nat.zero_le _
        · refine h.replicas (UInt32.pos_iff_ne_zero.mpr hzero) ?_
          exact hfound.mpr ⟨r, hr, decide_eq_true_iff.mp helig⟩
  · intro h
    refine ⟨fun c hc => ?_, fun hpos hout => ?_, fun hfew r hr hm => ?_⟩
    · have hc' := (hmem c.record).mp ⟨c, hc, rfl⟩
      exact h.latency c.record hc'.1 hc'.2
    · obtain ⟨r, hr, helig⟩ := hfound.mp hout
      rw [hlength]
      refine h.replicas.resolve_left (Nat.ne_of_gt ?_)
      exact List.countP_pos_iff.mpr ⟨r, hr, decide_eq_true helig⟩
    · have hnone : (d.queryScan (F := F) q).candidates = [] := by
        refine List.length_eq_zero_iff.mp ?_
        rw [hlength] at hfew ⊢
        exact h.replicas.resolve_right (Nat.not_le.mpr hfew)
      obtain ⟨rj, hrj, hwhy⟩ := rejected_of_no_candidate (queryScan_answers d q) hnone hr hm
      exact ⟨rj, hrj, .inl hwhy⟩

end Enforcement

/-! ## 3. A slow copy and a lonely pair -/

/-- Two nanoseconds. -/
def slowEstimate : AccessEstimate := { estimatedLatencyNs := ⟨0x4000000000000000⟩ }

/-- A copy of state 1 within one nanosecond, with `n` replicas. -/
def hasty (n : UInt32) : DirectoryQuery :=
  { anyCopy with hasMaxLatency := true, maxLatencyNs := ⟨0x3FF0000000000000⟩, minReplicaCount := n }

/-- **The counterexample**: asked for three replicas within the limit, the directory returns two,
    one of them beyond the limit, and rejects nothing. -/
theorem requirements_ignored :
    Reached Float (besideRun slowEstimate) (beside slowEstimate) ∧
      ∃ res, ((beside slowEstimate).query (F := Float) (.stored _) (hasty 3)).1 = .ok res ∧
        res.outcome = .foundMultiple ∧ res.candidates.length = 2 ∧ res.rejections = [] ∧
        (∃ c ∈ res.candidates, ¬ WithinLatency Float (hasty 3) c.record) ∧
        ¬ Enforced (beside slowEstimate) (hasty 3) res := by
  have hreached : Reached Float (besideRun slowEstimate) (beside slowEstimate) :=
    after_mem_visited _ _ _
  have hres := query_answer (F := Float) (indexFits_reached hreached) (.stored _) (hasty 3)
  have htwo : ((beside slowEstimate).queryScan (F := Float) (hasty 3)).candidates.length = 2 := by
    rw [length_queryScan]
    decide +kernel
  have hslow : ∃ c ∈ ((beside slowEstimate).queryScan (F := Float) (hasty 3)).candidates,
      ¬ WithinLatency Float (hasty 3) c.record := by
    obtain ⟨r, hr, helig, hslow⟩ : ∃ r ∈ (beside slowEstimate).records, Eligible (hasty 3) r ∧
        ¬ WithinLatency Float (hasty 3) r := by decide +kernel
    obtain ⟨c, hc, rfl⟩ := (mem_candidates (indexFits_reached hreached) hres r).mpr ⟨hr, helig⟩
    exact ⟨c, hc, hslow⟩
  refine ⟨hreached, _, hres, ?_, htwo, ?_, hslow, fun h => ?_⟩
  · exact (queryScan_answers (beside slowEstimate) (hasty 3)).multiple.mpr (le_of_eq htwo.symm)
  · rw [rejections_queryScan]
    decide +kernel
  · obtain ⟨c, hc, hbeyond⟩ := hslow
    exact hbeyond (h.latency c hc)

/-- Two copies without estimates are within any limit, and two. -/
theorem requirements_enforced_beside :
    ∃ res, ((beside {}).query (F := Float) (.stored _) (hasty 2)).1 = .ok res ∧
      Enforced (beside {}) (hasty 2) res := by
  obtain ⟨res, hres, hiff⟩ := requirements_enforced_iff Float (besideRun {}) (beside {})
    (.stored _) (hasty 2) (after_mem_visited _ _ _)
  exact ⟨res, hres, hiff.mpr ⟨by decide +kernel, by decide +kernel⟩⟩

end CacheDirectory
