/-
  File:      CacheDirectory/Queries/Monotone.lean
  Subject:   BETTER EVIDENCE.

  The ranks of integrity, freshness, health and reachability decide in the hard filters and weigh
  in the score. The filters refuse the values of the lowest ranks, but for one: freshness STALE
  is refused and ranks above UNKNOWN, which is not. Weights and scores are exact here.

  * `Evidence.Better` -- nowhere of a lower rank, in the program's own order;
  * `positions` -- the positions of the candidates in the order of the answer;
    `candidates_positions` ties them to the answer;
  * `scoreOf_le` -- no score falls;
  * `better_evidence_iff` -- the record is hurt exactly when it was eligible and is STALE now.
-/
import CacheDirectory.Queries.Specification

namespace CacheDirectory

open Library Directory ScoreArith

/-! ## 1. Exact scores -/

/-- Exact arithmetic on the numbers doubles stand for. -/
instance : ScoreArith ℚ where
  ofBits b := exactValue (Float.ofBits b.bits)
  ofNat n := n
  add := (· + ·)
  sub := (· - ·)
  mul := (· * ·)
  div := (· / ·)
  lt a b := a < b
  le a b := a ≤ b
  beq a b := a == b
  text := toString

instance : OrderedScores ℚ where
  Place := ℚ
  place := some
  lt_iff a b := decide_eq_true_iff.trans
    ⟨fun h => ⟨a, b, rfl, rfl, h⟩, fun ⟨_, _, ha, hb, h⟩ => by cases ha; cases hb; exact h⟩
  le_iff a b := decide_eq_true_iff.trans
    ⟨fun h => ⟨a, b, rfl, rfl, h⟩, fun ⟨_, _, ha, hb, h⟩ => by cases ha; cases hb; exact h⟩
  beq_iff a b := beq_iff_eq.trans
    ⟨fun h => ⟨a, rfl, congrArg some h.symm⟩, fun ⟨_, ha, hb⟩ => by cases ha; cases hb; rfl⟩

theorem comparable_exact (x : ℚ) : Comparable x := comparable_iff.mpr ⟨x, rfl⟩

/-! ## 2. Evidence -/

/-- What is known of a copy. -/
structure Evidence where
  integrity : Integrity
  freshness : Freshness
  health : Health
  reachability : Reachability

def DirectoryRecord.evidence (r : DirectoryRecord) : Evidence :=
  { integrity := r.integrity
    freshness := r.freshness
    health := r.health
    reachability := r.reachability }

/-- The record with other evidence, all else equal. -/
def DirectoryRecord.withEvidence (r : DirectoryRecord) (e : Evidence) : DirectoryRecord :=
  { r with
    integrity := e.integrity
    freshness := e.freshness
    health := e.health
    reachability := e.reachability }

/-- Each value is kept or of a higher rank. -/
structure Evidence.Better (e e' : Evidence) : Prop where
  integrity : e'.integrity = e.integrity ∨ ri e.integrity < ri e'.integrity
  freshness : e'.freshness = e.freshness ∨ rf e.freshness < rf e'.freshness
  health : e'.health = e.health ∨ rh e.health < rh e'.health
  reachability : e'.reachability = e.reachability ∨ rr e.reachability < rr e'.reachability

/-- No weight is negative. -/
structure RankingPolicy.NonNegative (p : RankingPolicy) : Prop where
  reachability : 0 ≤ (ofBits p.reachabilityW : ℚ)
  health : 0 ≤ (ofBits p.healthW : ℚ)
  freshness : 0 ≤ (ofBits p.freshnessW : ℚ)
  integrity : 0 ≤ (ofBits p.integrityW : ℚ)

/-- The directory with other evidence for the record at the position. -/
def Directory.reassess (d : Directory) (i : Nat) (e : Evidence) : Directory :=
  { d with records := d.records.modify i fun r => r.withEvidence e }

section Ranks

variable {e e' : Evidence}

theorem Evidence.Better.ri_le (h : e.Better e') : ri e.integrity ≤ ri e'.integrity :=
  h.integrity.elim (fun heq => by rw [heq]) le_of_lt

theorem Evidence.Better.rf_le (h : e.Better e') : rf e.freshness ≤ rf e'.freshness :=
  h.freshness.elim (fun heq => by rw [heq]) le_of_lt

theorem Evidence.Better.rh_le (h : e.Better e') : rh e.health ≤ rh e'.health :=
  h.health.elim (fun heq => by rw [heq]) le_of_lt

theorem Evidence.Better.rr_le (h : e.Better e') : rr e.reachability ≤ rr e'.reachability :=
  h.reachability.elim (fun heq => by rw [heq]) le_of_lt

end Ranks

/-! ## 3. The filters -/

/-- The values the filters refuse are those of the two lowest ranks. -/
theorem two_le_ri_iff {i : Integrity} : 2 ≤ ri i ↔ i ≠ .corrupt ∧ i ≠ .missing := by
  cases i <;> simp [ri]

section Filters

variable {q : DirectoryQuery} {r : DirectoryRecord} {e : Evidence}

/-- What identifies a record is not its evidence. -/
theorem matching_withEvidence : Matching q (r.withEvidence e) ↔ Matching q r := by
  constructor
  · intro h
    exact ⟨h.1, ⟨h.2.1, h.2.2, h.2.3, h.2.4, h.2.5, h.2.6⟩⟩
  · intro h
    exact ⟨h.1, ⟨h.2.1, h.2.2, h.2.3, h.2.4, h.2.5, h.2.6⟩⟩

/-- **An eligible record with better evidence is eligible exactly when it is not STALE.** -/
theorem eligible_withEvidence (hbetter : r.evidence.Better e) (h : Eligible q r) :
    Eligible q (r.withEvidence e) ↔ e.freshness ≠ .stale := by
  rw [eligible_iff_qualified, matching_withEvidence]
  obtain ⟨hm, hq⟩ := eligible_iff_qualified.mp h
  constructor
  · rintro ⟨_, hq'⟩
    exact hq'.freshness
  · intro hfresh
    refine ⟨hm,
      { lifecycle := hq.lifecycle
        integrity := ?integrity
        reachability := ?reachability
        freshness := hfresh
        lease := hq.lease
        domain := hq.domain
        integrityRank := fun hask => (hq.integrityRank hask).trans hbetter.ri_le
        freshnessRank := fun hask => (hq.freshnessRank hask).trans hbetter.rf_le
        healthRank := fun hask => (hq.healthRank hask).trans hbetter.rh_le
        reachabilityRank := fun hask => (hq.reachabilityRank hask).trans hbetter.rr_le }⟩
    case integrity =>
      exact two_le_ri_iff.mp ((two_le_ri_iff.mpr hq.integrity).trans hbetter.ri_le)
    case reachability =>
      show e.reachability ≠ .unreachable
      rcases hbetter.reachability with hsame | hhigher
      · rw [hsame]
        exact hq.reachability
      · intro hlow
        rw [hlow] at hhigher
        exact absurd hhigher (Nat.not_lt_zero _)

end Filters

/-! ## 4. The scores -/

section Sums

theorem foldl_add_le {fs gs : List (RankingFactor ℚ)}
    (h : List.Forall₂ (fun f g => f.contribution ≤ g.contribution) fs gs) {x y : ℚ} (hxy : x ≤ y) :
    fs.foldl (fun total f => add total f.contribution) x ≤
      gs.foldl (fun total f => add total f.contribution) y := by
  induction h generalizing x y with
  | nil => exact hxy
  | cons hfg _ ih => exact ih (add_le_add hxy hfg)

/-- Where no contribution falls, the total does not. -/
theorem totalScore_le {fs gs : List (RankingFactor ℚ)}
    (h : List.Forall₂ (fun f g => f.contribution ≤ g.contribution) fs gs) :
    totalScore fs ≤ totalScore gs :=
  foldl_add_le h le_rfl

/-- A higher rank of the same scale, under a weight that is not negative. -/
theorem contribution_le {kind : RankingFactorKind} {weight : F64} {note : String} {m n k : Nat}
    (hweight : 0 ≤ (ofBits weight : ℚ)) (h : m ≤ n) :
    (factor (F := ℚ) kind weight (div (ofNat m) (ofNat k)) note).contribution ≤
      (factor (F := ℚ) kind weight (div (ofNat n) (ofNat k)) note).contribution := by
  have hcast : (m : ℚ) ≤ n := Nat.cast_le.mpr h
  exact mul_le_mul_of_nonneg_left (div_le_div_of_nonneg_right hcast (Nat.cast_nonneg' k)) hweight

end Sums

section Scores

variable {d : Directory} {q : DirectoryQuery} {i : Nat} {e : Evidence}

/-- Other evidence of one record is no other number of replicas. -/
theorem replicaCount_reassess (d : Directory) (i : Nat) (e : Evidence) (r : DirectoryRecord) :
    (d.reassess i e).replicaCount r = d.replicaCount r := by
  unfold replicaCount reassess
  rw [countP_modify]
  exact fun x => rfl

/-- The factors of every record stay. -/
theorem scoreFactors_reassess {F : Type} [ScoreArith F] (d : Directory) (i : Nat) (e : Evidence)
    (r : DirectoryRecord) (q : DirectoryQuery) :
    (d.reassess i e).scoreFactors (F := F) r q = d.scoreFactors r q := by
  unfold scoreFactors
  rw [replicaCount_reassess]
  rfl

/-- **Better evidence does not lower a score.** -/
theorem scoreOf_le {r : DirectoryRecord} (hweights : d.policy.NonNegative)
    (hbetter : r.evidence.Better e) :
    d.scoreOf (F := ℚ) q r ≤ (d.reassess i e).scoreOf q (r.withEvidence e) := by
  unfold scoreOf
  rw [scoreFactors_reassess]
  have hcount : d.replicaCount (r.withEvidence e) = d.replicaCount r := rfl
  refine totalScore_le ?_
  unfold scoreFactors
  rw [hcount]
  simp only [List.forall₂_cons, List.forall₂_nil_right_iff, and_true]
  exact ⟨le_rfl, le_rfl, le_rfl, le_rfl, le_rfl, le_rfl,
    contribution_le hweights.reachability hbetter.rr_le,
    contribution_le hweights.health hbetter.rh_le,
    contribution_le hweights.freshness hbetter.rf_le,
    contribution_le hweights.integrity hbetter.ri_le,
    le_rfl, le_rfl, le_rfl, le_rfl, le_rfl, le_rfl, le_rfl⟩

end Scores

/-! ## 5. Positions -/

/-- The record at the position. -/
def Directory.slot (d : Directory) (i : Nat) : DirectoryRecord := d.records[i]?.getD {}

/-- The positions of the candidates, in the order of the answer. -/
def Directory.positions (F : Type) [ScoreArith F] (d : Directory) (q : DirectoryQuery) : List Nat :=
  ((List.range d.records.length).filter fun i => Eligible q (d.slot i)).mergeSort fun i j =>
    !candidateLess (d.candidateOf (F := F) q (d.slot j)) (d.candidateOf q (d.slot i))

section Positions

theorem getElem?_slot {d : Directory} {i : Nat} (hi : i < d.records.length) :
    d.records[i]? = some (d.slot i) := by
  unfold slot
  rw [List.getElem?_eq_getElem hi, Option.getD_some]

theorem map_slot (d : Directory) :
    (List.range d.records.length).map d.slot = d.records := by
  refine List.ext_getElem (by simp) fun i h h' => ?_
  rw [List.getElem_map, List.getElem_range]
  have hget := getElem?_slot h'
  rw [List.getElem?_eq_getElem h'] at hget
  exact (Option.some.inj hget).symm

/-- **The candidates of an answer are the records at these positions, in this order.** -/
theorem candidates_positions (F : Type) [ScoreArith F] (d : Directory) (q : DirectoryQuery) :
    (d.queryScan (F := F) q).candidates.map (·.record) = (d.positions F q).map d.slot := by
  have heligible : (d.records.filter fun r => Eligible q r) =
      ((List.range d.records.length).filter fun i => Eligible q (d.slot i)).map d.slot := by
    rw [← map_slot d, List.filter_map, map_slot]
    rfl
  have hchosen : chosen (F := F) d q =
      (d.positions F q).map fun i => d.candidateOf q (d.slot i) := by
    unfold chosen positions
    rw [heligible, List.map_map]
    refine (List.map_mergeSort ?_).symm
    exact fun i _ j _ => rfl
  rw [(queryScan_eq d q).1, records_selectFirst, hchosen, List.map_map]
  rfl

/-- The query answers with the records at the positions, in this order. -/
def Directory.AnswersWith (F : Type) [ScoreArith F] (d : Directory) (q : DirectoryQuery)
    (order : Enumeration Nat) (ps : List Nat) : Prop :=
  ∃ res, (d.query (F := F) order q).1 = .ok res ∧
    res.candidates.map (·.record) = ps.map d.slot

theorem answersWith_positions {F : Type} [ScoreArith F] {d : Directory} (h : d.IndexFits)
    (q : DirectoryQuery) (order : Enumeration Nat) :
    d.AnswersWith F q order (d.positions F q) :=
  ⟨_, query_answer h order q, candidates_positions F d q⟩

theorem mem_positions {F : Type} [ScoreArith F] {d : Directory} {q : DirectoryQuery} {i : Nat} :
    i ∈ d.positions F q ↔ i < d.records.length ∧ Eligible q (d.slot i) := by
  unfold positions
  rw [List.mem_mergeSort, List.mem_filter, List.mem_range, decide_eq_true_iff]

/-- The standing of the candidate at a position. -/
def Directory.standingAt (d : Directory) (q : DirectoryQuery) (i : Nat) :=
  standing (d.candidateOf (F := ℚ) q (d.slot i))

/-- Which of two candidates comes first: the one of the better standing, at one standing the one
    registered first. -/
theorem pair_sublist_positions {d : Directory} {q : DirectoryQuery} {i j : Nat}
    (hi : i ∈ d.positions ℚ q) (hj : j ∈ d.positions ℚ q) (hne : i ≠ j) :
    [i, j].Sublist (d.positions ℚ q) ↔ d.standingAt q i < d.standingAt q j ∨
      d.standingAt q i = d.standingAt q j ∧ [i, j].Sublist
        ((List.range d.records.length).filter fun i => Eligible q (d.slot i)) := by
  have hranked : RankedBy (d.standingAt q)
      (fun i j => !candidateLess (d.candidateOf (F := ℚ) q (d.slot j))
        (d.candidateOf q (d.slot i)))
      ((List.range d.records.length).filter fun i => Eligible q (d.slot i)) :=
    fun i _ j _ => not_candidateLess_iff (comparable_exact _) (comparable_exact _)
  exact hranked.pair_sublist_iff (List.nodup_range.filter _) (List.mem_mergeSort.mp hi)
    (List.mem_mergeSort.mp hj) hne

end Positions

/-! ## 6. Never hurt -/

/-- A candidate stays one, and stays ahead of every candidate it was ahead of. -/
structure NeverHurts (F : Type) [ScoreArith F] (q : DirectoryQuery) (d d' : Directory) (i : Nat) :
    Prop where
  kept : i ∈ d.positions F q → i ∈ d'.positions F q
  ahead : ∀ j, [i, j].Sublist (d.positions F q) → [i, j].Sublist (d'.positions F q)

section Reassessed

variable {d : Directory} {q : DirectoryQuery} {i : Nat} {r : DirectoryRecord} {e : Evidence}

theorem slot_reassess (hi : d.records[i]? = some r) :
    (d.reassess i e).slot i = r.withEvidence e := by
  unfold slot reassess
  rw [List.getElem?_modify_eq, hi]
  rfl

theorem slot_reassess_ne {j : Nat} (hne : i ≠ j) :
    (d.reassess i e).slot j = d.slot j := by
  unfold slot reassess
  rw [List.getElem?_modify_ne _ _ hne]

theorem length_reassess : (d.reassess i e).records.length = d.records.length :=
  List.length_modify _ _ _

theorem indexFits_reassess (h : d.IndexFits) : (d.reassess i e).IndexFits := by
  have hkeys : (d.reassess i e).records.map (·.stateId) = d.records.map (·.stateId) :=
    map_modify (f := fun r : DirectoryRecord => r.withEvidence e) (fun _ => rfl) _ _
  have hindex : indexBy (·.stateId) (d.reassess i e).records = indexBy (·.stateId) d.records :=
    indexBy_congr hkeys
  unfold IndexFits
  rw [hindex]
  exact h

/-- The others stand where they stood. -/
theorem standingAt_reassess_ne {j : Nat} (hne : i ≠ j) :
    (d.reassess i e).standingAt q j = d.standingAt q j := by
  unfold standingAt candidateOf
  rw [slot_reassess_ne hne, scoreFactors_reassess]

theorem slot_of_getElem? (hi : d.records[i]? = some r) : d.slot i = r := by
  unfold slot
  rw [hi]
  rfl

/-- The record itself stands no worse. -/
theorem standingAt_reassess_le (hi : d.records[i]? = some r) (hweights : d.policy.NonNegative)
    (hbetter : r.evidence.Better e) :
    (d.reassess i e).standingAt q i ≤ d.standingAt q i := by
  have hscore : d.scoreOf (F := ℚ) q r ≤ (d.reassess i e).scoreOf q (r.withEvidence e) :=
    scoreOf_le hweights hbetter
  unfold standingAt
  rw [slot_reassess hi, slot_of_getElem? hi]
  refine (standing_le_iff rfl rfl).mpr (hscore.lt_or_eq.imp id fun heq => ⟨heq.symm, ?_⟩)
  exact le_rfl

/-- While the record stays eligible, the same positions are. -/
theorem eligible_reassess (hi : d.records[i]? = some r) (helig : Eligible q r)
    (helig' : Eligible q (r.withEvidence e)) (j : Nat) :
    Eligible q ((d.reassess i e).slot j) ↔ Eligible q (d.slot j) := by
  by_cases hne : i = j
  · rw [← hne, slot_reassess hi, slot_of_getElem? hi]
    exact iff_of_true helig' helig
  · rw [slot_reassess_ne hne]

/-- And what stood behind the record still does. -/
theorem ahead_reassess (hi : d.records[i]? = some r) (hweights : d.policy.NonNegative)
    (hbetter : r.evidence.Better e) (helig : Eligible q r)
    (helig' : Eligible q (r.withEvidence e)) {j : Nat} (h : [i, j].Sublist (d.positions ℚ q)) :
    [i, j].Sublist ((d.reassess i e).positions ℚ q) := by
  have hsame := eligible_reassess hi helig helig'
  have hfilter : ((List.range (d.reassess i e).records.length).filter
      fun j => Eligible q ((d.reassess i e).slot j)) =
        (List.range d.records.length).filter fun j => Eligible q (d.slot j) := by
    rw [length_reassess]
    exact List.filter_congr fun j _ => decide_eq_decide.mpr (hsame j)
  have hmem {j : Nat} (hj : j ∈ d.positions ℚ q) : j ∈ (d.reassess i e).positions ℚ q := by
    rw [mem_positions, length_reassess, hsame]
    exact mem_positions.mp hj
  have hi' : i ∈ d.positions ℚ q := h.subset (by simp)
  have hj' : j ∈ d.positions ℚ q := h.subset (by simp)
  have hne : i ≠ j := by
    have hnodup : (d.positions ℚ q).Nodup :=
      (List.mergeSort_perm _ _).nodup_iff.mpr (List.nodup_range.filter _)
    exact List.pairwise_iff_forall_sublist.mp hnodup h
  have hle := standingAt_reassess_le (q := q) hi hweights hbetter
  rw [pair_sublist_positions (hmem hi') (hmem hj') hne, standingAt_reassess_ne hne, hfilter]
  rcases (pair_sublist_positions hi' hj' hne).mp h with hlt | ⟨heq, hsub⟩
  · exact .inl (hle.trans_lt hlt)
  · rw [← heq]
    exact hle.lt_or_eq.imp id fun heq => ⟨heq, hsub⟩

/-- **Better evidence never hurts, but for the step to STALE**: the record stays a candidate and
    stays ahead of every candidate behind it exactly when it was not eligible or is not STALE. In
    every directory; the positions compared are those of the two answers. -/
theorem better_evidence_iff (d : Directory) (q : DirectoryQuery) (i : Nat) (r : DirectoryRecord)
    (e : Evidence) (hi : d.records[i]? = some r) (hbetter : r.evidence.Better e)
    (hweights : d.policy.NonNegative) :
    (NeverHurts ℚ q d (d.reassess i e) i ↔ (Eligible q r → e.freshness ≠ .stale)) ∧
      ∀ order, d.IndexFits → d.AnswersWith ℚ q order (d.positions ℚ q) ∧
        (d.reassess i e).AnswersWith ℚ q order ((d.reassess i e).positions ℚ q) := by
  refine ⟨?_, fun order h =>
    ⟨answersWith_positions h q order, answersWith_positions (indexFits_reassess h) q order⟩⟩
  have hlt : i < d.records.length := (List.getElem?_eq_some_iff.mp hi).1
  have hbefore : i ∈ d.positions ℚ q ↔ Eligible q r := by
    rw [mem_positions, and_iff_right hlt, slot_of_getElem? hi]
  have hbehind : i ∈ (d.reassess i e).positions ℚ q ↔ Eligible q (r.withEvidence e) := by
    rw [mem_positions, length_reassess, and_iff_right hlt, slot_reassess hi]
  constructor
  · intro h helig
    have helig' := hbehind.mp (h.kept (hbefore.mpr helig))
    exact (eligible_withEvidence hbetter helig).mp helig'
  · intro hfresh
    have hkept (helig : Eligible q r) : Eligible q (r.withEvidence e) :=
      (eligible_withEvidence hbetter helig).mpr (hfresh helig)
    refine ⟨fun hmem => hbehind.mpr (hkept (hbefore.mp hmem)), fun j hsub => ?_⟩
    have helig := hbefore.mp (hsub.subset (by simp))
    exact ahead_reassess hi hweights hbetter helig (hkept helig) hsub

end Reassessed

/-! ## 7. From UNKNOWN to STALE -/

theorem nonNegative_default : RankingPolicy.NonNegative {} where
  reachability := by decide +kernel
  health := by decide +kernel
  freshness := by decide +kernel
  integrity := by decide +kernel

/-- The evidence of the first record, with freshness STALE. -/
def staleNow (d : Directory) : Evidence := { (d.slot 0).evidence with freshness := .stale }

/-- **The counterexample**: STALE ranks above UNKNOWN, and a candidate of UNKNOWN freshness that is
    reported STALE is rejected for it. -/
theorem stale_hurts :
    Reached Float registeredOnce afterRegistration ∧
      (afterRegistration.slot 0).current = true ∧
      (afterRegistration.slot 0).evidence.Better (staleNow afterRegistration) ∧
      afterRegistration.policy.NonNegative ∧
      0 ∈ afterRegistration.positions ℚ anyCopy ∧
      0 ∉ (afterRegistration.reassess 0 (staleNow afterRegistration)).positions ℚ anyCopy ∧
      RejectedAt anyCopy (afterRegistration.reassess 0 (staleNow afterRegistration)) 0
        .staleRecord := by
  refine ⟨after_mem_visited _ _ _, by decide +kernel, ?_, nonNegative_default, ?_, ?_, ?_⟩
  · exact ⟨.inl rfl, .inr (by decide +kernel), .inl rfl, .inl rfl⟩
  · rw [mem_positions]
    decide +kernel
  · rw [mem_positions]
    decide +kernel
  · exact ⟨_, getElem?_slot (by decide +kernel), by decide +kernel, by decide +kernel⟩

/-- Evidence of the highest ranks. -/
def bestEvidence : Evidence :=
  { integrity := .verified, freshness := .current, health := .healthy, reachability := .reachable }

theorem best_evidence_beside :
    NeverHurts ℚ anyCopy (beside {}) ((beside {}).reassess 1 bestEvidence) 1 := by
  have hbetter : ((beside {}).slot 1).evidence.Better bestEvidence :=
    ⟨.inr (by decide +kernel), .inr (by decide +kernel), .inr (by decide +kernel),
      .inr (by decide +kernel)⟩
  exact (better_evidence_iff (beside {}) anyCopy 1 ((beside {}).slot 1) bestEvidence
    (getElem?_slot (by decide +kernel)) hbetter nonNegative_default).1.mpr fun _ h => by cases h

end CacheDirectory
