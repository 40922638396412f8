/-
  File:      CacheDirectory/Queries/Specification.lean
  Subject:   WHAT A QUERY ANSWERS.

  The current records the query identifies are split into candidates and rejections; the
  candidates are sorted, the first is selected, and the outcome names what was found, or the
  gravest reason why nothing was.

  * `Identified`, `Qualified` -- the two filters, read as conditions on the record;
    `considered_iff`, `eligible_iff_qualified` tie them to the code's;
  * `AnswersQuery` -- all that holds of an answer but for the order of the candidates;
  * `queryScan_answers` -- it holds of every answer;
  * `query_answers_iff` -- and the candidates are in order exactly when there are not two of
    them or no score is a NaN.
-/
import CacheDirectory.Queries.Scores
import CacheDirectory.Recovery.Serving

namespace CacheDirectory

open Library Directory

/-! ## 1. The filters -/

/-- The identity of the record is the one the query asks for, as far as it asks. -/
structure Identified (q : DirectoryQuery) (r : DirectoryRecord) : Prop where
  state : q.exactState = true → r.stateId = q.state
  stateGeneration : q.exactStateGeneration = true → r.stateGeneration = q.stateGeneration
  kind : q.hasKind = true → r.kind = q.kind
  nameSpace : q.nameSpace ≠ [] → r.nameSpace = q.nameSpace
  contentDigest : q.requireContentDigest = true →
    r.contentDigestKnown = true ∧ r.contentDigest = q.contentDigest
  compatibility : q.requireCompatibility = true → r.compatibility = q.compatibility

/-- The record's standing and evidence are what the query requires. -/
structure Qualified (q : DirectoryQuery) (r : DirectoryRecord) : Prop where
  lifecycle : r.lifecycle ≠ .invalidated ∧ r.lifecycle ≠ .tombstoned ∧ r.lifecycle ≠ .expired
  integrity : r.integrity ≠ .corrupt ∧ r.integrity ≠ .missing
  reachability : r.reachability ≠ .unreachable
  freshness : r.freshness ≠ .stale
  lease : ¬ (r.hasLease = true ∧ r.lease.state = .expired)
  domain : q.allowedDomains = [] ∨ r.domain ∈ q.allowedDomains
  integrityRank : q.hasIntegrity = true → ri q.integrity ≤ ri r.integrity
  freshnessRank : q.hasFreshness = true → rf q.freshness ≤ rf r.freshness
  healthRank : q.hasHealth = true → rh q.health ≤ rh r.health
  reachabilityRank : q.hasReachability = true → rr q.reachability ≤ rr r.reachability

/-- A current record the query identifies. -/
def Matching (q : DirectoryQuery) (r : DirectoryRecord) : Prop :=
  r.current = true ∧ Identified q r

section Filters

variable {q : DirectoryQuery} {r : DirectoryRecord}

theorem identifyMatches_iff : identifyMatches r q = true ↔ Identified q r := by
  unfold identifyMatches
  simp only [Bool.and_eq_true, Bool.not_eq_true', Bool.and_eq_false_imp, bne_eq_false_iff_eq,
    Bool.not_eq_false', Digest.digestEqual_iff, List.isEmpty_eq_false_iff]
  constructor
  · rintro ⟨⟨⟨⟨⟨hstate, hgen⟩, hkind⟩, hname⟩, hdigest⟩, hcompat⟩
    exact ⟨hstate, hgen, hkind, hname, hdigest, hcompat⟩
  · intro h
    exact ⟨⟨⟨⟨⟨h.state, h.stateGeneration⟩, h.kind⟩, h.nameSpace⟩, h.contentDigest⟩,
      h.compatibility⟩

theorem considered_iff : considered q r = true ↔ Matching q r := by
  unfold considered Matching
  rw [← identifyMatches_iff]
  cases identifyMatches r q <;> cases r.current <;> simp

instance : Decidable (Matching q r) := decidable_of_iff _ considered_iff

theorem eligible_iff_qualified : Eligible q r ↔ Matching q r ∧ Qualified q r := by
  rw [eligible_iff]
  have hdomain : q.allowedDomains.isEmpty = true ∨ q.allowedDomains.contains r.domain = true ↔
      q.allowedDomains = [] ∨ r.domain ∈ q.allowedDomains := by
    rw [List.isEmpty_iff, List.contains_iff_mem]
  constructor
  · rintro ⟨hu, hs⟩
    exact ⟨considered_iff.mp hu.considered,
      { lifecycle := ⟨hs.notInvalidated, hs.notTombstoned, hs.notExpired⟩
        integrity := ⟨hu.notCorrupt, hu.notMissing⟩
        reachability := hs.reachable
        freshness := hs.fresh
        lease := hu.lease
        domain := hdomain.mp hu.domain
        integrityRank := hu.integrity
        freshnessRank := hs.freshness
        healthRank := hu.health
        reachabilityRank := hs.reachability }⟩
  · rintro ⟨hm, hq⟩
    exact ⟨⟨considered_iff.mpr hm, hq.integrity.1, hq.integrity.2, hq.integrityRank,
        hq.healthRank, hdomain.mpr hq.domain, hq.lease⟩,
      ⟨hq.lifecycle.1, hq.lifecycle.2.1, hq.lifecycle.2.2, hq.reachability, hq.freshness,
        hq.freshnessRank, hq.reachabilityRank⟩⟩

/-- The hard filters know no incompatible record and no missing evidence. -/
theorem reason_of_hardReject {reason : RejectionReason} (h : hardReject r q = some reason) :
    reason ≠ .incompatible ∧ reason ≠ .missingRequiredEvidence := by
  have hmem := mem_of_firstFailure h
  simp only [List.mem_cons, Prod.mk.injEq, List.not_mem_nil, or_false] at hmem
  rcases hmem with h | h | h | h | h | h | h | h | h | h | h | h | h | h
  all_goals
    rw [h.2]
    exact ⟨by decide, by decide⟩

end Filters

/-! ## 2. Answers -/

section Selected

variable {F : Type}

/-- The first candidate is selected. -/
def selectFirst : List (Candidate F) → List (Candidate F)
  | [] => []
  | c :: cs => { c with selected := true } :: cs

theorem records_selectFirst (cs : List (Candidate F)) :
    (selectFirst cs).map (·.record) = cs.map (·.record) := by
  cases cs with
  | nil => rfl
  | cons c cs => rfl

theorem length_selectFirst (cs : List (Candidate F)) : (selectFirst cs).length = cs.length := by
  cases cs with
  | nil => rfl
  | cons c cs => rfl

theorem selected_selectFirst {cs : List (Candidate F)} (h : ∀ c ∈ cs, c.selected = false)
    (i : Nat) (c : Candidate F) (hc : (selectFirst cs)[i]? = some c) :
    c.selected = true ↔ i = 0 := by
  rcases cs with - | ⟨b, cs⟩
  · cases hc
  · cases i with
    | zero =>
        cases hc
        exact iff_of_true rfl rfl
    | succ i =>
        have hmem : c ∈ cs := List.mem_of_getElem? hc
        rw [h c (List.mem_cons_of_mem _ hmem)]
        simp

/-- The outcome, from the sorted candidates. -/
def outcomeOf (d : Directory) (q : DirectoryQuery) (rejections : List Rejection) (matched : Nat) :
    List (Candidate F) → QueryOutcome
  | [] => emptyOutcome rejections matched
  | [c] => if d.isLocal q c.record then .foundLocal else .foundRemote
  | _ :: _ :: _ => .foundMultiple

/-- The three outcomes that name what was found. -/
theorem outcomeOf_found (d : Directory) (q : DirectoryQuery) (rejections : List Rejection) (n : Nat)
    (cs : List (Candidate F)) :
    (outcomeOf d q rejections n cs = .foundMultiple ↔ 2 ≤ (selectFirst cs).length) ∧
      (outcomeOf d q rejections n cs = .foundLocal ↔
        ∃ c, selectFirst cs = [c] ∧ d.isLocal q c.record = true) ∧
      (outcomeOf d q rejections n cs = .foundRemote ↔
        ∃ c, selectFirst cs = [c] ∧ d.isLocal q c.record = false) := by
  rcases cs with - | ⟨c, - | ⟨c', cs⟩⟩
  · have hnot : (outcomeOf (F := F) d q rejections n []).isFound = false :=
      emptyOutcome_not_found rejections n
    refine ⟨iff_of_false (fun h => ?_) (by simp [selectFirst]),
      iff_of_false (fun h => ?_) (by simp [selectFirst]),
      iff_of_false (fun h => ?_) (by simp [selectFirst])⟩
    all_goals
      rw [h] at hnot
      cases hnot
  · have hone (b : Bool) : (∃ x, selectFirst [c] = [x] ∧ d.isLocal q x.record = b) ↔
        d.isLocal q c.record = b :=
      ⟨fun ⟨x, hx, hb⟩ => by cases hx; exact hb, fun hb => ⟨_, rfl, hb⟩⟩
    rw [hone, hone]
    cases hlocal : d.isLocal q c.record with
    | true => simp [outcomeOf, hlocal, selectFirst]
    | false => simp [outcomeOf, hlocal, selectFirst]
  · simp [outcomeOf, selectFirst]

theorem outcomeOf_cons_ne_notFound (d : Directory) (q : DirectoryQuery)
    (rejections : List Rejection) (n : Nat) (c : Candidate F) (cs : List (Candidate F)) :
    outcomeOf d q rejections n (c :: cs) ≠ .notFound := by
  cases cs with
  | nil =>
      show (if d.isLocal q c.record then QueryOutcome.foundLocal else .foundRemote) ≠ .notFound
      split
      · exact fun h => by cases h
      · exact fun h => by cases h
  | cons c' cs => exact fun h => by cases h

end Selected

section Answers

variable {F : Type} [ScoreArith F]

/-- The rejection names the record and the hard filter it fails. -/
def RejectedFor (q : DirectoryQuery) (r : DirectoryRecord) (rj : Rejection) : Prop :=
  ∃ reason, hardReject r q = some reason ∧ rj = rejectionOf r reason

/-- Of the kinds of rejections there are, the gravest names the outcome. -/
def gravest (rejections : List Rejection) : QueryOutcome :=
  let met (reasons : List RejectionReason) : Prop := ∃ rj ∈ rejections, rj.reason ∈ reasons
  if met [.corrupt, .missingBytes] then .corruptOnly
  else if met [.unreachable, .reachabilityBelowRequirement] then .unreachableOnly
  else if met [.staleRecord, .freshnessBelowRequirement] then .staleOnly
  else .insufficientEvidence

/-- What holds of the answer to a query, but for the order of the candidates. -/
structure AnswersQuery (d : Directory) (q : DirectoryQuery) (res : QueryResult F) : Prop where
  split : ∃ refused, (res.candidates.map (·.record) ++ refused).Perm
      (d.records.filter fun r => Matching q r) ∧
    List.Forall₂ (RejectedFor q) refused res.rejections
  qualified : ∀ r ∈ d.records, Matching q r →
    ((∃ c ∈ res.candidates, c.record = r) ↔ Qualified q r)
  scored : ∀ c ∈ res.candidates, c.factors = d.scoreFactors c.record q ∧
    c.score = totalScore c.factors
  selected : ∀ i c, res.candidates[i]? = some c → (c.selected = true ↔ i = 0)
  selectedIndex : res.selectedIndex = 0
  multiple : res.outcome = .foundMultiple ↔ 2 ≤ res.candidates.length
  localOnly : res.outcome = .foundLocal ↔
    ∃ c, res.candidates = [c] ∧ d.isLocal q c.record = true
  remoteOnly : res.outcome = .foundRemote ↔
    ∃ c, res.candidates = [c] ∧ d.isLocal q c.record = false
  nothing : res.outcome = .notFound ↔ ∀ r ∈ d.records, ¬ Matching q r
  otherwise : res.candidates = [] → (∃ r ∈ d.records, Matching q r) →
    res.outcome = gravest res.rejections

/-- The eligible records, scored and sorted. -/
def chosen (d : Directory) (q : DirectoryQuery) : List (Candidate F) :=
  ((d.records.filter fun r => Eligible q r).map (d.candidateOf q)).mergeSort
    fun a b => !candidateLess b a

/-- The test the code makes of a record before the hard filters. -/
theorem filter_considered (records : List DirectoryRecord) (q : DirectoryQuery) :
    records.filter (considered q) = records.filter fun r => Matching q r :=
  List.filter_congr fun r _ => by rw [Bool.eq_iff_iff, considered_iff, decide_eq_true_iff]

/-- The eligible records are the matching ones no hard filter rejects. -/
theorem filter_eligible (records : List DirectoryRecord) (q : DirectoryQuery) :
    (records.filter fun r => Eligible q r) =
      (records.filter fun r => Matching q r).filter fun r => (hardReject r q).isNone := by
  rw [List.filter_filter]
  refine List.filter_congr fun r _ => ?_
  rw [Bool.eq_iff_iff, Bool.and_eq_true, decide_eq_true_iff, decide_eq_true_iff,
    ← considered_iff, Option.isNone_iff_eq_none]
  exact and_comm

/-- What the hard filters make of the matching records. -/
def refusals (d : Directory) (q : DirectoryQuery) : List Rejection :=
  (d.records.filter fun r => Matching q r).filterMap fun r => (hardReject r q).map (rejectionOf r)

/-- **A scan, in the words above.** -/
theorem queryImpl_eq (d : Directory) (q : DirectoryQuery) :
    d.queryImpl (F := F) q (List.range d.records.length) =
      { queryId := q.queryId
        outcome := outcomeOf d q (refusals d q) (d.records.filter fun r => Matching q r).length
          (chosen (F := F) d q)
        candidates := selectFirst (chosen d q)
        rejections := refusals d q
        matchedScanCount := .ofNat (chosen (F := F) d q).length } := by
  have hscan : (unique ((List.range d.records.length).mergeSort (· ≤ ·))).filterMap
      (fun i => d.records[i]?) = d.records := scanned_all d.records
  have hrefusals : ((d.records.filter fun r => Matching q r).filterMap fun r =>
      (hardReject r q).map (rejectionOf r)) = refusals d q := rfl
  have hchosen : ((d.records.filter fun r => Eligible q r).map (d.candidateOf (F := F) q)).mergeSort
      (fun a b => !candidateLess b a) = chosen d q := rfl
  unfold queryImpl
  simp only [hscan]
  rw [filter_considered, ← filter_eligible, hrefusals, hchosen]
  rcases chosen (F := F) d q with - | ⟨c, - | ⟨c', cs⟩⟩
  · rfl
  · rfl
  · rfl

theorem queryScan_eq (d : Directory) (q : DirectoryQuery) :
    (d.queryScan (F := F) q).candidates = selectFirst (chosen d q) ∧
      (d.queryScan (F := F) q).selectedIndex = 0 ∧
      (d.queryScan (F := F) q).outcome =
        outcomeOf d q (d.queryScan (F := F) q).rejections
          (d.records.filter fun r => Matching q r).length (chosen (F := F) d q) := by
  unfold queryScan
  rw [queryImpl_eq]
  exact ⟨rfl, rfl, rfl⟩

theorem records_chosen (d : Directory) (q : DirectoryQuery) :
    ((chosen (F := F) d q).map (·.record)).Perm (d.records.filter fun r => Eligible q r) := by
  refine ((List.mergeSort_perm _ _).map _).trans (.of_eq ?_)
  rw [List.map_map]
  exact List.map_id _

theorem mem_chosen {d : Directory} {q : DirectoryQuery} {c : Candidate F} :
    c ∈ chosen d q ↔ (c.record ∈ d.records ∧ Eligible q c.record) ∧
      c = d.candidateOf q c.record := by
  unfold chosen
  rw [List.mem_mergeSort, List.mem_map]
  constructor
  · rintro ⟨r, hr, rfl⟩
    have hmem := List.mem_filter.mp hr
    rw [decide_eq_true_iff] at hmem
    exact ⟨hmem, rfl⟩
  · rintro ⟨hmem, hc⟩
    refine ⟨c.record, List.mem_filter.mpr ?_, hc.symm⟩
    rw [decide_eq_true_iff]
    exact hmem

/-- As many candidates as there are eligible records. -/
theorem length_queryScan (d : Directory) (q : DirectoryQuery) :
    (d.queryScan (F := F) q).candidates.length = d.records.countP fun r => Eligible q r := by
  have hlength := (records_chosen (F := F) d q).length_eq
  rw [List.length_map, ← List.countP_eq_length_filter] at hlength
  rw [(queryScan_eq d q).1, length_selectFirst, hlength]

theorem emptyOutcome_matched {rejections : List Rejection} {n : Nat} (hn : 0 < n)
    (h : ∀ rj ∈ rejections, rj.reason ≠ .incompatible) :
    emptyOutcome rejections n = gravest rejections := by
  have hmet (reasons : List RejectionReason) :
      (rejections.any fun rj => reasons.contains rj.reason) = true ↔
        ∃ rj ∈ rejections, rj.reason ∈ reasons := by
    rw [List.any_eq_true]
    exact exists_congr fun rj => and_congr_right' List.contains_iff_mem
  have hnone : ¬ ∃ rj ∈ rejections, rj.reason ∈ [RejectionReason.incompatible] := by
    rintro ⟨rj, hrj, hreason⟩
    exact h rj hrj (List.mem_singleton.mp hreason)
  unfold emptyOutcome gravest
  simp only [hmet, hnone, Bool.or_eq_true, decide_eq_true_eq, hn, or_true, if_true, if_false]

theorem gravest_ne_notFound (rejections : List Rejection) : gravest rejections ≠ .notFound := by
  unfold gravest
  dsimp only
  repeat' split
  all_goals decide

theorem rejections_queryScan (d : Directory) (q : DirectoryQuery) :
    (d.queryScan (F := F) q).rejections = refusals d q := by
  unfold queryScan
  rw [queryImpl_eq]

/-- The candidates are the eligible records. -/
theorem mem_queryScan {d : Directory} {q : DirectoryQuery} {r : DirectoryRecord} :
    (∃ c ∈ (d.queryScan (F := F) q).candidates, c.record = r) ↔ r ∈ d.records ∧ Eligible q r := by
  rw [(queryScan_eq d q).1, ← List.mem_map, records_selectFirst, (records_chosen d q).mem_iff,
    List.mem_filter, decide_eq_true_iff]

/-- Candidates and rejections divide the matching records between them. -/
theorem split_queryScan (d : Directory) (q : DirectoryQuery) :
    ∃ refused, ((d.queryScan (F := F) q).candidates.map (·.record) ++ refused).Perm
        (d.records.filter fun r => Matching q r) ∧
      List.Forall₂ (RejectedFor q) refused (d.queryScan (F := F) q).rejections := by
  refine ⟨(d.records.filter fun r => Matching q r).filter fun r => (hardReject r q).isSome,
    ?_, ?_⟩
  · rw [(queryScan_eq d q).1, records_selectFirst]
    refine ((records_chosen d q).append_right _).trans ?_
    rw [filter_eligible]
    simp only [← Option.not_isSome]
    exact (List.perm_append_comm).trans (List.filter_append_perm _ _)
  · rw [rejections_queryScan]
    unfold refusals
    have hpairs := forall₂_filterMap (fun r => (hardReject r q).map (rejectionOf r))
      (d.records.filter fun r => Matching q r)
    simp only [Option.isSome_map] at hpairs
    refine hpairs.imp fun r rj h => ?_
    obtain ⟨reason, hreason, rfl⟩ := Option.map_eq_some_iff.mp h
    exact ⟨reason, hreason, rfl⟩

/-- No rejection says that a record is incompatible. -/
theorem reason_of_queryScan {d : Directory} {q : DirectoryQuery} :
    ∀ rj ∈ (d.queryScan (F := F) q).rejections, rj.reason ≠ .incompatible := by
  intro rj hrj
  rw [rejections_queryScan] at hrj
  rw [refusals, List.mem_filterMap] at hrj
  obtain ⟨r, _, h⟩ := hrj
  obtain ⟨reason, hreason, rfl⟩ := Option.map_eq_some_iff.mp h
  exact (reason_of_hardReject hreason).1

/-- With matching records and nothing chosen, the rejections name the outcome. -/
theorem outcome_of_none_chosen {d : Directory} {q : DirectoryQuery}
    (hnone : chosen (F := F) d q = []) (hm : ∃ r ∈ d.records, Matching q r) :
    (d.queryScan (F := F) q).outcome = gravest (d.queryScan (F := F) q).rejections := by
  obtain ⟨r, hr, hm⟩ := hm
  have hpos : 0 < (d.records.filter fun r => Matching q r).length :=
    List.length_pos_of_mem (List.mem_filter.mpr ⟨hr, decide_eq_true hm⟩)
  rw [(queryScan_eq d q).2.2, hnone]
  exact emptyOutcome_matched hpos reason_of_queryScan

/-- Nothing is found exactly where nothing matches. -/
theorem notFound_queryScan_iff {d : Directory} {q : DirectoryQuery} :
    (d.queryScan (F := F) q).outcome = .notFound ↔ ∀ r ∈ d.records, ¬ Matching q r := by
  have houtcome := (queryScan_eq (F := F) d q).2.2
  constructor
  · intro h r hr hm
    cases hchosen : chosen (F := F) d q with
    | nil =>
        exact gravest_ne_notFound _ ((outcome_of_none_chosen hchosen ⟨r, hr, hm⟩).symm.trans h)
    | cons c cs =>
        rw [houtcome, hchosen] at h
        exact outcomeOf_cons_ne_notFound d q _ _ c cs h
  · intro hnone
    have hfilter : (d.records.filter fun r => Matching q r) = [] :=
      List.filter_eq_nil_iff.mpr fun r hr => by simpa using hnone r hr
    have hchosen : chosen (F := F) d q = [] := by
      refine List.eq_nil_iff_forall_not_mem.mpr fun c hc => ?_
      obtain ⟨⟨hr, helig⟩, _⟩ := mem_chosen.mp hc
      exact hnone _ hr (eligible_iff_qualified.mp helig).1
    rw [houtcome, hchosen, rejections_queryScan, refusals, hfilter]
    rfl

/-- **Every answer is as specified.** -/
theorem queryScan_answers (d : Directory) (q : DirectoryQuery) :
    AnswersQuery d q (d.queryScan (F := F) q) := by
  obtain ⟨hcands, hindex, houtcome⟩ := queryScan_eq (F := F) d q
  have hfound := outcomeOf_found d q (d.queryScan (F := F) q).rejections
    (d.records.filter fun r => Matching q r).length (chosen (F := F) d q)
  rw [← hcands, ← houtcome] at hfound
  refine
    { split := split_queryScan d q
      qualified := fun r hr hm => ?qualified
      scored := fun c hc => ?scored
      selected := ?selected
      selectedIndex := hindex
      multiple := hfound.1
      localOnly := hfound.2.1
      remoteOnly := hfound.2.2
      nothing := notFound_queryScan_iff
      otherwise := fun hnone => outcome_of_none_chosen ?otherwise }
  case qualified =>
    rw [mem_queryScan, and_iff_right hr, eligible_iff_qualified, and_iff_right hm]
  case scored =>
    obtain ⟨b, hb⟩ := candidate_scored d q _ hc
    have hfactors : c.factors = d.scoreFactors c.record q := congrArg (·.factors) hb
    exact ⟨hfactors, by rw [hfactors]; exact congrArg (·.score) hb⟩
  case selected =>
    rw [hcands]
    exact selected_selectFirst fun c hc => by rw [(mem_chosen.mp hc).2]; rfl
  case otherwise =>
    rw [hcands] at hnone
    exact List.length_eq_zero_iff.mp (by rw [← length_selectFirst, hnone]; rfl)

end Answers

/-! ## 3. The order of the candidates -/

/-- What the record scores for the query. -/
def Directory.scoreOf {F : Type} [ScoreArith F] (d : Directory) (q : DirectoryQuery)
    (r : DirectoryRecord) : F :=
  totalScore (d.scoreFactors r q)

/-- No two records are eligible, or none that is scores a NaN. -/
def Rankable (F : Type) [ScoreArith F] (d : Directory) (q : DirectoryQuery) : Prop :=
  (d.records.countP fun r => Eligible q r) ≤ 1 ∨
    ∀ r ∈ d.records, Eligible q r → Comparable (d.scoreOf (F := F) q r)

section Order

variable {F : Type} [OrderedScores F]

/-- Selecting moves nothing. -/
theorem ranked_selectFirst (cs : List (Candidate F)) : Ranked (selectFirst cs) ↔ Ranked cs := by
  cases cs with
  | nil => rfl
  | cons c cs =>
      unfold selectFirst Ranked
      rw [List.pairwise_cons, List.pairwise_cons]

/-- **The candidates of a scan are in order exactly when they can be ranked.** -/
theorem ranked_queryScan_iff (d : Directory) (q : DirectoryQuery) :
    Ranked (d.queryScan (F := F) q).candidates ↔ Rankable F d q := by
  rw [(queryScan_eq d q).1, ranked_selectFirst]
  refine (ranked_iff _).trans (or_congr ?_ ?_)
  · rw [List.length_map, ← List.countP_eq_length_filter]
  · rw [List.forall_mem_map]
    simp only [List.mem_filter, decide_eq_true_eq, and_imp]
    rfl

/-- **A query answers as specified, and its candidates are in order exactly when there are not two
    of them or none scores a NaN**: in every state of every run, for every query and every order
    the buckets are enumerated in. -/
theorem query_answers_iff (F : Type) [OrderedScores F] (ops : List Operation) (d : Directory)
    (order : Enumeration Nat) (q : DirectoryQuery) (hd : Reached F ops d) :
    ∃ res, (d.query (F := F) order q).1 = .ok res ∧ AnswersQuery d q res ∧
      (Ranked res.candidates ↔ Rankable F d q) :=
  ⟨_, query_answer (indexFits_reached hd) order q, queryScan_answers d q,
    ranked_queryScan_iff d q⟩

end Order

/-! ## 4. Two copies -/

/-- A second copy of the state, at a location of its own, with the estimates given. -/
def secondCopy (estimate : AccessEstimate) : List Operation :=
  [.registerLocation (attachedLocation ⟨1⟩ ⟨2⟩),
    .registerReplica (attachedReplica ⟨1⟩ ⟨1⟩ ⟨2⟩ ⟨2⟩),
    .registerEntry
      { attachedRecord ⟨1⟩ ⟨1⟩ ⟨2⟩ ⟨2⟩ ⟨2⟩ ⟨1⟩ ⟨1⟩ with estimate := estimate } fun _ => 1]

def besideRun (estimate : AccessEstimate) : List Operation := registeredOnce ++ secondCopy estimate

def beside (estimate : AccessEstimate) : Directory :=
  after (Operation.step Float) {} (besideRun estimate)

/-- A bandwidth that is no number. -/
def nanEstimate : AccessEstimate := { estimatedBandwidthBytesPerS := ⟨0x7FF8000000000000⟩ }

/-- **The counterexample**: a copy with a NaN for its bandwidth is registered and returned, and the
    two candidates are in no order. -/
theorem nan_is_not_ranked :
    Reached Float (besideRun nanEstimate) (beside nanEstimate) ∧
      ∃ res, ((beside nanEstimate).query (F := Float) (.stored _) anyCopy).1 = .ok res ∧
        res.candidates.length = 2 ∧ ¬ Ranked res.candidates := by
  have hreached : Reached Float (besideRun nanEstimate) (beside nanEstimate) :=
    after_mem_visited _ _ _
  refine ⟨hreached, _, query_answer (indexFits_reached hreached) _ _, ?_, ?_⟩
  · rw [length_queryScan]
    decide +kernel
  · rw [ranked_queryScan_iff]
    unfold Rankable
    decide +kernel

/-- Two copies without estimates are ranked. -/
theorem query_answers_beside :
    ∃ res, ((beside {}).query (F := Float) (.stored _) anyCopy).1 = .ok res ∧
      AnswersQuery (beside {}) anyCopy res ∧ Ranked res.candidates := by
  obtain ⟨res, hres, hanswers, hranked⟩ := query_answers_iff Float (besideRun {}) (beside {})
    (.stored _) anyCopy (after_mem_visited _ _ _)
  refine ⟨res, hres, hanswers, hranked.mpr ?_⟩
  unfold Rankable
  decide +kernel

end CacheDirectory
