/-
  File:      CacheDirectory/Queries/Counters.lean
  Subject:   WHETHER EVERY QUERY IS COUNTED ONCE.

  `query` counts itself and then the outcome, by a case split of its own. CORRUPT_ONLY is not among
  the cases: `integrity_failures` is never incremented. INCOMPATIBLE_ONLY is not either, but no
  query ends so.

  * `hardReject_damaged`, `corruptOnly_iff` -- the queries that end with CORRUPT_ONLY;
  * `countedOnce_iff`, `balanced_iff` -- one query is counted exactly when it does not;
  * `localHits_exact` -- local hits are counted as reported, for every query;
  * `queries_accounted_iff` -- along runs.
-/
import CacheDirectory.Invariants.Gauges
import CacheDirectory.Queries.Specification

namespace CacheDirectory

open Library Directory

/-! ## 1. Queries that find damaged copies only -/

/-- The filters for damage are the first the record fails. -/
def Damaged (r : DirectoryRecord) : Prop :=
  r.lifecycle ≠ .invalidated ∧ r.lifecycle ≠ .tombstoned ∧ r.lifecycle ≠ .expired ∧
    (r.integrity = .corrupt ∨ r.integrity = .missing)

/-- No record the query identifies qualifies, and one of them is damaged. -/
def DamagedOnly (d : Directory) (q : DirectoryQuery) : Prop :=
  (∃ r ∈ d.records, Matching q r ∧ Damaged r) ∧ ∀ r ∈ d.records, Matching q r → ¬ Qualified q r

section Damage

variable {F : Type} [ScoreArith F] {d : Directory} {q : DirectoryQuery} {r : DirectoryRecord}
variable {res : QueryResult F}

theorem hardReject_damaged (h : Matching q r) :
    (∃ reason ∈ [RejectionReason.corrupt, .missingBytes], hardReject r q = some reason) ↔
      Damaged r := by
  have hcurrent : (q.currentOnly && !r.current) = false := by
    rw [h.1, Bool.not_true, Bool.and_false]
  unfold Damaged
  constructor
  · rintro ⟨reason, hreason, hreject⟩
    have hdamage : r.integrity = .corrupt ∨ r.integrity = .missing := by
      have hmem := mem_of_firstFailure hreject
      simp only [List.mem_cons, List.not_mem_nil, or_false] at hreason
      rcases hreason with rfl | rfl
      · exact .inl (by simpa using hmem)
      · exact .inr (by simpa using hmem)
    -- a lifecycle that is filtered first would give its own reason
    refine ⟨fun h => ?_, fun h => ?_, fun h => ?_, hdamage⟩
    all_goals
      simp [hardReject, hcurrent, h] at hreject
      subst hreject
      simp at hreason
  · rintro ⟨hinvalidated, htombstoned, hexpired, hdamage⟩
    unfold hardReject
    rcases hdamage with hcorrupt | hmissing
    · refine ⟨.corrupt, by simp, ?_⟩
      simp [hcurrent, hinvalidated, htombstoned, hexpired, hcorrupt]
    · refine ⟨.missingBytes, by simp, ?_⟩
      simp [hcurrent, hinvalidated, htombstoned, hexpired, hmissing]

/-- An answer without candidates names its outcome after the matching records. -/
theorem outcome_of_nothing (h : AnswersQuery d q res) (hnone : res.candidates = []) :
    res.outcome = .notFound ∨ res.outcome = gravest res.rejections := by
  by_cases hmatch : ∃ r ∈ d.records, Matching q r
  · exact .inr (h.otherwise hnone hmatch)
  · refine .inl (h.nothing.mpr fun r hr hm => ?_)
    exact hmatch ⟨r, hr, hm⟩

theorem gravest_cases (rejections : List Rejection) :
    gravest rejections = .corruptOnly ∨ gravest rejections = .unreachableOnly ∨
      gravest rejections = .staleOnly ∨ gravest rejections = .insufficientEvidence := by
  unfold gravest
  dsimp only
  repeat' split
  all_goals simp

/-- One with candidates names what was found. -/
theorem outcome_of_some (h : AnswersQuery d q res) {c : Candidate F} {cs : List (Candidate F)}
    (hsome : res.candidates = c :: cs) : res.outcome.isFound = true := by
  cases cs with
  | cons c' cs =>
      have hmultiple : res.outcome = .foundMultiple := h.multiple.mpr (by simp [hsome])
      rw [hmultiple]
      rfl
  | nil =>
      cases hlocal : d.isLocal q c.record with
      | true =>
          rw [h.localOnly.mpr ⟨c, hsome, hlocal⟩]
          rfl
      | false =>
          rw [h.remoteOnly.mpr ⟨c, hsome, hlocal⟩]
          rfl

theorem candidates_eq_nil_iff (h : AnswersQuery d q res) :
    res.candidates = [] ↔ ∀ r ∈ d.records, Matching q r → ¬ Qualified q r := by
  constructor
  · intro hnone r hr hm hqualified
    obtain ⟨c, hc, -⟩ := (h.qualified r hr hm).mpr hqualified
    rw [hnone] at hc
    cases hc
  · intro hnone
    refine List.eq_nil_iff_forall_not_mem.mpr fun c hc => ?_
    obtain ⟨refused, hperm, -⟩ := h.split
    have hmem : c.record ∈ d.records.filter fun r => Matching q r :=
      hperm.mem_iff.mp (List.mem_append_left _ (List.mem_map_of_mem hc))
    obtain ⟨hr, hm⟩ := List.mem_filter.mp hmem
    rw [decide_eq_true_iff] at hm
    exact hnone _ hr hm ((h.qualified _ hr hm).mp ⟨c, hc, rfl⟩)

/-- Where all are rejected, the damaged ones are rejected for their damage. -/
theorem damaged_rejected_iff (h : AnswersQuery d q res) (hnone : res.candidates = []) :
    (∃ rj ∈ res.rejections, rj.reason ∈ [RejectionReason.corrupt, .missingBytes]) ↔
      ∃ r ∈ d.records, Matching q r ∧ Damaged r := by
  obtain ⟨refused, hperm, hrejected⟩ := h.split
  rw [hnone, List.map_nil, List.nil_append] at hperm
  have hrefused (r : DirectoryRecord) : r ∈ refused ↔ r ∈ d.records ∧ Matching q r := by
    rw [hperm.mem_iff, List.mem_filter, decide_eq_true_iff]
  constructor
  · rintro ⟨rj, hrj, hreason⟩
    obtain ⟨r, hr, reason, hreject, rfl⟩ := exists_of_forall₂ hrejected hrj
    obtain ⟨hmem, hm⟩ := (hrefused r).mp hr
    exact ⟨r, hmem, hm, (hardReject_damaged hm).mp ⟨reason, hreason, hreject⟩⟩
  · rintro ⟨r, hr, hm, hdamaged⟩
    obtain ⟨rj, hrj, reason', hreject', rfl⟩ :=
      exists_of_forall₂ hrejected.flip ((hrefused r).mpr ⟨hr, hm⟩)
    obtain ⟨reason, hreason, hreject⟩ := (hardReject_damaged hm).mpr hdamaged
    rw [hreject] at hreject'
    cases hreject'
    exact ⟨_, hrj, hreason⟩

theorem gravest_corruptOnly_iff (rejections : List Rejection) :
    gravest rejections = .corruptOnly ↔
      ∃ rj ∈ rejections, rj.reason ∈ [RejectionReason.corrupt, .missingBytes] := by
  unfold gravest
  dsimp only
  split
  case isTrue hmet => exact iff_of_true rfl hmet
  case isFalse hmet =>
      refine iff_of_false ?_ hmet
      repeat' split
      all_goals decide

/-- **The queries that end with CORRUPT_ONLY.** -/
theorem corruptOnly_iff (h : AnswersQuery d q res) :
    res.outcome = .corruptOnly ↔ DamagedOnly d q := by
  unfold DamagedOnly
  rw [← candidates_eq_nil_iff h]
  constructor
  · intro hcorrupt
    have hnone : res.candidates = [] := by
      rcases hcands : res.candidates with - | ⟨c, cs⟩
      · rfl
      · have hfound := outcome_of_some h hcands
        rw [hcorrupt] at hfound
        cases hfound
    rcases outcome_of_nothing h hnone with hnothing | hgravest
    · rw [hcorrupt] at hnothing
      cases hnothing
    · rw [hcorrupt] at hgravest
      refine ⟨(damaged_rejected_iff h hnone).mp ?_, hnone⟩
      exact (gravest_corruptOnly_iff _).mp hgravest.symm
  · rintro ⟨hdamaged, hnone⟩
    have hgravest : gravest res.rejections = .corruptOnly :=
      (gravest_corruptOnly_iff _).mpr ((damaged_rejected_iff h hnone).mpr hdamaged)
    obtain ⟨r, hr, hm, -⟩ := hdamaged
    rw [h.otherwise hnone ⟨r, hr, hm⟩, hgravest]

end Damage

/-! ## 2. What a query counts -/

/-- The queries are those of all outcomes. -/
def Balanced (a : Accounting) : Prop :=
  a.queries = a.localHits + a.remoteHits + a.misses + a.staleOnlyOutcomes +
    a.unreachableOnlyOutcomes + a.integrityFailures

/-- One query more, and one more of exactly one outcome; a corrupt one is an integrity failure. -/
structure CountedOnce (a a' : Accounting) (outcome : QueryOutcome) : Prop where
  queries : a'.queries = a.queries + 1
  outcomes : ∃ i < 6, a'.outcomes = a.outcomes.modify i (· + 1)
  corrupt : outcome = .corruptOnly → a'.integrityFailures = a.integrityFailures + 1

/-- The answer reports a local copy, or selects one of several that is. -/
def FindsLocal {F : Type} (d : Directory) (q : DirectoryQuery) (res : QueryResult F) : Prop :=
  res.outcome = .foundLocal ∨ res.outcome = .foundMultiple ∧
    ∃ c ∈ res.candidates, c.selected = true ∧ d.isLocal q c.record = true

/-- Local hits grow by one for such an answer and for no other. -/
structure CountsLocal {F : Type} (d : Directory) (q : DirectoryQuery) (res : QueryResult F)
    (a' : Accounting) : Prop where
  hit : FindsLocal d q res → a'.localHits = d.accounting.localHits + 1
  other : ¬ FindsLocal d q res → a'.localHits = d.accounting.localHits

theorem balanced_iff_sum {a : Accounting} : Balanced a ↔ a.queries = a.outcomes.sum := by
  simp only [Balanced, Accounting.outcomes, List.sum_cons, List.sum_nil]
  omega

section Counts

variable {F : Type} [ScoreArith F] {d : Directory} {q : DirectoryQuery} {res : QueryResult F}

/-- **What a query adds to the counters**: itself, and one of the outcomes unless it finds damaged
    copies only. -/
theorem accountQuery_cases (h : AnswersQuery d q res) :
    (d.accountQuery q res).queries = d.accounting.queries + 1 ∧
      ((DamagedOnly d q ∧ (d.accountQuery q res).outcomes = d.accounting.outcomes) ∨
        ¬ DamagedOnly d q ∧
          ∃ i < 6, (d.accountQuery q res).outcomes = d.accounting.outcomes.modify i (· + 1)) := by
  rw [← corruptOnly_iff h]
  unfold accountQuery
  rcases hcands : res.candidates with - | ⟨c, cs⟩
  · rcases outcome_of_nothing h hcands with hout | hout
    · rw [hout]
      exact ⟨rfl, .inr ⟨by decide, 2, by omega, rfl⟩⟩
    · rw [hout]
      rcases gravest_cases res.rejections with hg | hg | hg | hg
      · rw [hg]
        exact ⟨rfl, .inl ⟨rfl, rfl⟩⟩
      · rw [hg]
        exact ⟨rfl, .inr ⟨by decide, 4, by omega, rfl⟩⟩
      · rw [hg]
        exact ⟨rfl, .inr ⟨by decide, 3, by omega, rfl⟩⟩
      · rw [hg]
        exact ⟨rfl, .inr ⟨by decide, 2, by omega, rfl⟩⟩
  · have hfound := outcome_of_some h hcands
    have hnot : res.outcome ≠ .corruptOnly := by
      intro hcorrupt
      rw [hcorrupt] at hfound
      cases hfound
    dsimp only
    split
    · exact ⟨rfl, .inr ⟨hnot, 0, by omega, rfl⟩⟩
    · exact ⟨rfl, .inr ⟨hnot, 1, by omega, rfl⟩⟩

/-- **One query is counted once exactly when it does not find damaged copies only.** -/
theorem countedOnce_iff (h : AnswersQuery d q res) :
    CountedOnce d.accounting (d.accountQuery q res) res.outcome ↔ ¬ DamagedOnly d q := by
  obtain ⟨hqueries, ⟨hdamaged, hsame⟩ | ⟨hspared, hone⟩⟩ := accountQuery_cases h
  · refine iff_of_false (fun hcounted => ?_) (not_not_intro hdamaged)
    obtain ⟨i, hi, hraised⟩ := hcounted.outcomes
    have hsum := sum_modify_add 1 (l := d.accounting.outcomes) hi
    rw [← hraised, hsame] at hsum
    omega
  · refine iff_of_true ⟨hqueries, hone, fun hcorrupt => ?_⟩ hspared
    exact absurd ((corruptOnly_iff h).mp hcorrupt) hspared

/-- **Exactly then the counters stay balanced.** -/
theorem balanced_iff (h : AnswersQuery d q res) (hd : Balanced d.accounting) :
    Balanced (d.accountQuery q res) ↔ ¬ DamagedOnly d q := by
  rw [balanced_iff_sum] at hd ⊢
  obtain ⟨hqueries, ⟨hdamaged, hsame⟩ | ⟨hspared, i, hi, hraised⟩⟩ := accountQuery_cases h
  · rw [hqueries, hsame, hd]
    exact iff_of_false (by omega) (not_not_intro hdamaged)
  · have hsum := sum_modify_add 1 (l := d.accounting.outcomes) hi
    rw [hqueries, hraised, hsum, hd]
    exact iff_of_true rfl hspared

/-- The first candidate is the selected one, and alone decides. -/
theorem findsLocal_iff (h : AnswersQuery d q res) {c : Candidate F} {cs : List (Candidate F)}
    (hcands : res.candidates = c :: cs) : FindsLocal d q res ↔ d.isLocal q c.record = true := by
  constructor
  · rintro (hone | ⟨-, c', hc', hselected, hlocal⟩)
    · obtain ⟨c', hsingle, hlocal⟩ := h.localOnly.mp hone
      rw [hcands] at hsingle
      cases hsingle
      exact hlocal
    · obtain ⟨i, hi⟩ := List.mem_iff_getElem?.mp hc'
      have hzero : i = 0 := (h.selected i c' hi).mp hselected
      rw [hzero, hcands, List.getElem?_cons_zero] at hi
      cases hi
      exact hlocal
  · intro hlocal
    cases cs with
    | nil => exact .inl (h.localOnly.mpr ⟨c, hcands, hlocal⟩)
    | cons c' cs =>
        have hselected : c.selected = true := (h.selected 0 c (by rw [hcands]; rfl)).mpr rfl
        refine .inr ⟨h.multiple.mpr (by simp [hcands]), c, ?_, hselected, hlocal⟩
        rw [hcands]
        exact List.mem_cons_self

theorem not_findsLocal (h : AnswersQuery d q res) (hnone : res.candidates = []) :
    ¬ FindsLocal d q res := by
  rintro (hone | ⟨-, c, hc, -⟩)
  · obtain ⟨c, hsingle, -⟩ := h.localOnly.mp hone
    rw [hnone] at hsingle
    cases hsingle
  · rw [hnone] at hc
    cases hc

/-- **Local hits are counted as reported.** -/
theorem localHits_exact (h : AnswersQuery d q res) :
    CountsLocal d q res (d.accountQuery q res) := by
  unfold accountQuery
  rcases hcands : res.candidates with - | ⟨c, cs⟩
  · refine ⟨fun hfinds => absurd hfinds (not_findsLocal h hcands), fun _ => ?_⟩
    dsimp only
    repeat' split
    all_goals rfl
  · dsimp only
    split
    case isTrue hlocal =>
        have hfinds : FindsLocal d q res := (findsLocal_iff h hcands).mpr hlocal
        exact ⟨fun _ => rfl, fun hnot => absurd hfinds hnot⟩
    case isFalse hremote =>
        have hnot : ¬ FindsLocal d q res := fun hfinds =>
          hremote ((findsLocal_iff h hcands).mp hfinds)
        exact ⟨fun hfinds => absurd hfinds hnot, fun _ => rfl⟩

end Counts

/-! ## 3. Runs -/

/-- The call is no query that finds damaged copies only. -/
def Operation.SparesDamaged (op : Operation) (d : Directory) : Prop :=
  match op with
  | .query _ q => ¬ DamagedOnly d q
  | _ => True

section Runs

variable {F : Type} [ScoreArith F] {d : Directory}

/-- The counters behind a query, read off the scan. -/
theorem accounting_scan (h : d.IndexFits) (order : Enumeration Nat) (q : DirectoryQuery) :
    (d.query (F := F) order q).2.accounting = d.accountQuery q (d.queryScan (F := F) q) := by
  rw [accounting_query, ← queryImpl_ensureIndexes, queryImpl_indexed h]
  rfl

/-- **One call keeps the counters balanced exactly when it is no such query.** -/
theorem sparesDamaged_iff (F : Type) [ScoreArith F] (op : Operation) (d : Directory)
    (hd : d.IndexFits ∧ Balanced d.accounting) :
    op.SparesDamaged d ↔ (op.step F d).IndexFits ∧ Balanced (op.step F d).accounting := by
  rw [and_iff_right (indexFits_step F op d hd.1)]
  cases hquery : op.isQuery with
  | false =>
      have hticked := (accounted_step F hquery d).events
      have hbalanced : Balanced (op.step F d).accounting := by
        rw [balanced_iff_sum, hticked.queries, hticked.outcomes, ← balanced_iff_sum]
        exact hd.2
      refine iff_of_true ?_ hbalanced
      cases op with
      | query order q => cases hquery
      | _ => trivial
  | true =>
      cases op with
      | query order q =>
          show ¬ DamagedOnly d q ↔ Balanced (d.query (F := F) order q).2.accounting
          rw [accounting_scan hd.1]
          exact (balanced_iff (queryScan_answers d q) hd.2).symm
      | _ => cases hquery

end Runs

/-- **Every query is counted once**, in every state of every run, and local hits are counted as
    reported, exactly along the runs without a query that finds damaged copies only. -/
theorem queries_accounted_iff (F : Type) [ScoreArith F] (ops : List Operation) :
    Follows (Operation.step F) Operation.SparesDamaged {} ops ↔
      (∀ d, Reached F ops d → Balanced d.accounting) ∧
      ∀ pre order q post, ops = pre ++ .query order q :: post →
        let d := after (Operation.step F) {} pre
        ∃ res d', d.query (F := F) order q = (.ok res, d') ∧
          CountedOnce d.accounting d'.accounting res.outcome ∧
          CountsLocal d q res d'.accounting := by
  have hvisited := follows_iff_visited (sparesDamaged_iff F) ops {} ⟨.inl rfl, rfl⟩
  constructor
  · intro h
    refine ⟨fun d hd => (hvisited.mp h d hd).2, fun pre order q post hsplit => ?_⟩
    have hspared : ¬ DamagedOnly (after (Operation.step F) {} pre) q :=
      (follows_iff_splits ops _).mp h pre _ post hsplit
    have hfits : (after (Operation.step F) {} pre).IndexFits :=
      indexFits_reached (after_mem_visited _ pre _)
    have hanswers := queryScan_answers (F := F) (after (Operation.step F) {} pre) q
    refine ⟨_, _, Prod.ext (query_answer hfits order q) rfl, ?_⟩
    rw [accounting_scan hfits]
    exact ⟨(countedOnce_iff hanswers).mpr hspared, localHits_exact hanswers⟩
  · intro h
    refine hvisited.mpr fun d hd => ?_
    exact ⟨indexFits_reached hd, h.1 d hd⟩

/-- The only copy is reported corrupt, and asked for. -/
def corruptAsked : List Operation :=
  registeredOnce ++ [.updateIntegrity ⟨1⟩ .corrupt { epoch := ⟨1⟩, boot := ⟨1⟩ } 2,
    .query (.stored _) anyCopy]

/-- **The counterexample**: the query is counted, and no outcome is. -/
theorem corrupt_query_uncounted :
    Reached Float corruptAsked (after (Operation.step Float) {} corruptAsked) ∧
      (after (Operation.step Float) {} corruptAsked).accounting.queries = 1 ∧
      (after (Operation.step Float) {} corruptAsked).accounting.outcomes = [0, 0, 0, 0, 0, 0] ∧
      ¬ Balanced (after (Operation.step Float) {} corruptAsked).accounting := by
  have hqueries : (after (Operation.step Float) {} corruptAsked).accounting.queries = 1 := by
    decide +kernel
  have houtcomes : (after (Operation.step Float) {} corruptAsked).accounting.outcomes =
      [0, 0, 0, 0, 0, 0] := by decide +kernel
  refine ⟨after_mem_visited _ _ _, hqueries, houtcomes, ?_⟩
  rw [balanced_iff_sum, hqueries, houtcomes]
  decide

end CacheDirectory
