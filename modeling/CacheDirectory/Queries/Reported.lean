/-
  File:      CacheDirectory/Queries/Reported.lean
  Subject:   WHAT AN ANSWER DOES NOT SPEAK OF.

  A record whose identity does not match, and a record that is not current, are skipped by the
  loop of the query: they are neither candidates nor rejections, whatever the query asks for.

  * `AccountsFor` -- each record of a kind appears once, as a candidate or as a rejection;
  * `accountsFor_iff` -- an answer accounts for more than the current records that match exactly
    when there is nothing more;
  * `history_seen_iff` -- a query sees the history it identifies exactly when that is current;
  * `mismatches_reported_iff` -- a query reports the current records of its state exactly when
    all of them match.
-/
import CacheDirectory.Queries.Requirements

namespace CacheDirectory

open Library Directory

/-! ## 1. Accounting for records -/

/-- Each record that satisfies `P` appears once, as a candidate or as a rejection that `R` allows
    for it. -/
def AccountsFor {F : Type} (P : DirectoryRecord → Prop) [DecidablePred P]
    (R : DirectoryRecord → Rejection → Prop) (d : Directory) (res : QueryResult F) : Prop :=
  ∃ refused, (res.candidates.map (·.record) ++ refused).Perm (d.records.filter fun r => P r) ∧
    List.Forall₂ R refused res.rejections

section Accounts

variable {F : Type} {d : Directory} {q : DirectoryQuery} {res : QueryResult F}
variable {P : DirectoryRecord → Prop} [DecidablePred P] {R : DirectoryRecord → Rejection → Prop}

/-- As many records as the answer has entries. -/
theorem AccountsFor.length_eq (h : AccountsFor P R d res) :
    res.candidates.length + res.rejections.length = (d.records.filter fun r => P r).length := by
  obtain ⟨refused, hperm, hrejected⟩ := h
  rw [← hperm.length_eq, List.length_append, List.length_map, hrejected.length_eq]

/-- **An answer accounts for the records of a wider kind exactly when every one of them is
    current and matches.** -/
theorem accountsFor_iff [ScoreArith F] (hanswers : AnswersQuery d q res)
    (hwider : ∀ r, Matching q r → P r) (hallows : ∀ r rj, RejectedFor q r rj → R r rj) :
    AccountsFor P R d res ↔ ∀ r ∈ d.records, P r → Matching q r := by
  have hsplit : AccountsFor (Matching q) (RejectedFor q) d res := hanswers.split
  have hfilter : (d.records.filter fun r => Matching q r) =
      (d.records.filter fun r => P r).filter fun r => Matching q r := by
    rw [List.filter_filter]
    refine List.filter_congr fun r _ => ?_
    by_cases hm : Matching q r
    · simp [hm, hwider r hm]
    · simp [hm]
  constructor
  · intro h r hr hp
    have hlength : ((d.records.filter fun r => P r).filter fun r => Matching q r).length =
        (d.records.filter fun r => P r).length := by
      rw [← hfilter, ← hsplit.length_eq, h.length_eq]
    have hall := List.length_filter_eq_length_iff.mp hlength r
      (List.mem_filter.mpr ⟨hr, decide_eq_true hp⟩)
    exact decide_eq_true_iff.mp hall
  · intro h
    have hsame : (d.records.filter fun r => P r) = d.records.filter fun r => Matching q r := by
      refine (hfilter.trans (List.filter_eq_self.mpr fun r hr => ?_)).symm
      have hmem := List.mem_filter.mp hr
      exact decide_eq_true (h r hmem.1 (decide_eq_true_iff.mp hmem.2))
    obtain ⟨refused, hperm, hrejected⟩ := hsplit
    refine ⟨refused, ?_, hrejected.imp hallows⟩
    rw [hsame]
    exact hperm

end Accounts

/-! ## 2. History -/

instance (q : DirectoryQuery) (r : DirectoryRecord) : Decidable (Identified q r) :=
  decidable_of_iff _ identifyMatches_iff

/-- Rejected by a hard filter, or for not being current. -/
def RejectedAsHistory (q : DirectoryQuery) (r : DirectoryRecord) (rj : Rejection) : Prop :=
  RejectedFor q r rj ∨ r.current = false ∧ rj = rejectionOf r .notCurrent

/-- Every record the query identifies, current or not, is in the answer. -/
def SeesHistory {F : Type} (d : Directory) (q : DirectoryQuery) (res : QueryResult F) : Prop :=
  AccountsFor (Identified q) (RejectedAsHistory q) d res

/-- **A query sees the history of what it identifies exactly when none of it is past**: in every
    state of every run, for every query, whether or not it asks for current records only. -/
theorem history_seen_iff (F : Type) [ScoreArith F] (ops : List Operation) (d : Directory)
    (order : Enumeration Nat) (q : DirectoryQuery) (hd : Reached F ops d) :
    ∃ res, (d.query (F := F) order q).1 = .ok res ∧
      (SeesHistory d q res ↔ ∀ r ∈ d.records, Identified q r → r.current = true) := by
  refine ⟨_, query_answer (indexFits_reached hd) order q, ?_⟩
  refine (accountsFor_iff (queryScan_answers d q) (fun r hm => hm.2) fun r rj => .inl).trans ?_
  exact forall₂_congr fun r _ =>
    ⟨fun h hid => (h hid).1, fun h hid => ⟨h hid, hid⟩⟩

/-- The copy published again at generation 2, its first record past. -/
def published : List Operation :=
  registeredOnce ++ [.registerEntry (copyRecord ⟨2⟩ ⟨2⟩) fun _ => 2]

def afterPublication : Directory := after (Operation.step Float) {} published

/-- Any copy of state 1, past ones included. -/
def anyPast : DirectoryQuery := { anyCopy with currentOnly := false }

/-- **The counterexample**: of two records of the state the answer to a historical query has one,
    and no rejection. -/
theorem past_record_dropped :
    Reached Float published afterPublication ∧
      (afterPublication.records.filter fun r => Identified anyPast r).length = 2 ∧
      ∃ res, (afterPublication.query (F := Float) (.stored _) anyPast).1 = .ok res ∧
        res.candidates.length = 1 ∧ res.rejections = [] ∧
        ¬ SeesHistory afterPublication anyPast res := by
  have hreached : Reached Float published afterPublication := after_mem_visited _ _ _
  have htwo : (afterPublication.records.filter fun r => Identified anyPast r).length = 2 := by
    decide +kernel
  have hone : (afterPublication.queryScan (F := Float) anyPast).candidates.length = 1 := by
    rw [length_queryScan]
    decide +kernel
  have hnone : (afterPublication.queryScan (F := Float) anyPast).rejections = [] := by
    rw [rejections_queryScan]
    decide +kernel
  refine ⟨hreached, htwo, _, query_answer (indexFits_reached hreached) _ _, hone, hnone,
    fun h => ?_⟩
  have hlength := h.length_eq
  rw [hone, hnone, htwo] at hlength
  exact absurd hlength (by decide)

theorem history_seen_afterRegistration :
    ∃ res, (afterRegistration.query (F := Float) (.stored _) anyPast).1 = .ok res ∧
      SeesHistory afterRegistration anyPast res := by
  obtain ⟨res, hres, hiff⟩ := history_seen_iff Float registeredOnce afterRegistration (.stored _)
    anyPast (after_mem_visited _ _ _)
  exact ⟨res, hres, hiff.mpr (by decide +kernel)⟩

/-! ## 3. Mismatches -/

/-- The requirement of the query that the reason names is one the record fails. -/
def Names (q : DirectoryQuery) (r : DirectoryRecord) : RejectionReason → Prop
  | .wrongStateGeneration =>
      q.exactStateGeneration = true ∧ r.stateGeneration ≠ q.stateGeneration
  | .wrongContentDigest => q.requireContentDigest = true ∧
      ¬ (r.contentDigestKnown = true ∧ r.contentDigest = q.contentDigest)
  | .incompatible => q.requireCompatibility = true ∧ r.compatibility ≠ q.compatibility
  | reason => hardReject r q = some reason

/-- The record fails the query for its compatibility and for nothing else. -/
structure OnlyIncompatible (q : DirectoryQuery) (r : DirectoryRecord) : Prop where
  required : q.requireCompatibility = true
  incompatible : r.compatibility ≠ q.compatibility
  identified : Identified { q with requireCompatibility := false } r
  qualified : Qualified q r

/-- A current record of the state the query asks for. -/
def OfState (q : DirectoryQuery) (r : DirectoryRecord) : Prop :=
  r.current = true ∧ r.stateId = q.state

instance (q : DirectoryQuery) (r : DirectoryRecord) : Decidable (OfState q r) :=
  inferInstanceAs (Decidable (_ ∧ _))

/-- Every current record of the state is a candidate or rejected for what it fails; the outcome is
    not that nothing was found, and is that all are incompatible where that is all they fail. -/
structure Reported {F : Type} (d : Directory) (q : DirectoryQuery) (res : QueryResult F) :
    Prop where
  accounted : AccountsFor (OfState q)
    (fun r rj => ∃ reason, Names q r reason ∧ rj = rejectionOf r reason) d res
  found : res.outcome ≠ .notFound
  incompatible : (∀ r ∈ d.records, OfState q r → OnlyIncompatible q r) →
    res.outcome = .incompatibleOnly

/-- The reason of a hard filter names what the record fails. -/
theorem names_of_hardReject {q : DirectoryQuery} {r : DirectoryRecord} {reason : RejectionReason}
    (h : hardReject r q = some reason) : Names q r reason := by
  have hmem := mem_of_firstFailure h
  simp only [List.mem_cons, Prod.mk.injEq, List.not_mem_nil, or_false] at hmem
  rcases hmem with hw | hw | hw | hw | hw | hw | hw | hw | hw | hw | hw | hw | hw | hw
  all_goals
    rw [hw.2] at h ⊢
    exact h

/-- **The mismatches of a state are reported exactly when there are none**: in every state of every
    run, for every query for a state that has a current record. -/
theorem mismatches_reported_iff (F : Type) [ScoreArith F] (ops : List Operation) (d : Directory)
    (order : Enumeration Nat) (q : DirectoryQuery) (hd : Reached F ops d)
    (hexact : q.exactState = true) (hcurrent : ∃ r ∈ d.records, OfState q r) :
    ∃ res, (d.query (F := F) order q).1 = .ok res ∧
      (Reported d q res ↔ ∀ r ∈ d.records, OfState q r → Identified q r) := by
  have hanswers := queryScan_answers (F := F) d q
  refine ⟨_, query_answer (indexFits_reached hd) order q, ?_⟩
  have haccounts := accountsFor_iff (P := OfState q)
    (R := fun r rj => ∃ reason, Names q r reason ∧ rj = rejectionOf r reason) hanswers
    (fun r hm => ⟨hm.1, hm.2.state hexact⟩)
    fun r rj ⟨reason, hreason, hrj⟩ => ⟨reason, names_of_hardReject hreason, hrj⟩
  constructor
  · intro h r hr hstate
    exact (haccounts.mp h.accounted r hr hstate).2
  · intro h
    obtain ⟨r, hr, hstate⟩ := hcurrent
    have hid := h r hr hstate
    refine ⟨haccounts.mpr fun r hr hstate => ⟨hstate.1, h r hr hstate⟩, fun hnone => ?_,
      fun hall => ?_⟩
    · exact hanswers.nothing.mp hnone r hr ⟨hstate.1, hid⟩
    · have honly := hall r hr hstate
      exact absurd (hid.compatibility honly.required) honly.incompatible

/-- Any copy of state 1 that is compatible with 9. -/
def compatibleCopy : DirectoryQuery :=
  { anyCopy with requireCompatibility := true, compatibility := ⟨9⟩ }

/-- **The counterexample**: the only record of the state is incompatible and nothing else; nothing
    is rejected, and the outcome is NOT_FOUND. -/
theorem incompatible_not_found :
    Reached Float registeredOnce afterRegistration ∧
      (∃ r ∈ afterRegistration.records, OfState compatibleCopy r) ∧
      (∀ r ∈ afterRegistration.records, OfState compatibleCopy r →
        OnlyIncompatible compatibleCopy r) ∧
      ∃ res, (afterRegistration.query (F := Float) (.stored _) compatibleCopy).1 = .ok res ∧
        res.candidates = [] ∧ res.rejections = [] ∧ res.outcome = .notFound ∧
        ¬ Reported afterRegistration compatibleCopy res := by
  have hreached : Reached Float registeredOnce afterRegistration := after_mem_visited _ _ _
  have hnone : ∀ r ∈ afterRegistration.records, ¬ Matching compatibleCopy r := by decide +kernel
  have hout : (afterRegistration.queryScan (F := Float) compatibleCopy).outcome = .notFound :=
    (queryScan_answers afterRegistration compatibleCopy).nothing.mpr hnone
  refine ⟨hreached, by decide +kernel, fun r hr _ => ?_, _,
    query_answer (indexFits_reached hreached) _ _, ?_, ?_, hout, fun h => h.found hout⟩
  · have honly : ∀ r ∈ afterRegistration.records, r.compatibility ≠ compatibleCopy.compatibility ∧
        Eligible { compatibleCopy with requireCompatibility := false } r := by decide +kernel
    obtain ⟨hcompat, helig⟩ := honly r hr
    obtain ⟨hm, hq⟩ := eligible_iff_qualified.mp helig
    exact ⟨rfl, hcompat, hm.2, ⟨hq.1, hq.2, hq.3, hq.4, hq.5, hq.6, hq.7, hq.8, hq.9, hq.10⟩⟩
  · refine List.length_eq_zero_iff.mp ?_
    rw [length_queryScan]
    decide +kernel
  · rw [rejections_queryScan]
    decide +kernel

theorem mismatches_reported_afterRegistration :
    ∃ res, (afterRegistration.query (F := Float) (.stored _) anyCopy).1 = .ok res ∧
      Reported afterRegistration anyCopy res := by
  obtain ⟨res, hres, hiff⟩ := mismatches_reported_iff Float registeredOnce afterRegistration
    (.stored _) anyCopy (after_mem_visited _ _ _) rfl (by decide +kernel)
  exact ⟨res, hres, hiff.mpr (by decide +kernel)⟩

end CacheDirectory
