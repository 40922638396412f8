/-
  File:      CacheDirectory/Recovery/Eligibility.lean
  Subject:   WHAT LOSS AND RECOVERY MAKE ELIGIBLE.

  Loss and recovery overwrite lifecycle, freshness and reachability, whatever they were. In a
  process-local domain the new values are STALE and REVALIDATION_REQUIRED, which the hard filters
  let through; elsewhere they are values the filters refuse.

  * `eligible_iff` -- the filters, split into what is overwritten and what is not;
  * `mem_candidates`, `returned_iff` -- the answer of a query;
  * `eligible_loseRecord`, `eligible_recoverRecord`, `eligible_restoredRecord` -- one record;
  * `nothing_gained_iff` -- no copy becomes eligible exactly when no copy is revived: one that
    was kept out by the overwritten evidence alone.
-/
import CacheDirectory.Invariants.Edits
import CacheDirectory.Invariants.Indexes
import CacheDirectory.Recovery.Fidelity

namespace CacheDirectory

open Library Directory

/-! ## 1. One record -/

/-- The query considers the record and no hard filter refuses it. -/
def Eligible (q : DirectoryQuery) (r : DirectoryRecord) : Prop :=
  considered q r = true ∧ hardReject r q = none

instance (q : DirectoryQuery) (r : DirectoryRecord) : Decidable (Eligible q r) :=
  inferInstanceAs (Decidable (_ ∧ _))

/-- The record passes the filters on what loss and recovery leave alone. -/
structure Untouched (q : DirectoryQuery) (r : DirectoryRecord) : Prop where
  considered : considered q r = true
  notCorrupt : r.integrity ≠ .corrupt
  notMissing : r.integrity ≠ .missing
  integrity : q.hasIntegrity = true → ri q.integrity ≤ ri r.integrity
  health : q.hasHealth = true → rh q.health ≤ rh r.health
  domain : q.allowedDomains.isEmpty = true ∨ q.allowedDomains.contains r.domain = true
  lease : ¬ (r.hasLease = true ∧ r.lease.state = .expired)

/-- The record passes the filters on what they overwrite. -/
structure Standing (q : DirectoryQuery) (r : DirectoryRecord) : Prop where
  notInvalidated : r.lifecycle ≠ .invalidated
  notTombstoned : r.lifecycle ≠ .tombstoned
  notExpired : r.lifecycle ≠ .expired
  reachable : r.reachability ≠ .unreachable
  fresh : r.freshness ≠ .stale
  freshness : q.hasFreshness = true → rf q.freshness ≤ rf r.freshness
  reachability : q.hasReachability = true → rr q.reachability ≤ rr r.reachability

/-- The query asks for nothing better than REVALIDATION_REQUIRED. -/
structure DirectoryQuery.Undemanding (q : DirectoryQuery) : Prop where
  freshness : q.hasFreshness = true → rf q.freshness ≤ rf .revalidationRequired
  reachability : q.hasReachability = true → rr q.reachability ≤ rr .revalidationRequired

section Record

variable {q : DirectoryQuery} {r : DirectoryRecord}

/-- **The filters, split.** -/
theorem eligible_iff : Eligible q r ↔ Untouched q r ∧ Standing q r := by
  unfold Eligible hardReject
  rw [firstFailure_eq_none]
  simp only [List.forall_mem_cons, List.not_mem_nil, false_imp_iff, implies_true, and_true,
    Bool.and_eq_false_imp, beq_eq_false_iff_ne, decide_eq_false_iff_not, Nat.not_lt,
    Bool.not_eq_false', Bool.not_eq_true', ne_eq]
  constructor
  · rintro ⟨hconsidered, _, hinv, htomb, hexp, hcor, hmis, hint, hfre, hhea, hrea, hdom, hunr,
      hsta, hlea⟩
    refine ⟨⟨hconsidered, hcor, hmis, hint, hhea, ?_, fun h => hlea h.1 h.2⟩,
      ⟨hinv, htomb, hexp, hunr, hsta, hfre, hrea⟩⟩
    by_cases hempty : q.allowedDomains.isEmpty = true
    · exact .inl hempty
    · exact .inr (hdom (by simpa using hempty))
  · intro h
    obtain ⟨hu, hs⟩ := h
    refine ⟨hu.considered, fun hcurrent => ?_, hs.notInvalidated, hs.notTombstoned, hs.notExpired,
      hu.notCorrupt, hu.notMissing, hu.integrity, hs.freshness, hu.health, hs.reachability,
      fun hsome => ?_, hs.reachable, hs.fresh, fun hlease hstate => hu.lease ⟨hlease, hstate⟩⟩
    · have hcons := hu.considered
      unfold Directory.considered at hcons
      simp only [Bool.and_eq_true] at hcons
      exact hcons.2
    · rcases hu.domain with hempty | hmem
      · rw [hempty] at hsome
        cases hsome
      · exact hmem

/-- The new values pass the filters under an undemanding query. -/
theorem standing_devalued {r : DirectoryRecord}
    (hlife : r.lifecycle = .stale ∨ r.lifecycle = .failed)
    (hfresh : r.freshness = .revalidationRequired)
    (hreach : r.reachability = .revalidationRequired) : Standing q r ↔ q.Undemanding := by
  constructor
  · intro hs
    refine ⟨fun h => ?_, fun h => ?_⟩
    · rw [← hfresh]
      exact hs.freshness h
    · rw [← hreach]
      exact hs.reachability h
  · intro hq
    refine ⟨?_, ?_, ?_, ?_, ?_, fun h => ?_, fun h => ?_⟩
    · rcases hlife with h | h <;> simp [h]
    · rcases hlife with h | h <;> simp [h]
    · rcases hlife with h | h <;> simp [h]
    · simp [hreach]
    · simp [hfresh]
    · rw [hfresh]
      exact hq.freshness h
    · rw [hreach]
      exact hq.reachability h

/-- **A lost copy is eligible exactly when it is process-local, passes what loss leaves alone, and
    the query is undemanding**: what was known of it before does not count. -/
theorem eligible_loseRecord :
    Eligible q (loseRecord r) ↔
      isProcessLocal r.domain = true ∧ Untouched q r ∧ q.Undemanding := by
  rw [eligible_iff]
  by_cases hlocal : isProcessLocal r.domain = true
  · rw [and_iff_right hlocal]
    unfold loseRecord
    rw [if_pos hlocal]
    refine and_congr ?_ (standing_devalued (.inl rfl) rfl rfl)
    exact ⟨fun h => ⟨h.1, h.2, h.3, h.4, h.5, h.6, h.7⟩,
      fun h => ⟨h.1, h.2, h.3, h.4, h.5, h.6, h.7⟩⟩
  · refine iff_of_false (fun h => ?_) fun h => hlocal h.1
    have hreach := h.2.reachable
    unfold loseRecord at hreach
    rw [if_neg hlocal] at hreach
    exact hreach rfl

theorem considered_loseRecord : considered q (loseRecord r) = considered q r := by
  unfold loseRecord
  split
  · rfl
  · rfl

/-- Recovery leaves the identity of a record alone, and whether it is current. -/
theorem considered_restoredRecord : considered q (restoredRecord r) = considered q r := by
  unfold considered identifyMatches restoredRecord
  cases r.contentDigestKnown with
  | false => simp
  | true => simp

/-- **The same for a recovered copy.** -/
theorem eligible_recoverRecord :
    Eligible q (recoverRecord r) ↔
      isProcessLocal r.domain = true ∧ Untouched q r ∧ q.Undemanding := by
  rw [eligible_iff]
  by_cases hlocal : isProcessLocal r.domain = true
  · rw [and_iff_right hlocal]
    have hlife : (recoverRecord r).lifecycle = .stale ∨ (recoverRecord r).lifecycle = .failed := by
      by_cases hcorrupt : (r.integrity == .corrupt) = true
      · exact .inr (if_pos hcorrupt)
      · exact .inl (if_neg hcorrupt)
    have hfresh : (recoverRecord r).freshness = .revalidationRequired := if_pos hlocal
    refine and_congr ?_ (standing_devalued hlife hfresh rfl)
    exact ⟨fun h => ⟨h.1, h.2, h.3, h.4, h.5, h.6, h.7⟩,
      fun h => ⟨h.1, h.2, h.3, h.4, h.5, h.6, h.7⟩⟩
  · refine iff_of_false (fun h => ?_) fun h => hlocal h.1
    exact h.2.fresh (if_neg hlocal)

/-- Writing and reading a record leaves what the other filters see. -/
theorem untouched_asRead : Untouched q (recordAsRead {} r) ↔ Untouched q r := by
  have hcons : considered q (recordAsRead {} r) = considered q r :=
    (congrArg (considered q) (recoverRecord_asRead r)).trans considered_restoredRecord
  have hlease : (recordAsRead {} r).hasLease = true ∧ (recordAsRead {} r).lease.state = .expired ↔
      r.hasLease = true ∧ r.lease.state = .expired := by
    rw [show (recordAsRead {} r).hasLease = r.hasLease from Bool.or_false _]
    refine and_congr_right fun hhas => ?_
    rw [show (recordAsRead {} r).lease = r.lease from if_pos hhas]
  constructor
  · intro h
    exact ⟨hcons.symm.trans h.1, h.2, h.3, h.4, h.5, h.6, fun hexp => h.7 (hlease.mpr hexp)⟩
  · intro h
    exact ⟨hcons.trans h.1, h.2, h.3, h.4, h.5, h.6, fun hexp => h.7 (hlease.mp hexp)⟩

theorem eligible_restoredRecord :
    Eligible q (restoredRecord r) ↔
      isProcessLocal r.domain = true ∧ Untouched q r ∧ q.Undemanding := by
  rw [← recoverRecord_asRead, eligible_recoverRecord, untouched_asRead]
  rfl

end Record

/-! ## 2. The answer of a query, by positions -/

/-- The record at the position is among the candidates `query` returns. -/
def Returned (F : Type) [ScoreArith F] (order : Enumeration Nat) (q : DirectoryQuery)
    (d : Directory) (i : Nat) : Prop :=
  ∃ res, (d.query (F := F) order q).1 = .ok res ∧
    ∃ c ∈ res.candidates, d.records[i]? = some c.record

/-- The loop of the query refuses the record at the position, for the reason. -/
def RejectedAt (q : DirectoryQuery) (d : Directory) (i : Nat) (reason : RejectionReason) : Prop :=
  ∃ r, d.records[i]? = some r ∧ considered q r = true ∧ hardReject r q = some reason

section Answer

variable {F : Type} [ScoreArith F] {d : Directory} {q : DirectoryQuery}

/-- The candidates of a scan are the eligible records. -/
theorem candidates_perm (d : Directory) (q : DirectoryQuery) :
    ((d.queryImpl (F := F) q (List.range d.records.length)).candidates.map (·.record)).Perm
      ((d.records.filter (considered q)).filter fun r => (hardReject r q).isNone) := by
  have hscan : (unique ((List.range d.records.length).mergeSort (· ≤ ·))).filterMap
      (fun i => d.records[i]?) = d.records := scanned_all d.records
  unfold queryImpl
  simp only [hscan]
  generalize ((d.records.filter (considered q)).filter fun r => (hardReject r q).isNone) = eligible
  have hperm : (((eligible.map (d.candidateOf (F := F) q)).mergeSort
      fun a b => !candidateLess b a).map (·.record)).Perm eligible := by
    have hrecords : (eligible.map (d.candidateOf (F := F) q)).map (·.record) = eligible := by
      rw [List.map_map]
      exact List.map_id eligible
    exact ((List.mergeSort_perm _ _).map _).trans (.of_eq hrecords)
  cases hranked : (eligible.map (d.candidateOf (F := F) q)).mergeSort
      fun a b => !candidateLess b a with
  | nil =>
      rw [hranked] at hperm
      exact hperm
  | cons c cs =>
      rw [hranked] at hperm
      exact hperm

/-- The rejections of a scan. -/
theorem rejections_eq (d : Directory) (q : DirectoryQuery) :
    (d.queryImpl (F := F) q (List.range d.records.length)).rejections =
      (d.records.filter (considered q)).filterMap
        fun r => (hardReject r q).map (rejectionOf r) := by
  have hscan : (unique ((List.range d.records.length).mergeSort (· ≤ ·))).filterMap
      (fun i => d.records[i]?) = d.records := scanned_all d.records
  unfold queryImpl
  simp only [hscan]
  split
  · rfl
  · rfl

/-- A candidate is its record, scored. -/
theorem candidate_scored (d : Directory) (q : DirectoryQuery) (idx : List Nat) {c : Candidate F}
    (hc : c ∈ (d.queryImpl q idx).candidates) :
    ∃ b, c = { d.candidateOf q c.record with selected := b } := by
  unfold queryImpl at hc
  dsimp only at hc
  split at hc
  · cases hc
  · next best rest hranked =>
      have hall : ∀ x ∈ best :: rest, x = d.candidateOf q x.record := by
        intro x hx
        rw [← hranked, List.mem_mergeSort, List.mem_map] at hx
        obtain ⟨r, _, rfl⟩ := hx
        rfl
      rw [List.forall_mem_cons] at hall
      rcases List.mem_cons.mp hc with rfl | hmem
      · exact ⟨true, congrArg (fun x : Candidate F => { x with selected := true }) hall.1⟩
      · refine ⟨false, ?_⟩
        rw [hall.2 c hmem]
        rfl

/-- A query answers with the scan. -/
theorem query_answer (h : d.IndexFits) (order : Enumeration Nat) (q : DirectoryQuery) :
    (d.query (F := F) order q).1 = .ok (d.queryScan q) := by
  show Except.ok _ = _
  rw [queryImpl_indexed h order q]
  rfl

/-- **The candidates of a query are the eligible records.** -/
theorem mem_candidates (h : d.IndexFits) {order : Enumeration Nat} {res : QueryResult F}
    (hres : (d.query (F := F) order q).1 = .ok res) (r : DirectoryRecord) :
    (∃ c ∈ res.candidates, c.record = r) ↔ r ∈ d.records ∧ Eligible q r := by
  rw [query_answer h] at hres
  cases hres
  rw [← List.mem_map, show (d.queryScan (F := F) q).candidates =
    (d.queryImpl (F := F) q (List.range d.records.length)).candidates from rfl,
    (candidates_perm d q).mem_iff, List.mem_filter, List.mem_filter, Option.isNone_iff_eq_none,
    and_assoc]
  rfl

/-- The same by positions. -/
theorem returned_iff (h : d.IndexFits) (order : Enumeration Nat) (i : Nat) :
    Returned F order q d i ↔ ∃ r, d.records[i]? = some r ∧ Eligible q r := by
  constructor
  · intro h
    obtain ⟨res, hres, c, hc, hi⟩ := h
    exact ⟨c.record, hi, ((mem_candidates h hres c.record).mp ⟨c, hc, rfl⟩).2⟩
  · intro h
    obtain ⟨r, hi, heligible⟩ := h
    have hres := query_answer (F := F) h order q
    obtain ⟨c, hc, rfl⟩ := (mem_candidates h hres r).mpr ⟨List.mem_of_getElem? hi, heligible⟩
    exact ⟨_, hres, c, hc, hi⟩

end Answer

/-! ## 3. What is gained -/

/-- No record is a candidate behind the step that was none before it, and one that was refused as
    UNREACHABLE or STALE_RECORD still is refused. -/
structure NothingGained (F : Type) [ScoreArith F] (q : DirectoryQuery) (d d' : Directory) :
    Prop where
  candidates : ∀ order order' i, Returned F order' q d' i → Returned F order q d i
  rejected : ∀ i reason, reason = .unreachable ∨ reason = .staleRecord →
    RejectedAt q d i reason → ∃ reason', RejectedAt q d' i reason'

/-- A step that edits the records one by one and leaves their identity gains nothing exactly when
    no edit makes an ineligible record eligible. -/
theorem nothingGained_map {F : Type} [ScoreArith F] {q : DirectoryQuery} {d d' : Directory}
    (hd : d.IndexFits) (hd' : d'.IndexFits) {f : DirectoryRecord → DirectoryRecord}
    (hrecords : d'.records = d.records.map f)
    (hcons : ∀ r, considered q (f r) = considered q r) :
    NothingGained F q d d' ↔ ∀ r ∈ d.records, Eligible q (f r) → Eligible q r := by
  have hat (i : Nat) : d'.records[i]? = d.records[i]?.map f := by
    rw [hrecords, List.getElem?_map]
  constructor
  · intro h r hr heligible
    obtain ⟨i, hi⟩ := List.mem_iff_getElem?.mp hr
    have hbehind : Returned F (.stored _) q d' i := by
      refine (returned_iff hd' _ _).mpr ⟨f r, ?_, heligible⟩
      rw [hat, hi]
      rfl
    obtain ⟨r', hi', hbefore⟩ := (returned_iff hd _ _).mp (h.candidates (.stored _) _ i hbehind)
    rw [hi] at hi'
    cases hi'
    exact hbefore
  · intro h
    refine ⟨fun order order' i hbehind => ?_, fun i reason hwhy hrej => ?_⟩
    · obtain ⟨r', hi', heligible⟩ := (returned_iff hd' _ _).mp hbehind
      rw [hat] at hi'
      obtain ⟨r, hi, rfl⟩ := Option.map_eq_some_iff.mp hi'
      exact (returned_iff hd _ _).mpr ⟨r, hi, h r (List.mem_of_getElem? hi) heligible⟩
    · obtain ⟨r, hi, hconsidered, hreason⟩ := hrej
      have hno : ¬ Eligible q (f r) := by
        intro heligible
        have hbefore := h r (List.mem_of_getElem? hi) heligible
        rw [hbefore.2] at hreason
        cases hreason
      cases hreject : hardReject (f r) q with
      | none => exact absurd ⟨(hcons r).trans hconsidered, hreject⟩ hno
      | some reason' =>
          refine ⟨reason', f r, ?_, (hcons r).trans hconsidered, hreject⟩
          rw [hat, hi]
          rfl

/-- The record is not one that only its old evidence keeps out: in a process-local domain, when it
    passes the other filters and the query is undemanding, it stands already. -/
def NotRevived (q : DirectoryQuery) (r : DirectoryRecord) : Prop :=
  isProcessLocal r.domain = true → Untouched q r → q.Undemanding → Standing q r

theorem notRevived_iff {q : DirectoryQuery} {r : DirectoryRecord} :
    NotRevived q r ↔
      (isProcessLocal r.domain = true ∧ Untouched q r ∧ q.Undemanding → Eligible q r) := by
  rw [eligible_iff]
  constructor
  · rintro h ⟨hlocal, hu, hq⟩
    exact ⟨hu, h hlocal hu hq⟩
  · intro h hlocal hu hq
    exact (h ⟨hlocal, hu, hq⟩).2

/-- **Loss and recovery gain nothing exactly when no record is revived**: the records of the lost
    boot for the one, all records for the other. In every state of every run, for every query;
    the recovered process may be any. -/
theorem nothing_gained_iff (F : Type) [ScoreArith F] (ops : List Operation) (d : Directory)
    (hd : Reached F ops d) (q : DirectoryQuery) :
    (∀ b reason, NothingGained F q d (d.onWorkerLoss b reason).2 ↔
        ∀ r ∈ d.records, d.workerLive b = true → r.workerBoot = b → NotRevived q r) ∧
      ∀ (o : MapOrders) (t t' : Directory) (ack : AckResult), d.SizesFit →
        t.recoverFromBuffer (d.saveToBuffer o).2 = some (.ok ack, t') →
        (NothingGained F q d t' ↔ ∀ r ∈ d.records, NotRevived q r) := by
  have hfits := indexFits_reached hd
  constructor
  · intro b reason
    have hcons (r : DirectoryRecord) : considered q (lose d b r) = considered q r := by
      unfold lose
      split
      · exact considered_loseRecord
      · rfl
    rw [nothingGained_map hfits (indexFits_of_kept hfits (recordsKept_onWorkerLoss b reason d))
      (records_onWorkerLoss d b reason) hcons]
    refine forall₂_congr fun r _ => ?_
    by_cases hhit : d.workerLive b = true ∧ r.workerBoot = b
    · rw [lose_of_hit hhit.1 hhit.2, eligible_loseRecord, ← notRevived_iff]
      exact ⟨fun h _ _ => h, fun h => h hhit.1 hhit.2⟩
    · rw [show lose d b r = r from if_neg (by simpa using hhit)]
      exact iff_of_true id fun hlive hboot => absurd ⟨hlive, hboot⟩ hhit
  · intro o t t' ack hsizes hrec
    have hrecords := (snapshot_fidelity d t t' o ack hsizes hrec).1
    have hfits' : t'.IndexFits := by
      rw [(restartable_of_recovered hsizes hrec).2]
      exact .inl rfl
    rw [nothingGained_map hfits hfits' hrecords fun r => considered_restoredRecord]
    simp only [eligible_restoredRecord, notRevived_iff]

/-! ## 4. An unreachable copy -/

/-- One copy in host memory, reported UNREACHABLE by its owner. -/
def hiddenRun : List Operation :=
  [.registerWorkerSession attachedSession, .registerCache (attachedCache ⟨1⟩ ⟨1⟩),
    .registerLocation { attachedLocation ⟨1⟩ ⟨1⟩ with domain := .hostMemory },
    .registerReplica (attachedReplica ⟨1⟩ ⟨1⟩ ⟨1⟩ ⟨1⟩),
    .registerEntry { copyRecord ⟨1⟩ ⟨1⟩ with domain := .hostMemory } fun _ => 1,
    .updateReachability ⟨1⟩ .unreachable { epoch := ⟨1⟩, boot := ⟨1⟩ } 2]

def hidden : Directory := after (Operation.step Float) {} hiddenRun

/-- Any copy of state 1. -/
def anyCopy : DirectoryQuery := { exactState := true, state := ⟨1⟩ }

theorem restartable_hidden : hidden.Restartable := by decide +kernel

/-- **The counterexample**: a copy refused as UNREACHABLE is a candidate once its worker is lost,
    and once its directory has recovered its own snapshot. -/
theorem unreachable_copy_returns :
    Reached Float hiddenRun hidden ∧ RejectedAt anyCopy hidden 0 .unreachable ∧
      Returned Float (.stored _) anyCopy (hidden.onWorkerLoss ⟨1⟩ []).2 0 ∧
      ∃ ack t', hidden.recoverFromBuffer (hidden.saveToBuffer .stored).2 = some (.ok ack, t') ∧
        Returned Float (.stored _) anyCopy t' 0 := by
  have hreached : Reached Float hiddenRun hidden := after_mem_visited _ _ _
  have hfits := indexFits_reached hreached
  obtain ⟨r, hr⟩ := Option.isSome_iff_exists.mp
    (show hidden.records[0]?.isSome = true by decide +kernel)
  have hall : ∀ r ∈ hidden.records, (considered anyCopy r = true ∧
      hardReject r anyCopy = some .unreachable) ∧ r.workerBoot = ⟨1⟩ ∧
        Eligible anyCopy (loseRecord r) ∧ Eligible anyCopy (restoredRecord r) := by
    decide +kernel
  obtain ⟨⟨hcons, hreject⟩, hboot, hlost, hrestored⟩ := hall r (List.mem_of_getElem? hr)
  refine ⟨hreached, ⟨r, hr, hcons, hreject⟩, ?_, ?_⟩
  · refine (returned_iff (indexFits_of_kept hfits (recordsKept_onWorkerLoss ⟨1⟩ [] hidden))
      _ _).mpr ⟨loseRecord r, ?_, hlost⟩
    rw [records_onWorkerLoss, List.getElem?_map, hr, Option.map_some,
      lose_of_hit (by decide +kernel) hboot]
  · have hres := restartable_hidden
    have hsizes := sizesFit_of_limits hres.counts hres.strings
    obtain ⟨ack, hrec⟩ := recover_saved (o := .stored) hres hidden
    refine ⟨ack, _, hrec, (returned_iff (.inl rfl) _ _).mpr ⟨restoredRecord r, ?_, hrestored⟩⟩
    rw [(snapshot_fidelity hidden hidden _ .stored ack hsizes hrec).1, List.getElem?_map, hr]
    rfl

theorem nothing_gained_hidden :
    (NothingGained Float anyCopy hidden (hidden.onWorkerLoss ⟨1⟩ []).2 ↔
        ∀ r ∈ hidden.records, hidden.workerLive ⟨1⟩ = true → r.workerBoot = ⟨1⟩ →
          NotRevived anyCopy r) ∧
      ∃ ack t', hidden.recoverFromBuffer (hidden.saveToBuffer .stored).2 = some (.ok ack, t') ∧
        (NothingGained Float anyCopy hidden t' ↔ ∀ r ∈ hidden.records, NotRevived anyCopy r) := by
  have hreached : Reached Float hiddenRun hidden := after_mem_visited _ _ _
  have hres := restartable_hidden
  obtain ⟨ack, hrec⟩ := recover_saved (o := .stored) hres hidden
  exact ⟨(nothing_gained_iff Float hiddenRun hidden hreached anyCopy).1 ⟨1⟩ [], ack, _, hrec,
    (nothing_gained_iff Float hiddenRun hidden hreached anyCopy).2 .stored hidden _ ack
      (sizesFit_of_limits hres.counts hres.strings) hrec⟩

end CacheDirectory
