/-
  File:      CacheDirectory/Invariants/Commutation.lean
  Subject:   WHETHER THE ORDER OF EVIDENCE REPORTS MATTERS.

  Reports on different fields assign different fields, and the lifecycle is derived anew from all
  of them each time. But `derive_lifecycle` also reads the lifecycle it replaces: INVALIDATED stays
  as long as the evidence is clean, and the first report that leaves it unclean wipes the mark out.

  * `record_reported`, `record_reports` -- what accepted reports make of the record;
  * `lifecycle_reports` -- the lifecycle behind them: what the evidence asks for, else INVALIDATED
    or AVAILABLE;
  * `reports_commute_iff` -- two orders end with the same record exactly when the record is not
    INVALIDATED before, or the evidence is not clean behind, or both orders keep it clean, or
    neither does.
-/
import CacheDirectory.Invariants.RecordIds

namespace CacheDirectory

open Library Directory

/-! ## 1. Reports -/

/-- The new value of one field of evidence. -/
inductive Finding where
  | health (h : Health)
  | freshness (f : Freshness)
  | reachability (reach : Reachability)
  | integrity (integ : Integrity)

/-- The fields. -/
inductive EvidenceField where
  | health | freshness | reachability | integrity
  deriving DecidableEq

namespace Finding

def field : Finding → EvidenceField
  | .health _ => .health
  | .freshness _ => .freshness
  | .reachability _ => .reachability
  | .integrity _ => .integrity

/-- The assignment. -/
def write (e : Finding) (r : DirectoryRecord) : DirectoryRecord :=
  match e with
  | .health h => { r with health := h }
  | .freshness f => { r with freshness := f }
  | .reachability reach => { r with reachability := reach }
  | .integrity integ => { r with integrity := integ }

/-- Assignments of different fields. -/
theorem write_comm {a b : Finding} (h : a.field ≠ b.field) (r : DirectoryRecord) :
    a.write (b.write r) = b.write (a.write r) := by
  cases a <;> cases b <;> first | rfl | exact absurd rfl h

end Finding

/-- One report: the evidence, the authority it comes with and the clock when it is written. -/
structure Report where
  evidence : Finding
  env : AuthorityEnvelope
  now : TimestampNs

/-- The call that makes the report. -/
def Report.op (id : DirectoryRecordId) (u : Report) : Operation :=
  match u.evidence with
  | .health h => .updateHealth id h u.env u.now
  | .freshness f => .updateFreshness id f u.env u.now
  | .reachability reach => .updateReachability id reach u.env u.now
  | .integrity integ => .updateIntegrity id integ u.env u.now

/-- What an accepted report makes of evidence and lifecycle. -/
def relabel (r : DirectoryRecord) (e : Finding) : DirectoryRecord :=
  { e.write r with lifecycle := deriveLifecycle (e.write r) }

/-- The record but for the time stamp of its last update. -/
def untimed (r : DirectoryRecord) : DirectoryRecord := { r with updatedNs := 0 }

/-! ## 2. One report -/

section Report

variable {F : Type} [ScoreArith F] {id : DirectoryRecordId} {d : Directory} {r : DirectoryRecord}

theorem run_report (F : Type) [ScoreArith F] (id : DirectoryRecordId) (u : Report)
    (d : Directory) :
    (u.op id).run F d =
      Operation.report (updateEvidence u.evidence.write id u.env u.now d) := by
  obtain ⟨evidence, env, now⟩ := u
  cases evidence <;> rfl

/-- The record behind an assignment of the entry that was found. -/
theorem record_storeAt {i : Fin d.records.length} (hi : d.findRecordIndex id = some i)
    (hr : r.recordId = (d.records.get i).recordId) : (storeAt d i r).record id = some r := by
  obtain ⟨hid, hbefore⟩ := List.findFinIdx?_eq_some_iff.mp hi
  have hlen : i.val < (d.records.set i r).length := by
    rw [List.length_set]
    exact i.isLt
  have hfound : (storeAt d i r).findRecordIndex id = some ⟨i.val, hlen⟩ := by
    refine List.findFinIdx?_eq_some_iff.mpr ⟨?_, fun j hj => ?_⟩
    · show ((d.records.set i r)[i.val].recordId == id) = true
      rw [List.getElem_set_self, hr]
      exact hid
    · have hj' : j.val < i.val := hj
      show ¬ ((d.records.set i r)[j.val].recordId == id) = true
      rw [List.getElem_set_ne (Nat.ne_of_gt hj')]
      exact hbefore ⟨j.val, Nat.lt_trans hj' i.isLt⟩ hj'
  unfold Directory.record
  rw [hfound]
  exact congrArg some (List.getElem_set_self hlen)

theorem recordId_write (e : Finding) (r : DirectoryRecord) :
    (e.write r).recordId = r.recordId := by
  cases e <;> rfl

/-- **The record behind an accepted report**, and that its lifecycle was not SUPERSEDED. -/
theorem record_reported {u : Report} (h : (u.op id).Accepted F d) (hr : d.record id = some r) :
    r.lifecycle ≠ .superseded ∧
      ((u.op id).step F d).record id =
        some (restamped (deriveLifecycle (u.evidence.write r)) u.env u.now
          (u.evidence.write r)) := by
  have hrun := run_report F id u d
  have hstep : (u.op id).step F d = (updateEvidence u.evidence.write id u.env u.now d).2 :=
    congrArg Prod.snd hrun
  have hok := (congrArg Prod.fst hrun).symm.trans h
  obtain ⟨x, hx⟩ := report_eq_none.mp hok
  rw [hstep]
  rcases @updateEvidence_cases id u.env u.now d u.evidence.write with
    ⟨f, hend, _⟩ | ⟨i, _, _, hend⟩ | ⟨i, r', hi, hr', hcan, hend⟩
  · rw [hend] at hx
    cases hx
  · rw [hend] at hx
    cases hx
  · have hfound : d.records.get i = r := by
      unfold Directory.record at hr
      rw [hi.found] at hr
      exact Option.some.inj hr
    rw [hend]
    rw [hfound] at hr' hcan
    refine ⟨fun hsuper => ?_, ?_⟩
    · have hno := (canLifecycle_derived r.lifecycle (u.evidence.write r)).mpr (.inr hsuper)
      rw [hr'] at hcan
      exact absurd (hno.symm.trans hcan) Bool.false_ne_true
    · rw [← hr']
      refine record_storeAt hi.found ?_
      rw [hfound, hr']
      exact recordId_write u.evidence r

/-- The call does not move the id to another record. -/
theorem reported_found {u : Report} (h : (u.op id).Accepted F d) : ∃ r, d.record id = some r := by
  have hok := (congrArg Prod.fst (run_report F id u d)).symm.trans h
  obtain ⟨x, hx⟩ := report_eq_none.mp hok
  rcases @updateEvidence_cases id u.env u.now d u.evidence.write with
    ⟨f, hend, _⟩ | ⟨i, _, _, hend⟩ | ⟨i, _, hi, _, _, _⟩
  · rw [hend] at hx
    cases hx
  · rw [hend] at hx
    cases hx
  · refine ⟨d.records.get i, ?_⟩
    unfold Directory.record
    rw [hi.found]
    rfl

end Report

/-! ## 3. Labels -/

/-- The evidence that `derive_lifecycle` looks for, and the lifecycle it asks for. -/
def evidenceTests (r : DirectoryRecord) : List (Bool × LifecycleState) :=
  [(r.integrity == .corrupt, .failed), (r.integrity == .missing, .missing),
    (r.reachability == .unreachable, .unreachable), (r.health == .unavailable, .unreachable),
    (r.hasLease && r.lease.state == .expired, .expired), (r.freshness == .stale, .stale),
    (r.health == .degraded || r.reachability == .degraded, .degraded)]

/-- The record holds none of it. -/
def clean (r : DirectoryRecord) : Bool := (evidenceTests r).all fun t => !t.1

/-- The assignments one after the other. -/
def writeAll (r : DirectoryRecord) (es : List Finding) : DirectoryRecord :=
  es.foldl (fun r e => e.write r) r

/-- The evidence is clean behind every one of the assignments. -/
def staysClean (r : DirectoryRecord) : List Finding → Bool
  | [] => true
  | e :: es => clean (e.write r) && staysClean (e.write r) es

section Labels

variable {r : DirectoryRecord}

theorem clean_iff : clean r = true ↔ firstFailure (evidenceTests r) = none := by
  unfold clean
  rw [List.all_eq_true, firstFailure_eq_none]
  simp only [Bool.not_eq_true']

theorem getD_firstFailure_cons {ε : Type} (b : Bool) (e x : ε) (cs : List (Bool × ε)) :
    (firstFailure ((b, e) :: cs)).getD x = if b then e else (firstFailure cs).getD x := by
  cases b <;> rfl

/-- **The derived lifecycle**: what the evidence asks for, else INVALIDATED where it was and
    AVAILABLE where it was not. -/
theorem deriveLifecycle_eq (h : r.lifecycle ≠ .superseded) :
    deriveLifecycle r = (firstFailure (evidenceTests r)).getD
      (if r.lifecycle = .invalidated then .invalidated else .available) := by
  have hopen : (!r.current && r.lifecycle == .superseded) = false := by simp [h]
  unfold deriveLifecycle evidenceTests
  simp only [hopen, getD_firstFailure_cons, firstFailure_nil, Option.getD_none, beq_iff_eq,
    Bool.false_eq_true, if_false]

/-- No evidence asks for INVALIDATED. -/
theorem evidenceLabel_ne {l : LifecycleState} (h : firstFailure (evidenceTests r) = some l) :
    l ≠ .invalidated := by
  have hmem := mem_of_firstFailure h
  simp only [evidenceTests, List.mem_cons, Prod.mk.injEq, List.not_mem_nil, or_false] at hmem
  rcases hmem with ⟨_, rfl⟩ | ⟨_, rfl⟩ | ⟨_, rfl⟩ | ⟨_, rfl⟩ | ⟨_, rfl⟩ | ⟨_, rfl⟩ | ⟨_, rfl⟩
  all_goals decide

theorem deriveLifecycle_invalidated (h : r.lifecycle ≠ .superseded) :
    deriveLifecycle r = .invalidated ↔ r.lifecycle = .invalidated ∧ clean r = true := by
  rw [deriveLifecycle_eq h, clean_iff]
  cases hlabel : firstFailure (evidenceTests r) with
  | some l => simp [evidenceLabel_ne hlabel]
  | none => simp

/-! ## 4. Reports in a row -/

theorem lifecycle_write (e : Finding) (r : DirectoryRecord) :
    (e.write r).lifecycle = r.lifecycle := by
  cases e <;> rfl

/-- No assignment looks at the lifecycle, and the tests do not either. -/
theorem writeAll_lifecycle (l : LifecycleState) : ∀ (es : List Finding) (r : DirectoryRecord),
    writeAll { r with lifecycle := l } es = { writeAll r es with lifecycle := l }
  | [], _ => rfl
  | e :: es, r => by
      have hone : e.write { r with lifecycle := l } = { e.write r with lifecycle := l } := by
        cases e <;> rfl
      show writeAll (e.write { r with lifecycle := l }) es = _
      rw [hone, writeAll_lifecycle l es]
      rfl

theorem staysClean_lifecycle (l : LifecycleState) : ∀ (es : List Finding) (r : DirectoryRecord),
    staysClean { r with lifecycle := l } es = staysClean r es
  | [], _ => rfl
  | e :: es, r => by
      have hone : e.write { r with lifecycle := l } = { e.write r with lifecycle := l } := by
        cases e <;> rfl
      rw [staysClean, hone, staysClean_lifecycle l es]
      rfl

/-- What reports make of the evidence. -/
theorem foldl_relabel : ∀ (es : List Finding) (r : DirectoryRecord),
    es.foldl relabel r =
      { writeAll r es with lifecycle := (es.foldl relabel r).lifecycle }
  | [], _ => rfl
  | e :: es, r => by
      have hrest := foldl_relabel es (relabel r e)
      have hwrite : writeAll (relabel r e) es =
          { writeAll (e.write r) es with lifecycle := deriveLifecycle (e.write r) } :=
        writeAll_lifecycle _ es (e.write r)
      rw [hwrite] at hrest
      exact hrest

/-- **The lifecycle behind a row of reports**: what the evidence asks for in the end, else
    INVALIDATED where it was and the evidence stayed clean, and AVAILABLE otherwise. -/
theorem lifecycle_reports : ∀ (e : Finding) (es : List Finding) (r : DirectoryRecord),
    r.lifecycle ≠ .superseded →
      ((e :: es).foldl relabel r).lifecycle =
        (firstFailure (evidenceTests (writeAll r (e :: es)))).getD
          (if r.lifecycle = .invalidated ∧ staysClean r (e :: es) = true then .invalidated
            else .available)
  | e, [], r, h => by
      have hopen : (e.write r).lifecycle ≠ .superseded := by rwa [lifecycle_write]
      show deriveLifecycle (e.write r) =
        (firstFailure (evidenceTests (e.write r))).getD
          (if r.lifecycle = .invalidated ∧ (clean (e.write r) && true) = true then _ else _)
      rw [deriveLifecycle_eq hopen, lifecycle_write, Bool.and_true]
      cases hlabel : firstFailure (evidenceTests (e.write r)) with
      | some l => rfl
      | none => simp [clean_iff.mpr hlabel]
  | e, e' :: es, r, h => by
      have hopen : (e.write r).lifecycle ≠ .superseded := by rwa [lifecycle_write]
      have hnext : (relabel r e).lifecycle ≠ .superseded := deriveLifecycle_ne_superseded hopen
      have hlabel : (relabel r e).lifecycle = .invalidated ↔
          r.lifecycle = .invalidated ∧ clean (e.write r) = true := by
        rw [← lifecycle_write e r]
        exact deriveLifecycle_invalidated hopen
      have hstays : staysClean (relabel r e) (e' :: es) = staysClean (e.write r) (e' :: es) :=
        staysClean_lifecycle _ (e' :: es) (e.write r)
      have htests : evidenceTests (writeAll (relabel r e) (e' :: es)) =
          evidenceTests (writeAll r (e :: e' :: es)) := by
        show evidenceTests (writeAll { e.write r with lifecycle := _ } (e' :: es)) = _
        rw [writeAll_lifecycle]
        rfl
      have hcons : staysClean r (e :: e' :: es) =
          (clean (e.write r) && staysClean (e.write r) (e' :: es)) := rfl
      rw [List.foldl_cons, lifecycle_reports e' es _ hnext, htests, hstays, hcons]
      simp only [hlabel, Bool.and_eq_true, and_assoc]

end Labels

/-! ## 5. Two orders -/

section Orders

variable {F : Type} [ScoreArith F] {id : DirectoryRecordId}

/-- The record under another fence and another time stamp. -/
def signed (fence : UInt64) (now : TimestampNs) (r : DirectoryRecord) : DirectoryRecord :=
  { r with authority := { r.authority with fence := fence }, updatedNs := now }

theorem foldl_signed (fence : UInt64) (now : TimestampNs) :
    ∀ (es : List Finding) (r : DirectoryRecord),
      es.foldl relabel (signed fence now r) = signed fence now (es.foldl relabel r)
  | [], _ => rfl
  | e :: es, r => by
      have hone : relabel (signed fence now r) e = signed fence now (relabel r e) := by
        cases e <;> rfl
      rw [List.foldl_cons, hone, foldl_signed fence now es]
      rfl

/-- **The record behind a row of accepted reports.** -/
theorem record_reports (fence : UInt64) : ∀ (us : List Report) (d : Directory)
    (r : DirectoryRecord), (∀ u ∈ us, u.env.fence = fence) →
    Follows (Operation.step F) (fun op d => op.Accepted F d) d (us.map (Report.op id)) →
    d.record id = some r →
      ∃ r', (after (Operation.step F) d (us.map (Report.op id))).record id = some r' ∧
        untimed r' = untimed (signed (if us = [] then r.authority.fence else fence) 0
          ((us.map (·.evidence)).foldl relabel r))
  | [], _, r, _, _, hr => ⟨r, hr, rfl⟩
  | u :: us, d, r, hfence, hrun, hr => by
      obtain ⟨hu, hus⟩ := List.forall_mem_cons.mp hfence
      have hstep := (record_reported hrun.1 hr).2
      obtain ⟨r', hr', hsame⟩ := record_reports fence us _ _ hus hrun.2 hstep
      have hnext : restamped (deriveLifecycle (u.evidence.write r)) u.env u.now
          (u.evidence.write r) = signed u.env.fence u.now (relabel r u.evidence) := rfl
      have hstored : (signed fence u.now (relabel r u.evidence)).authority.fence = fence := rfl
      refine ⟨r', hr', ?_⟩
      rw [hsame, hnext, foldl_signed, hu, hstored, ite_self, if_neg (List.cons_ne_nil u us)]
      rfl

/-- An accepted report finds its record open. -/
theorem open_of_follows {us : List Report} {d : Directory} {r : DirectoryRecord} (hus : us ≠ [])
    (hrun : Follows (Operation.step F) (fun op d => op.Accepted F d) d (us.map (Report.op id)))
    (hr : d.record id = some r) : r.lifecycle ≠ .superseded := by
  cases us with
  | nil => exact absurd rfl hus
  | cons u us => exact (record_reported hrun.1 hr).1

/-- Assignments of different fields may come in any order. -/
theorem writeAll_perm {es es' : List Finding} (hperm : es.Perm es')
    (hfields : (es.map Finding.field).Nodup) (r : DirectoryRecord) :
    writeAll r es = writeAll r es' := by
  refine hperm.foldl_eq' (fun a ha b hb x => ?_) r
  by_cases hsame : a.field = b.field
  · rw [List.inj_on_of_nodup_map hfields ha hb hsame]
  · exact (Finding.write_comm hsame x).symm

/-- The order of the assignments does not show in the lifecycle. -/
def OrderFree (r : DirectoryRecord) (es es' : List Finding) : Prop :=
  r.lifecycle = .invalidated → clean (writeAll r es) = true → staysClean r es = staysClean r es'

/-- **Two orders of the same assignments end under the same lifecycle exactly when they are free
    of order.** -/
theorem lifecycle_orders {es es' : List Finding} (hperm : es.Perm es')
    (hfields : (es.map Finding.field).Nodup) {r : DirectoryRecord}
    (hopen : r.lifecycle ≠ .superseded) :
    (es.foldl relabel r).lifecycle = (es'.foldl relabel r).lifecycle ↔ OrderFree r es es' := by
  rcases es with _ | ⟨e, es⟩
  · rw [List.nil_perm.mp hperm]
    exact iff_of_true rfl fun _ _ => rfl
  rcases es' with _ | ⟨e', es'⟩
  · cases hperm.eq_nil
  have hwrite := writeAll_perm hperm hfields r
  rw [lifecycle_reports e es r hopen, lifecycle_reports e' es' r hopen, ← hwrite]
  unfold OrderFree
  rw [clean_iff]
  cases hlabel : firstFailure (evidenceTests (writeAll r (e :: es))) with
  | some l => simp
  | none =>
      by_cases hmark : r.lifecycle = .invalidated
      · cases staysClean r (e :: es) <;> cases staysClean r (e' :: es') <;> simp [hmark]
      · simp [hmark]

end Orders

/-- **Two orders of reports on different fields under one fence, both accepted throughout, end
    with the same record but for the time stamp exactly when the record is not INVALIDATED before,
    or its evidence is not clean behind, or both orders keep it clean or neither does.** -/
theorem reports_commute_iff (F : Type) [ScoreArith F] (d : Directory) (id : DirectoryRecordId)
    (us us' : List Report) (fence : UInt64)
    (hperm : (us.map (·.evidence)).Perm (us'.map (·.evidence)))
    (hfields : (us.map (·.evidence.field)).Nodup)
    (hfence : ∀ u ∈ us ++ us', u.env.fence = fence)
    (hrun : Follows (Operation.step F) (fun op d => op.Accepted F d) d (us.map (Report.op id)))
    (hrun' : Follows (Operation.step F) (fun op d => op.Accepted F d) d (us'.map (Report.op id))) :
    ((after (Operation.step F) d (us.map (Report.op id))).record id).map untimed =
        ((after (Operation.step F) d (us'.map (Report.op id))).record id).map untimed ↔
      ∀ r, d.record id = some r →
        OrderFree r (us.map (·.evidence)) (us'.map (·.evidence)) := by
  rcases us with _ | ⟨u, us⟩
  · have hnil : us' = [] := List.map_eq_nil_iff.mp (List.nil_perm.mp hperm)
    rw [hnil]
    exact iff_of_true rfl fun _ _ _ _ => rfl
  have hne' : us' ≠ [] := by
    rintro rfl
    cases hperm.eq_nil
  obtain ⟨r, hr⟩ := reported_found hrun.1
  have hopen := open_of_follows (List.cons_ne_nil u us) hrun hr
  obtain ⟨hfences, hfences'⟩ := List.forall_mem_append.mp hfence
  obtain ⟨x, hx, hsame⟩ := record_reports fence (u :: us) d r hfences hrun hr
  obtain ⟨x', hx', hsame'⟩ := record_reports fence us' d r hfences' hrun' hr
  rw [if_neg (List.cons_ne_nil u us)] at hsame
  rw [if_neg hne'] at hsame'
  have hdistinct : (((u :: us).map (·.evidence)).map Finding.field).Nodup := by
    rw [List.map_map]
    exact hfields
  have hlabels := lifecycle_orders hperm hdistinct hopen
  have hwrite := writeAll_perm hperm hdistinct r
  rw [hx, hx', Option.map_some, Option.map_some, Option.some.injEq, hsame, hsame', hr]
  constructor
  · intro h y hy
    cases hy
    have hlabel := congrArg DirectoryRecord.lifecycle h
    exact hlabels.mp hlabel
  · intro h
    rw [foldl_relabel, foldl_relabel ((us'.map (·.evidence))), ← hwrite, hlabels.mpr (h r rfl)]

/-- A copy that was reported DEGRADED and then invalidated. -/
def invalidatedDegraded : List Operation :=
  registeredOnce ++
    [healthUpdate .degraded,
      .invalidateState ⟨1⟩ ⟨1⟩ { epoch := ⟨1⟩, boot := ⟨1⟩ } [] fun _ => 1]

def invalidatedCopy : Directory := after (Operation.step Float) {} invalidatedDegraded

def ownReport (e : Finding) : Report := ⟨e, { epoch := ⟨1⟩, boot := ⟨1⟩ }, 1⟩

/-- Two good reports of the owner. -/
def goodReports : List Report := [ownReport (.health .healthy), ownReport (.freshness .current)]

/-- The calls of the reports, in this order and in the other. -/
def goodCalls : List Operation := goodReports.map (Report.op ⟨1⟩)

def goodCallsSwapped : List Operation := goodReports.reverse.map (Report.op ⟨1⟩)

theorem goodCalls_accepted :
    Follows (Operation.step Float) (fun op d => op.Accepted Float d) invalidatedCopy goodCalls ∧
      Follows (Operation.step Float) (fun op d => op.Accepted Float d) invalidatedCopy
        goodCallsSwapped := by
  refine ⟨⟨?_, ?_, trivial⟩, ?_, ?_, trivial⟩
  all_goals decide +kernel

/-- **The counterexample**: health first, the copy stays INVALIDATED; freshness first, it becomes
    AVAILABLE. -/
theorem good_reports_disagree :
    Reached Float invalidatedDegraded invalidatedCopy ∧
      Follows (Operation.step Float) (fun op d => op.Accepted Float d) invalidatedCopy goodCalls ∧
      Follows (Operation.step Float) (fun op d => op.Accepted Float d) invalidatedCopy
        goodCallsSwapped ∧
      ((after (Operation.step Float) invalidatedCopy goodCalls).record ⟨1⟩).map (·.lifecycle) =
        some .invalidated ∧
      ((after (Operation.step Float) invalidatedCopy goodCallsSwapped).record ⟨1⟩).map
        (·.lifecycle) = some .available :=
  ⟨after_mem_visited _ _ _, goodCalls_accepted.1, goodCalls_accepted.2, by decide +kernel,
    by decide +kernel⟩

/-- Over an AVAILABLE copy the two good reports commute, over the invalidated one they do not. -/
theorem reports_commute_good :
    ((after (Operation.step Float) afterRegistration goodCalls).record ⟨1⟩).map untimed =
        ((after (Operation.step Float) afterRegistration goodCallsSwapped).record ⟨1⟩).map untimed ∧
      ((after (Operation.step Float) invalidatedCopy goodCalls).record ⟨1⟩).map untimed ≠
        ((after (Operation.step Float) invalidatedCopy goodCallsSwapped).record ⟨1⟩).map
          untimed := by
  have hcalls : Follows (Operation.step Float) (fun op d => op.Accepted Float d) afterRegistration
      goodCalls := by
    refine ⟨?_, ?_, trivial⟩
    all_goals decide +kernel
  have hswapped : Follows (Operation.step Float) (fun op d => op.Accepted Float d)
      afterRegistration goodCallsSwapped := by
    refine ⟨?_, ?_, trivial⟩
    all_goals decide +kernel
  have hlabels : (afterRegistration.record ⟨1⟩).map (·.lifecycle) = some .available := by
    decide +kernel
  have hmarked : ∃ r ∈ invalidatedCopy.record ⟨1⟩, r.lifecycle = .invalidated ∧
      clean (writeAll r (goodReports.map (·.evidence))) = true ∧
      staysClean r (goodReports.map (·.evidence)) ≠
        staysClean r (goodReports.reverse.map (·.evidence)) := by decide +kernel
  refine ⟨(reports_commute_iff Float afterRegistration ⟨1⟩ goodReports goodReports.reverse 0
    (List.Perm.swap _ _ _) (by decide) (by decide) hcalls hswapped).mpr fun r hr hmark => ?_,
    fun h => ?_⟩
  · rw [hr] at hlabels
    exact absurd (hmark.symm.trans (Option.some.inj hlabels)) (by decide)
  · obtain ⟨r, hr, hmark, hclean, hdiffer⟩ := hmarked
    exact hdiffer ((reports_commute_iff Float invalidatedCopy ⟨1⟩ goodReports goodReports.reverse 0
      (List.Perm.swap _ _ _) (by decide) (by decide) goodCalls_accepted.1
      goodCalls_accepted.2).mp h r hr hmark hclean)

end CacheDirectory
