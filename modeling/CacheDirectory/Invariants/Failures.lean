/-
  File:      CacheDirectory/Invariants/Failures.lean
  Subject:   WHAT A FAILED OPERATION LEAVES BEHIND.

  All operations but the four evidence updates check everything before they write, so a failure
  of theirs changes nothing. An evidence update stores the new evidence before it checks the
  lifecycle transition, and the transition is refused exactly on records that are superseded or
  tombstoned.

  * `canLifecycle_derived` -- the late check fails exactly on those two lifecycles;
  * `failed_updateEvidence` -- what a failed evidence update leaves behind;
  * `failed_step` -- a failed operation that is no evidence update leaves the directory alone;
  * `accepted_iff` -- so what such an operation keeps is to be shown when it is accepted;
  * `failure_leaves_no_trace_iff` -- a failed operation leaves the directory alone exactly when
    it is no late write.
-/
import CacheDirectory.Invariants.Effects
import CacheDirectory.Recovery.Validation

namespace CacheDirectory

open Library Directory

/-! ## 1. The late check -/

theorem deriveLifecycle_ne_tombstoned (r : DirectoryRecord) :
    deriveLifecycle r ≠ .tombstoned := by
  unfold deriveLifecycle
  repeat' split
  all_goals decide

theorem deriveLifecycle_ne_superseded {r : DirectoryRecord} (h : r.lifecycle ≠ .superseded) :
    deriveLifecycle r ≠ .superseded := by
  have hopen : (!r.current && r.lifecycle == .superseded) = false := by simp [h]
  unfold deriveLifecycle
  rw [hopen]
  repeat' split
  all_goals first | decide | contradiction

/-- **The transition to a derived lifecycle is refused exactly where the stored one is SUPERSEDED
    or TOMBSTONED**, since no lifecycle is ever derived as TOMBSTONED. -/
theorem canLifecycle_derived (before : LifecycleState) (r : DirectoryRecord) :
    canLifecycle before (deriveLifecycle r) = false ↔
      before = .tombstoned ∨ before = .superseded := by
  have hne := deriveLifecycle_ne_tombstoned r
  unfold canLifecycle
  by_cases ht : before = .tombstoned
  · simp [ht, hne]
  · by_cases hs : before = .superseded
    · simp [hs, hne]
    · simp [ht, hs]

/-- An evidence update goes wrong late: its record is there, its authority is granted, and the
    record's lifecycle is one that derives no successor. -/
structure LateFailure (id : DirectoryRecordId) (env : AuthorityEnvelope) (d : Directory)
    (i : Fin d.records.length) : Prop where
  found : d.findRecordIndex id = some i
  authorised : d.checkUpdateAuthority (d.records.get i) env = none
  frozen : (d.records.get i).lifecycle = .tombstoned ∨ (d.records.get i).lifecycle = .superseded

/-! ## 2. Operations that check first -/

theorem report_eq_some {α : Type} {x : Result α × Directory} {f : Failure} :
    (Operation.report x).1 = some f ↔ x.1 = .error f := by
  unfold Operation.report
  cases x.1 <;> simp

theorem report_eq_none {α : Type} {x : Result α × Directory} :
    (Operation.report x).1 = none ↔ ∃ a, x.1 = .ok a := by
  unfold Operation.report
  cases x.1 <;> simp

theorem failed_report_guarded {α : Type} {checks : List (Bool × Failure)} {d : Directory}
    {act : α × Directory} {f : Failure}
    (h : (Operation.report (guarded checks d act)).1 = some f) : (guarded checks d act).2 = d :=
  guarded_failed (report_eq_some.mp h)

/-- An accepted guarded operation passed every check and ran its action. -/
theorem accepted_report_guarded {α : Type} {checks : List (Bool × Failure)} {d : Directory}
    {act : α × Directory} (h : (Operation.report (guarded checks d act)).1 = none) :
    firstFailure checks = none ∧ (guarded checks d act).2 = act.2 := by
  obtain ⟨a, ha⟩ := report_eq_none.mp h
  obtain ⟨hpass, _, hstate⟩ := guarded_done ha
  exact ⟨hpass, hstate⟩

/-- The evidence an operation writes: the record it names, the authority it comes with, the
    assignment. -/
def Operation.evidence :
    Operation → Option (DirectoryRecordId × AuthorityEnvelope × (DirectoryRecord → DirectoryRecord))
  | .updateHealth id h env _ => some (id, env, fun r => { r with health := h })
  | .updateFreshness id f env _ => some (id, env, fun r => { r with freshness := f })
  | .updateReachability id reach env _ => some (id, env, fun r => { r with reachability := reach })
  | .updateIntegrity id integ env _ => some (id, env, fun r => { r with integrity := integ })
  | _ => none

/-- **The rule for the updates of evidence**: what holds of each of the four holds of all. -/
theorem evidence_cases {id : DirectoryRecordId} {env : AuthorityEnvelope}
    {P : Operation → (DirectoryRecord → DirectoryRecord) → Prop}
    (health : ∀ h now, P (.updateHealth id h env now) fun r => { r with health := h })
    (freshness : ∀ f now, P (.updateFreshness id f env now) fun r => { r with freshness := f })
    (reachability : ∀ reach now,
      P (.updateReachability id reach env now) fun r => { r with reachability := reach })
    (integrity : ∀ integ now,
      P (.updateIntegrity id integ env now) fun r => { r with integrity := integ })
    {op : Operation} {write : DirectoryRecord → DirectoryRecord}
    (h : op.evidence = some (id, env, write)) : P op write := by
  cases op with
  | updateHealth id' x env' now =>
      cases h
      exact health x now
  | updateFreshness id' x env' now =>
      cases h
      exact freshness x now
  | updateReachability id' x env' now =>
      cases h
      exact reachability x now
  | updateIntegrity id' x env' now =>
      cases h
      exact integrity x now
  | _ => cases h

section Failed

variable {d : Directory} {f : Failure}

/-- A call that fails before it writes leaves the directory alone. -/
theorem failed_of_outcomes {α : Type} {x : Result α × Directory}
    (hx : (∃ g, x = (.error g, d)) ∨ ∃ a d', x = (.ok a, d'))
    (h : (Operation.report x).1 = some f) : x.2 = d := by
  rcases hx with ⟨g, rfl⟩ | ⟨a, d', rfl⟩
  · rfl
  · cases h

theorem failed_updateCache {write : CacheDescriptor → CacheDescriptor}
    {hwrite : ∀ c, (write c).cacheId = c.cacheId} {id : CacheId} {env : AuthorityEnvelope}
    (h : (Operation.report (updateCache write hwrite id env d)).1 = some f) :
    (updateCache write hwrite id env d).2 = d :=
  failed_of_outcomes ((updateCache_cases hwrite).imp_right
    fun ⟨_, _, _, hend⟩ => ⟨_, _, hend⟩) h

theorem failed_registerEntry {record : DirectoryRecord} {clk : Nat → TimestampNs}
    (h : (d.registerEntry record clk).1 = .error f) : (d.registerEntry record clk).2 = d := by
  rw [registerEntry_rejected (registerEntry_error.mp h)]

theorem not_failed_onWorkerLoss {boot : WorkerBootId} {reason : Bytes} :
    (d.onWorkerLoss boot reason).1 ≠ .error f := by
  intro h
  unfold onWorkerLoss at h
  by_cases hlive : (!d.workerLive boot) = true
  · rw [if_pos hlive] at h
    cases h
  · rw [if_neg hlive] at h
    cases h

end Failed

/-- **A failed operation that is no evidence update leaves the directory alone.**
    `validate_indexes` is apart: it may have built the cached indexes before it fails. -/
theorem failed_step {F : Type} [ScoreArith F] {op : Operation} {d : Directory} {f : Failure}
    (hev : op.evidence = none) (hop : op ≠ .validateIndexes) (h : (op.run F d).1 = some f) :
    op.step F d = d := by
  cases op with
  | updateHealth id h env now => cases hev
  | updateFreshness id f env now => cases hev
  | updateReachability id reach env now => cases hev
  | updateIntegrity id integ env now => cases hev
  | validateIndexes => exact absurd rfl hop
  | registerWorkerSession session => exact failed_report_guarded h
  | onWorkerLoss boot reason => exact absurd (report_eq_some.mp h) not_failed_onWorkerLoss
  | registerCache cache => exact failed_report_guarded h
  | registerLocation loc => exact failed_report_guarded h
  | registerReplica replica => exact failed_report_guarded h
  | registerEntry record clk => exact failed_registerEntry (report_eq_some.mp h)
  | updateLifecycle id s env now =>
      exact failed_of_outcomes ((updateLifecycle_cases s).imp_right
        fun ⟨_, _, _, _, _, hend⟩ => ⟨_, _, hend⟩) h
  | updateCacheHealth id health reach env => exact failed_updateCache h
  | updateCacheCapacity id capacity free env => exact failed_updateCache h
  | registerLease lease => exact failed_report_guarded h
  | renewLease id env now =>
      exact failed_of_outcomes ((renewLease_cases now).imp_right
        fun ⟨_, _, _, hend⟩ => ⟨_, _, hend⟩) h
  | expireLease id env reason =>
      exact failed_of_outcomes ((expireLease_cases reason).imp_right
        fun ⟨_, _, _, hend⟩ => ⟨_, _, hend⟩) h
  | revokeLease id env reason =>
      exact failed_of_outcomes ((revokeLease_cases reason).imp_right
        fun ⟨_, _, hend⟩ => ⟨_, _, hend⟩) h
  | invalidateState s g env reason clk => exact failed_report_guarded h
  | invalidateLocation loc env reason clk => exact failed_report_guarded h
  | invalidateReplica rep env reason clk => exact failed_report_guarded h
  | invalidateCache c env reason clk => exact failed_report_guarded h
  | invalidateWorkerBoot b env reason clk => exact failed_report_guarded h
  | tombstone t => exact failed_report_guarded h
  | query order q => cases report_eq_some.mp h
  | setRankingPolicy p => cases h
  | indexes => cases h
  | nextObjectId => cases h
  | recoverFromBuffer buf =>
      have hcases := recoverFromBuffer_cases buf d
      simp only [Operation.step, Operation.run] at h ⊢
      rcases hcases with ⟨g, hrec⟩ | ⟨s, ack, _, _, hrec⟩
      · rw [hrec]
        rfl
      · rw [hrec] at h
        cases report_eq_some.mp h

/-- The same for a call that was not accepted. -/
theorem rejected_step {F : Type} [ScoreArith F] {op : Operation} {d : Directory}
    (hev : op.evidence = none) (hop : op ≠ .validateIndexes) (h : ¬ op.Accepted F d) :
    op.step F d = d := by
  obtain ⟨f, hf⟩ := Option.ne_none_iff_exists'.mp h
  exact failed_step hev hop hf

/-- **The rule for a call that may be refused**: what it keeps is to be shown for an accepted one
    only. -/
theorem accepted_iff {F : Type} [ScoreArith F] {op : Operation} {d : Directory}
    {P : Directory → Prop} {C : Prop} (hev : op.evidence = none) (hop : op ≠ .validateIndexes)
    (hd : P d) (h : op.Accepted F d → (C ↔ P (op.step F d))) :
    (op.Accepted F d → C) ↔ P (op.step F d) := by
  by_cases hacc : op.Accepted F d
  · exact (imp_iff_right hacc).trans (h hacc)
  · rw [rejected_step hev hop hacc]
    exact iff_of_true (fun h => absurd h hacc) hd

/-! ## 3. The exact condition -/

/-- The call is an authorised evidence update of a SUPERSEDED or TOMBSTONED record, with evidence
    the record does not hold already. -/
def Operation.LateWrite (op : Operation) (d : Directory) : Prop :=
  ∃ id env write i, op.evidence = some (id, env, write) ∧ LateFailure id env d i ∧
    write (d.records.get i) ≠ d.records.get i

/-- Assigning one entry changes the vector exactly when it changes the entry. -/
theorem set_eq_self_iff {α : Type} {l : List α} {i : Fin l.length} {x : α} :
    l.set i x = l ↔ x = l.get i := by
  constructor
  · intro h
    have hget : (l.set i x)[i.val]? = l[i.val]? := by rw [h]
    simpa using hget
  · rintro rfl
    exact List.set_getElem_self i.isLt

/-- What a failed evidence update leaves behind. -/
theorem failed_updateEvidence {write : DirectoryRecord → DirectoryRecord}
    {id : DirectoryRecordId} {env : AuthorityEnvelope} {now : TimestampNs} {d : Directory}
    {f : Failure} (h : (updateEvidence write id env now d).1 = .error f) :
    (updateEvidence write id env now d).2 = d ↔
      ¬ ∃ i, LateFailure id env d i ∧ write (d.records.get i) ≠ d.records.get i := by
  rcases updateEvidence_cases write with
    ⟨g, hearly, hnone⟩ | ⟨i, hi, hcan, hlate⟩ | ⟨i, r, _, _, _, hdone⟩
  · rw [hearly]
    exact ⟨fun _ ⟨j, hj, _⟩ => hnone j ⟨hj.found, hj.authorised⟩, fun _ => rfl⟩
  · rw [hlate]
    have hfrozen := (canLifecycle_derived _ _).mp hcan
    have hstate : { d with records := d.records.set i (write (d.records.get i)) } = d ↔
        write (d.records.get i) = d.records.get i := by
      rw [← set_eq_self_iff]
      constructor
      · intro h
        exact congrArg Directory.records h
      · intro h
        rw [h]
    rw [hstate]
    constructor
    · rintro heq ⟨j, hj, hne⟩
      have hij : i = j := hi.unique ⟨hj.found, hj.authorised⟩
      exact hne (hij ▸ heq)
    · intro hno
      by_contra hne
      exact hno ⟨i, ⟨hi.found, hi.authorised, hfrozen⟩, hne⟩
  · rw [hdone] at h
    cases h

/-- **A failed call leaves no trace, exactly when it is no late write**: an authorised update of
    health, freshness, reachability or integrity, of a record that is SUPERSEDED or TOMBSTONED,
    with a value the record does not hold. -/
theorem failure_leaves_no_trace_iff (F : Type) [ScoreArith F] (op : Operation) (d : Directory)
    (f : Failure) (hop : op ≠ .validateIndexes) (h : (op.run F d).1 = some f) :
    op.step F d = d ↔ ¬ op.LateWrite d := by
  have hquiet (hev : op.evidence = none) : op.step F d = d ↔ ¬ op.LateWrite d := by
    refine iff_of_true (failed_step hev hop h) ?_
    intro h
    obtain ⟨id, env, write, i, hsome, _⟩ := h
    rw [hev] at hsome
    cases hsome
  have hlate {id : DirectoryRecordId} {env : AuthorityEnvelope}
      {write : DirectoryRecord → DirectoryRecord} (hev : op.evidence = some (id, env, write)) :
      op.LateWrite d ↔
        ∃ i, LateFailure id env d i ∧ write (d.records.get i) ≠ d.records.get i := by
    constructor
    · intro h
      obtain ⟨id', env', write', i, hev', hi⟩ := h
      rw [hev] at hev'
      cases hev'
      exact ⟨i, hi⟩
    · intro h
      obtain ⟨i, hi⟩ := h
      exact ⟨id, env, write, i, hev, hi⟩
  cases op with
  | updateHealth id health env now =>
      rw [hlate rfl]
      exact failed_updateEvidence (report_eq_some.mp h)
  | updateFreshness id fresh env now =>
      rw [hlate rfl]
      exact failed_updateEvidence (report_eq_some.mp h)
  | updateReachability id reach env now =>
      rw [hlate rfl]
      exact failed_updateEvidence (report_eq_some.mp h)
  | updateIntegrity id integ env now =>
      rw [hlate rfl]
      exact failed_updateEvidence (report_eq_some.mp h)
  | _ => exact hquiet rfl

/-! ## 4. A small run -/

/-- One copy, everything under id 1, in the first epoch. -/
def oneCopy : List Operation := attach ⟨1⟩ ⟨1⟩ ⟨1⟩ ⟨1⟩

/-- The record of that copy of state 1, under an id of the caller's choice. -/
def copyRecord (id : DirectoryRecordId) (g : StateGeneration) : DirectoryRecord :=
  attachedRecord ⟨1⟩ ⟨1⟩ ⟨1⟩ ⟨1⟩ id ⟨1⟩ g

/-- The copy registered at generation 1. -/
def registeredOnce : List Operation :=
  oneCopy ++ [.registerEntry (copyRecord ⟨1⟩ ⟨1⟩) fun _ => 1]

def afterRegistration : Directory := after (Operation.step Float) {} registeredOnce

/-- A tombstone over the generations of state 1 up to `floor`. -/
def stateTombstone (id : TombstoneId) (floor : UInt64) : TombstoneRecord :=
  { tombstoneId := id, target := { kind := .state, state := ⟨1⟩, generationFloor := floor }
    epoch := ⟨1⟩, workerBoot := ⟨1⟩ }

/-- `update_health` of record 1 by its owner. -/
def healthUpdate (h : Health) : Operation :=
  .updateHealth ⟨1⟩ h { epoch := ⟨1⟩, boot := ⟨1⟩ } 2

def burial : List Operation := registeredOnce ++ [.tombstone (stateTombstone ⟨1⟩ 1)]

def buried : Directory := after (Operation.step Float) {} burial

/-- **The counterexample**: the health of a buried record is overwritten by a refused update. -/
theorem late_write_leaves_trace :
    Reached Float burial buried ∧
      ((healthUpdate .healthy).run Float buried).1 = some illegalTransition ∧
      (healthUpdate .healthy).step Float buried ≠ buried := by
  refine ⟨after_mem_visited _ _ _, by decide +kernel, fun h => ?_⟩
  have hhealth := congrArg (fun d => d.records.map (·.health)) h
  revert hhealth
  decide +kernel

theorem failure_leaves_no_trace_buried :
    (healthUpdate .unknown).step Float buried = buried ↔
      ¬ (healthUpdate .unknown).LateWrite buried :=
  failure_leaves_no_trace_iff Float (healthUpdate .unknown) buried illegalTransition
    nofun (by decide +kernel)

end CacheDirectory
