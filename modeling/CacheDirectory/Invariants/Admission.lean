/-
  File:      CacheDirectory/Invariants/Admission.lean
  Subject:   WHEN A CALL IS ACCEPTED.

  One lemma for each operation that asks for authority: it is accepted exactly when its subject
  is on file and every check of the source passes. What the laws of authority need of an
  operation is read off these.

  * `accepted_guarded` -- a guarded operation;
  * `accepted_registerCache` ... `accepted_tombstone` -- the operations that put something on
    file;
  * `accepted_updateLifecycle` ... `accepted_revokeLease` -- the operations on what is on file;
  * `refused_updateEvidence` -- the evidence updates, which can fail and still write;
  * `refused_iff` -- for all others refusal is failure.
-/
import CacheDirectory.Invariants.Failures

namespace CacheDirectory

open Library Directory

/-- The call fails and changes nothing. -/
def Operation.Refused (F : Type) [ScoreArith F] (op : Operation) (d : Directory) : Prop :=
  ¬ op.Accepted F d ∧ op.step F d = d

/-! ## 1. Putting things on file -/

section Accepted

variable {F : Type} [ScoreArith F] {d : Directory}

theorem accepted_guarded {α : Type} {checks : List (Bool × Failure)} {act : α × Directory} :
    (Operation.report (guarded checks d act)).1 = none ↔ ∀ c ∈ checks, c.1 = false := by
  rw [← firstFailure_eq_none]
  refine ⟨fun h => (accepted_report_guarded h).1, fun hpass => ?_⟩
  rw [guarded_of_none hpass]
  rfl

theorem accepted_registerCache {cache : CacheDescriptor} :
    (Operation.registerCache cache).Accepted F d ↔
      cache.cacheId.isNull = false ∧ cache.workerBoot.isNull = false ∧
        cache.authority.epoch = d.epoch ∧ d.workerLive cache.workerBoot = true ∧
        ∀ c, d.caches.find cache.cacheId = some c →
          c.workerBoot = cache.workerBoot ∧ ¬ cache.authority.fence < c.authority.fence := by
  refine accepted_guarded.trans ?_
  cases d.caches.find cache.cacheId with
  | none => simp
  | some c => simp

theorem accepted_registerLocation {loc : LocationDescriptor} :
    (Operation.registerLocation loc).Accepted F d ↔
      loc.locationId.isNull = false ∧ loc.workerBoot.isNull = false ∧
        loc.locator.key.isEmpty = false ∧ loc.authority.epoch = d.epoch ∧
        d.workerLive loc.workerBoot = true ∧
        ∀ l, d.locations.find loc.locationId = some l →
          l.workerBoot = loc.workerBoot ∧ ¬ loc.authority.fence < l.authority.fence ∧
            ¬ loc.generation.value < l.generation.value := by
  refine accepted_guarded.trans ?_
  cases d.locations.find loc.locationId with
  | none => simp
  | some l => simp

theorem accepted_registerReplica {replica : ReplicaDescriptor} :
    (Operation.registerReplica replica).Accepted F d ↔
      replica.replicaId.isNull = false ∧ d.locations.contains replica.location = true ∧
        replica.authority.epoch = d.epoch ∧ d.workerLive replica.authority.boot = true ∧
        ∀ r, d.replicas.find replica.replicaId = some r →
          r.authority.boot = replica.authority.boot := by
  refine accepted_guarded.trans ?_
  cases d.replicas.find replica.replicaId with
  | none => simp
  | some r => simp

theorem accepted_registerLease {lease : LeaseDescriptor} :
    (Operation.registerLease lease).Accepted F d ↔
      lease.leaseId.isNull = false ∧ lease.holder.isNull = false ∧
        lease.authority.epoch = d.epoch ∧ d.workerLive lease.holder = true ∧
        ∀ l, d.leases.find lease.leaseId = some l → l.holder = lease.holder := by
  refine accepted_guarded.trans ?_
  cases d.leases.find lease.leaseId with
  | none => simp
  | some l => simp

theorem accepted_tombstone {t : TombstoneRecord} :
    (Operation.tombstone t).Accepted F d ↔
      t.tombstoneId.isNull = false ∧ t.epoch = d.epoch ∧ d.workerLive t.workerBoot = true := by
  refine accepted_guarded.trans ?_
  simp

/-- A tombstone that is refused writes nothing. -/
theorem tombstone_refused {t : TombstoneRecord} (h : ¬ (Operation.tombstone t).Accepted F d) :
    (Operation.tombstone t).step F d = d := by
  show (d.tombstone t).2 = d
  have hreport : (Operation.report (d.tombstone t)).1 ≠ none := h
  cases hout : (d.tombstone t).1 with
  | ok a => exact absurd (report_eq_none.mpr ⟨a, hout⟩) hreport
  | error f => exact guarded_failed hout

/-- What an admitted registration of a record says of its authority. -/
theorem authority_of_registerEntry {record : DirectoryRecord} {clk : Nat → TimestampNs}
    (h : (Operation.registerEntry record clk).Accepted F d) :
    record.authority.epoch = d.epoch ∧ d.workerLive record.authority.boot = true := by
  have hdep := (checkRegistration_eq_none.mp (accepted_registerEntry.mp h)).1
  have hall := firstFailure_eq_none.mp hdep
  simp only [dependencyChecks, List.forall_mem_cons] at hall
  obtain ⟨_, _, _, _, _, hepoch, hlive, _⟩ := hall
  exact ⟨by simpa using hepoch, by simpa using hlive⟩

/-! ## 2. Changing what is on file -/

theorem authorised_iff {r : DirectoryRecord} {env : AuthorityEnvelope} :
    d.checkUpdateAuthority r env = none ↔
      env.epoch = d.epoch ∧ r.authority.boot = env.boot ∧ ¬ env.fence < r.authority.fence := by
  unfold checkUpdateAuthority
  rw [firstFailure_eq_none]
  simp

theorem accepted_updateLifecycle {id : DirectoryRecordId} {s : LifecycleState}
    {env : AuthorityEnvelope} {now : TimestampNs} :
    (Operation.updateLifecycle id s env now).Accepted F d ↔
      ∃ i, Admitted id env d i ∧ canLifecycle (d.records.get i).lifecycle s = true := by
  show (Operation.report (d.updateLifecycle id s env now)).1 = none ↔ _
  constructor
  · intro h
    rcases @updateLifecycle_cases id env now d s with
      ⟨f, hend⟩ | ⟨i, r, hi, rfl, hcan, _⟩
    · rw [hend] at h
      cases h
    · exact ⟨i, hi, hcan⟩
  · intro h
    obtain ⟨i, hi, hcan⟩ := h
    unfold updateLifecycle
    rw [hi.found]
    simp only [hi.authorised, hcan]
    rfl

theorem accepted_updateCache {write : CacheDescriptor → CacheDescriptor}
    {hwrite : ∀ c, (write c).cacheId = c.cacheId} {id : CacheId} {env : AuthorityEnvelope} :
    (Operation.report (updateCache write hwrite id env d)).1 = none ↔
      ∃ c, d.caches.find id = some c ∧ env.epoch = d.epoch ∧ c.workerBoot = env.boot ∧
        ¬ env.fence < c.authority.fence := by
  unfold updateCache
  cases hfind : d.caches.find id with
  | none => simp [Operation.report]
  | some c =>
      refine accepted_guarded.trans ?_
      simp

theorem accepted_renewLease {id : LeaseId} {env : AuthorityEnvelope} {now : TimestampNs} :
    (Operation.renewLease id env now).Accepted F d ↔
      ∃ l, d.leases.find id = some l ∧ env.epoch = d.epoch ∧ l.holder = env.boot ∧
        ¬ env.fence ≤ l.authority.fence ∧ l.state ≠ .revoked := by
  show (Operation.report (d.renewLease id env now)).1 = none ↔ _
  unfold renewLease
  cases hfind : d.leases.find id with
  | none => simp [Operation.report]
  | some l =>
      refine accepted_guarded.trans ?_
      simp

theorem accepted_expireLease {id : LeaseId} {env : AuthorityEnvelope} {reason : Bytes} :
    (Operation.expireLease id env reason).Accepted F d ↔
      ∃ l, d.leases.find id = some l ∧ l.holder = env.boot := by
  show (Operation.report (d.expireLease id env reason)).1 = none ↔ _
  unfold expireLease
  cases hfind : d.leases.find id with
  | none => simp [Operation.report]
  | some l =>
      refine accepted_guarded.trans ?_
      simp

theorem accepted_revokeLease {id : LeaseId} {env : AuthorityEnvelope} {reason : Bytes} :
    (Operation.revokeLease id env reason).Accepted F d ↔ ∃ l, d.leases.find id = some l := by
  show (Operation.report (d.revokeLease id env reason)).1 = none ↔ _
  unfold revokeLease
  cases hfind : d.leases.find id with
  | none => simp [Operation.report]
  | some l => exact iff_of_true rfl ⟨l, rfl⟩

/-- Behind an expiry that succeeds. -/
theorem expireLease_behind {id : LeaseId} {env : AuthorityEnvelope} {reason : Bytes}
    (h : (Operation.expireLease id env reason).Accepted F d) :
    (d.expireLease id env reason).2 = leaseAt d id
      (fun l => { l with state := .expired, authority := { l.authority with fence := env.fence } })
      fun _ => rfl := by
  rcases @expireLease_cases id env d reason with ⟨f, hend⟩ | ⟨_, _, _, hend⟩
  · obtain ⟨a, ha⟩ := report_eq_none.mp h
    rw [hend] at ha
    cases ha
  · rw [hend]

/-- Behind a revocation that succeeds. -/
theorem revokeLease_behind {id : LeaseId} {env : AuthorityEnvelope} {reason : Bytes}
    (h : (Operation.revokeLease id env reason).Accepted F d) :
    (d.revokeLease id env reason).2 =
      leaseAt d id (fun l => { l with state := .revoked }) fun _ => rfl := by
  rcases @revokeLease_cases id env d reason with ⟨f, hend⟩ | ⟨_, _, hend⟩
  · obtain ⟨a, ha⟩ := report_eq_none.mp h
    rw [hend] at ha
    cases ha
  · rw [hend]

theorem accepted_invalidateWith {env : AuthorityEnvelope} {affected : UInt32} {message : Bytes}
    {act : Directory → Directory} :
    (Operation.report (d.invalidateWith env affected message act)).1 = none ↔
      env.epoch = d.epoch := by
  refine accepted_guarded.trans ?_
  simp

end Accepted

/-! ## 3. Refusal -/

section Refused

variable {F : Type} [ScoreArith F] {d : Directory}

/-- An operation that checks first is refused exactly when it fails. -/
theorem refused_iff {op : Operation} (hev : op.evidence = none) (hop : op ≠ .validateIndexes) :
    op.Refused F d ↔ ¬ op.Accepted F d :=
  ⟨fun h => h.1, fun h => ⟨h, rejected_step hev hop h⟩⟩

/-- The record is found and the authority granted, and where the lifecycle derives no successor
    the evidence is news. -/
def Writes (write : DirectoryRecord → DirectoryRecord) (id : DirectoryRecordId)
    (env : AuthorityEnvelope) (d : Directory) : Prop :=
  ∃ i, Admitted id env d i ∧
    ((d.records.get i).lifecycle = .tombstoned ∨ (d.records.get i).lifecycle = .superseded →
      write (d.records.get i) ≠ d.records.get i)

/-- **An evidence update is refused** unless it writes: an admitted one goes through, or fails
    late and leaves its evidence behind. -/
theorem refused_updateEvidence {write : DirectoryRecord → DirectoryRecord}
    {id : DirectoryRecordId} {env : AuthorityEnvelope} {now : TimestampNs} :
    ((Operation.report (updateEvidence write id env now d)).1 ≠ none ∧
        (updateEvidence write id env now d).2 = d) ↔ ¬ Writes write id env d := by
  unfold Writes
  rcases @updateEvidence_cases id env now d write with
    ⟨f, hend, hnone⟩ | ⟨i, hi, hcan, hend⟩ | ⟨i, r, hi, rfl, hcan, hend⟩
  · rw [hend]
    refine iff_of_true ⟨by simp [Operation.report], rfl⟩ ?_
    intro h
    obtain ⟨i, hi, _⟩ := h
    exact hnone i hi
  · have hfrozen := (canLifecycle_derived _ _).mp hcan
    have hlate := failed_updateEvidence (congrArg Prod.fst hend)
    have hfails : (Operation.report (updateEvidence write id env now d)).1 ≠ none := by
      rw [hend]
      simp [Operation.report]
    rw [and_iff_right hfails, hlate]
    refine not_congr (exists_congr fun j => ?_)
    constructor
    · intro h
      obtain ⟨hj, hne⟩ := h
      exact ⟨⟨hj.found, hj.authorised⟩, fun _ => hne⟩
    · intro h
      obtain ⟨hj, hne⟩ := h
      obtain rfl := hi.unique hj
      exact ⟨⟨hj.found, hj.authorised, hfrozen⟩, hne hfrozen⟩
  · have hopen : ¬ ((d.records.get i).lifecycle = .tombstoned ∨
        (d.records.get i).lifecycle = .superseded) := by
      intro hfrozen
      have hno : canLifecycle (d.records.get i).lifecycle
          (deriveLifecycle (write (d.records.get i))) = false :=
        (canLifecycle_derived _ _).mpr hfrozen
      rw [show canLifecycle (d.records.get i).lifecycle
        (deriveLifecycle (write (d.records.get i))) = true from hcan] at hno
      cases hno
    refine iff_of_false ?_ fun hno => hno ⟨i, hi, fun hfrozen => absurd hfrozen hopen⟩
    rw [hend]
    intro h
    obtain ⟨hfails, _⟩ := h
    exact hfails rfl

end Refused

end CacheDirectory
