/-
  File:      CacheDirectory/Invariants/Outcomes.lean
  Subject:   HOW A CALL CAN END.

  One lemma for each operation that looks its subject up before it checks. Either the call failed
  and the directory is the one before, or every check passed, and the result and the directory
  behind it are named. Nothing after this file opens one of these operations.

  * `updateEvidence_cases` -- the evidence updates, with a third way to end: refused with the
    evidence written already;
  * `updateLifecycle_cases`, `updateCache_cases` -- the other updates;
  * `renewLease_cases`, `expireLease_cases`, `revokeLease_cases` -- the leases;
  * `updateEvidence_keeps` ... `revokeLease_keeps` -- what holds of the directory and of every
    directory the operation can write holds behind it.
-/
import CacheDirectory.Model.Operation

namespace CacheDirectory

open Library Directory

/-! ## 1. Updates of a record -/

/-- The record an update finds under its id, and the authority to write it. -/
structure Admitted (id : DirectoryRecordId) (env : AuthorityEnvelope) (d : Directory)
    (i : Fin d.records.length) : Prop where
  found : d.findRecordIndex id = some i
  authorised : d.checkUpdateAuthority (d.records.get i) env = none

theorem Admitted.unique {id : DirectoryRecordId} {env : AuthorityEnvelope} {d : Directory}
    {i j : Fin d.records.length} (hi : Admitted id env d i) (hj : Admitted id env d j) : i = j :=
  Option.some.inj (hi.found.symm.trans hj.found)

/-- What holds of every admitted record holds of the one there is. -/
theorem Admitted.forall_iff {id : DirectoryRecordId} {env : AuthorityEnvelope} {d : Directory}
    {i : Fin d.records.length} {P : Fin d.records.length → Prop} (hi : Admitted id env d i) :
    (∀ j, Admitted id env d j → P j) ↔ P i := by
  constructor
  · intro h
    exact h i hi
  · intro h j hj
    obtain rfl := hi.unique hj
    exact h

/-- What every accepted update writes besides its evidence. -/
def restamped (s : LifecycleState) (env : AuthorityEnvelope) (now : TimestampNs)
    (r : DirectoryRecord) : DirectoryRecord :=
  { r with
    lifecycle := s
    authority := { r.authority with fence := env.fence }
    updatedNs := now }

/-- The directory behind an accepted update. -/
def storeAt (d : Directory) (i : Fin d.records.length) (r : DirectoryRecord) : Directory :=
  { d with
    records := d.records.set i r
    accounting := updated d.accounting
    indexesDirty := true }.recomputeAccounting

section Records

variable {id : DirectoryRecordId} {env : AuthorityEnvelope} {now : TimestampNs} {d : Directory}

/-- **The three ways an evidence update ends**: refused with nothing written, refused with the
    evidence written, or done. -/
theorem updateEvidence_cases (write : DirectoryRecord → DirectoryRecord) :
    (∃ f, updateEvidence write id env now d = (.error f, d) ∧ ∀ i, ¬ Admitted id env d i) ∨
      (∃ i, Admitted id env d i ∧
        canLifecycle (d.records.get i).lifecycle
          (deriveLifecycle (write (d.records.get i))) = false ∧
        updateEvidence write id env now d = (.error illegalTransition,
          { d with records := d.records.set i (write (d.records.get i)) })) ∨
      ∃ i r, Admitted id env d i ∧
        r = restamped (deriveLifecycle (write (d.records.get i))) env now
          (write (d.records.get i)) ∧
        canLifecycle (d.records.get i).lifecycle r.lifecycle = true ∧
        updateEvidence write id env now d = (.ok r, storeAt d i r) := by
  unfold updateEvidence
  cases hfound : d.findRecordIndex id with
  | none =>
      refine .inl ⟨_, rfl, fun i hi => ?_⟩
      rw [hi.found] at hfound
      cases hfound
  | some i =>
      simp only
      cases hauth : d.checkUpdateAuthority (d.records.get i) env with
      | some f =>
          refine .inl ⟨f, rfl, fun j hj => ?_⟩
          rw [hj.found] at hfound
          cases hfound
          rw [hj.authorised] at hauth
          cases hauth
      | none =>
          cases hcan : canLifecycle (d.records.get i).lifecycle
              (deriveLifecycle (write (d.records.get i))) with
          | false => exact .inr (.inl ⟨i, ⟨hfound, hauth⟩, hcan, rfl⟩)
          | true => exact .inr (.inr ⟨i, _, ⟨hfound, hauth⟩, rfl, hcan, rfl⟩)

theorem updateLifecycle_cases (s : LifecycleState) :
    (∃ f, d.updateLifecycle id s env now = (.error f, d)) ∨
      ∃ i r, Admitted id env d i ∧ r = restamped s env now (d.records.get i) ∧
        canLifecycle (d.records.get i).lifecycle s = true ∧
        d.updateLifecycle id s env now = (.ok r, storeAt d i r) := by
  unfold updateLifecycle
  cases hfound : d.findRecordIndex id with
  | none => exact .inl ⟨_, rfl⟩
  | some i =>
      simp only
      cases hauth : d.checkUpdateAuthority (d.records.get i) env with
      | some f => exact .inl ⟨f, rfl⟩
      | none =>
          cases hcan : canLifecycle (d.records.get i).lifecycle s with
          | false => exact .inl ⟨illegalTransition, rfl⟩
          | true => exact .inr ⟨i, _, ⟨hfound, hauth⟩, rfl, hcan, rfl⟩

end Records

/-! ## 2. Updates of a cache -/

/-- What an accepted update of a cache stores. -/
def fencedCache (write : CacheDescriptor → CacheDescriptor) (env : AuthorityEnvelope)
    (c : CacheDescriptor) : CacheDescriptor :=
  { write c with authority := { (write c).authority with fence := env.fence } }

theorem updateCache_cases {write : CacheDescriptor → CacheDescriptor}
    (hwrite : ∀ c, (write c).cacheId = c.cacheId) {id : CacheId} {env : AuthorityEnvelope}
    {d : Directory} :
    (∃ f, updateCache write hwrite id env d = (.error f, d)) ∨
      ∃ c, d.caches.find id = some c ∧
        (env.epoch = d.epoch ∧ c.workerBoot = env.boot ∧ ¬ env.fence < c.authority.fence) ∧
        updateCache write hwrite id env d = (.ok (fencedCache write env c),
          { d with
            caches := d.caches.adjust (fun c => c.cacheId == id) (fencedCache write env) hwrite
            accounting := updated d.accounting
            indexesDirty := true }.recomputeAccounting) := by
  unfold updateCache
  cases hfind : d.caches.find id with
  | none => exact .inl ⟨_, rfl⟩
  | some c =>
      rcases guarded_cases _ _ _ with ⟨f, h⟩ | ⟨hpass, h⟩
      · exact .inl ⟨f, h⟩
      · refine .inr ⟨c, rfl, ?_, h⟩
        rw [firstFailure_eq_none] at hpass
        simpa using hpass

/-! ## 3. Leases -/

section Leases

variable {id : LeaseId} {env : AuthorityEnvelope} {d : Directory}

/-- The directory behind a step of a lease. -/
def leaseAt (d : Directory) (id : LeaseId) (f : LeaseDescriptor → LeaseDescriptor)
    (hf : ∀ l, (f l).leaseId = l.leaseId) : Directory :=
  { d with
    leases := d.leases.adjust (fun l => l.leaseId == id) f hf
    accounting := updated d.accounting }.recomputeAccounting

theorem renewLease_cases (now : TimestampNs) :
    (∃ f, d.renewLease id env now = (.error f, d)) ∨
      ∃ l, d.leases.find id = some l ∧
        (env.epoch = d.epoch ∧ l.holder = env.boot ∧ ¬ env.fence ≤ l.authority.fence ∧
          l.state ≠ .revoked) ∧
        d.renewLease id env now =
          (.ok (renewed env now l), leaseAt d id (renewed env now) fun _ => rfl) := by
  unfold renewLease
  cases hfind : d.leases.find id with
  | none => exact .inl ⟨_, rfl⟩
  | some l =>
      rcases guarded_cases _ _ _ with ⟨f, h⟩ | ⟨hpass, h⟩
      · exact .inl ⟨f, h⟩
      · refine .inr ⟨l, rfl, ?_, h⟩
        rw [firstFailure_eq_none] at hpass
        simpa using hpass

theorem expireLease_cases (reason : Bytes) :
    (∃ f, d.expireLease id env reason = (.error f, d)) ∨
      ∃ l, d.leases.find id = some l ∧ l.holder = env.boot ∧
        d.expireLease id env reason = (.ok { message := ascii "lease expired: " ++ reason },
          leaseAt d id
            (fun l =>
              { l with state := .expired, authority := { l.authority with fence := env.fence } })
            fun _ => rfl) := by
  unfold expireLease
  cases hfind : d.leases.find id with
  | none => exact .inl ⟨_, rfl⟩
  | some l =>
      rcases guarded_cases _ _ _ with ⟨f, h⟩ | ⟨hpass, h⟩
      · exact .inl ⟨f, h⟩
      · refine .inr ⟨l, rfl, ?_, h⟩
        rw [firstFailure_eq_none] at hpass
        simpa using hpass

theorem revokeLease_cases (reason : Bytes) :
    (∃ f, d.revokeLease id env reason = (.error f, d)) ∨
      ∃ l, d.leases.find id = some l ∧
        d.revokeLease id env reason = (.ok { message := ascii "lease revoked: " ++ reason },
          leaseAt d id (fun l => { l with state := .revoked }) fun _ => rfl) := by
  unfold revokeLease
  cases hfind : d.leases.find id with
  | none => exact .inl ⟨_, rfl⟩
  | some l => exact .inr ⟨l, rfl, rfl⟩

end Leases

/-! ## 4. What an operation keeps -/

section Keeps

variable {P : Directory → Prop} {d : Directory}

theorem updateEvidence_keeps {write : DirectoryRecord → DirectoryRecord} {id : DirectoryRecordId}
    {env : AuthorityEnvelope} {now : TimestampNs} (hd : P d)
    (hlate : ∀ i, Admitted id env d i →
      P { d with records := d.records.set i (write (d.records.get i)) })
    (hdone : ∀ i s, Admitted id env d i →
      P (storeAt d i (restamped s env now (write (d.records.get i))))) :
    P (updateEvidence write id env now d).2 := by
  rcases updateEvidence_cases write with ⟨f, h, _⟩ | ⟨i, hi, _, h⟩ | ⟨i, r, hi, rfl, _, h⟩
  · rw [h]
    exact hd
  · rw [h]
    exact hlate i hi
  · rw [h]
    exact hdone i _ hi

theorem updateLifecycle_keeps {id : DirectoryRecordId} {s : LifecycleState}
    {env : AuthorityEnvelope} {now : TimestampNs} (hd : P d)
    (hdone : ∀ i, Admitted id env d i → P (storeAt d i (restamped s env now (d.records.get i)))) :
    P (d.updateLifecycle id s env now).2 := by
  rcases updateLifecycle_cases s with ⟨f, h⟩ | ⟨i, r, hi, rfl, _, h⟩
  · rw [h]
    exact hd
  · rw [h]
    exact hdone i hi

theorem updateCache_keeps {write : CacheDescriptor → CacheDescriptor}
    {hwrite : ∀ c, (write c).cacheId = c.cacheId} {id : CacheId} {env : AuthorityEnvelope}
    (hd : P d)
    (hdone : P { d with
      caches := d.caches.adjust (fun c => c.cacheId == id) (fencedCache write env) hwrite
      accounting := updated d.accounting
      indexesDirty := true }.recomputeAccounting) :
    P (updateCache write hwrite id env d).2 := by
  rcases updateCache_cases hwrite with ⟨f, h⟩ | ⟨c, _, _, h⟩
  · rw [h]
    exact hd
  · rw [h]
    exact hdone

variable {id : LeaseId} {env : AuthorityEnvelope}

theorem renewLease_keeps {now : TimestampNs} (hd : P d)
    (hdone : P (leaseAt d id (renewed env now) fun _ => rfl)) :
    P (d.renewLease id env now).2 := by
  rcases renewLease_cases now with ⟨f, h⟩ | ⟨l, _, _, h⟩
  · rw [h]
    exact hd
  · rw [h]
    exact hdone

theorem expireLease_keeps {reason : Bytes} (hd : P d)
    (hdone : P (leaseAt d id
      (fun l => { l with state := .expired, authority := { l.authority with fence := env.fence } })
      fun _ => rfl)) : P (d.expireLease id env reason).2 := by
  rcases expireLease_cases reason with ⟨f, h⟩ | ⟨l, _, _, h⟩
  · rw [h]
    exact hd
  · rw [h]
    exact hdone

theorem revokeLease_keeps {reason : Bytes} (hd : P d)
    (hdone : P (leaseAt d id (fun l => { l with state := .revoked }) fun _ => rfl)) :
    P (d.revokeLease id env reason).2 := by
  rcases revokeLease_cases reason with ⟨f, h⟩ | ⟨l, _, h⟩
  · rw [h]
    exact hd
  · rw [h]
    exact hdone

end Keeps

end CacheDirectory
