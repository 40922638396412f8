/-
  File:      CacheDirectory/Model/Updates.lean
  Subject:   CONTROLLED UPDATES AND LEASES (directory.cpp, middle part).

  The four evidence updates share one body, `updateEvidence`, which stores the new evidence
  BEFORE the lifecycle transition is checked: where that check fails, the field keeps what was
  written and nothing else of the operation happens. `updateLifecycle` checks first. The lease
  operations on a stored lease recount the accounting and leave the dirty flag alone.
-/
import CacheDirectory.Model.Registration

namespace CacheDirectory

open Library

namespace Directory

/-! ## 1. Lifecycle and authority -/

def canLifecycle (before after : LifecycleState) : Bool :=
  if before == .tombstoned then after == .tombstoned
  else if before == .superseded then after == .tombstoned
  else true

def deriveLifecycle (r : DirectoryRecord) : LifecycleState :=
  if !r.current && r.lifecycle == .superseded then .superseded
  else if r.integrity == .corrupt then .failed
  else if r.integrity == .missing then .missing
  else if r.reachability == .unreachable then .unreachable
  else if r.health == .unavailable then .unreachable
  else if r.hasLease && r.lease.state == .expired then .expired
  else if r.freshness == .stale then .stale
  else if r.health == .degraded || r.reachability == .degraded then .degraded
  else if r.lifecycle == .invalidated then .invalidated
  else .available

def checkUpdateAuthority (d : Directory) (rec' : DirectoryRecord) (env : AuthorityEnvelope) :
    Option Failure :=
  firstFailure
    [(env.epoch != d.epoch, ⟨.staleEpoch, "stale epoch"⟩),
      (rec'.authority.boot != env.boot, ⟨.staleWorkerBoot, "not the owning incarnation"⟩),
      (env.fence < rec'.authority.fence, ⟨.staleAuthority, "stale authority fence"⟩)]

/-- `++accounting_.updates`. -/
def updated (a : Accounting) : Accounting := { a with updates := a.updates + 1 }

/-! ## 2. Records -/

def noSuchRecord : Failure := ⟨.invalidIdentity, "no such record"⟩

def illegalTransition : Failure := ⟨.invalidStateTransition, "illegal lifecycle transition"⟩

/-- The body of `update_health`, `update_freshness`, `update_reachability` and
    `update_integrity`; `write` is the assignment of the one field. -/
def updateEvidence (write : DirectoryRecord → DirectoryRecord) (id : DirectoryRecordId)
    (env : AuthorityEnvelope) (now : TimestampNs) (d : Directory) :
    Result DirectoryRecord × Directory :=
  match d.findRecordIndex id with
  | none => (.error noSuchRecord, d)
  | some i =>
      match d.checkUpdateAuthority (d.records.get i) env with
      | some f => (.error f, d)
      | none =>
          let r := write (d.records.get i)
          let after := deriveLifecycle r
          if !canLifecycle (d.records.get i).lifecycle after then
            -- the field has been written already
            (.error illegalTransition, { d with records := d.records.set i r })
          else
            let r : DirectoryRecord :=
              { r with
                lifecycle := after
                authority := { r.authority with fence := env.fence }
                updatedNs := now }
            (.ok r, { d with
              records := d.records.set i r
              accounting := updated d.accounting
              indexesDirty := true }.recomputeAccounting)

def updateHealth (id : DirectoryRecordId) (h : Health) (env : AuthorityEnvelope)
    (now : TimestampNs) : Directory → Result DirectoryRecord × Directory :=
  updateEvidence (fun r => { r with health := h }) id env now

def updateFreshness (id : DirectoryRecordId) (f : Freshness) (env : AuthorityEnvelope)
    (now : TimestampNs) : Directory → Result DirectoryRecord × Directory :=
  updateEvidence (fun r => { r with freshness := f }) id env now

def updateReachability (id : DirectoryRecordId) (reach : Reachability) (env : AuthorityEnvelope)
    (now : TimestampNs) : Directory → Result DirectoryRecord × Directory :=
  updateEvidence (fun r => { r with reachability := reach }) id env now

def updateIntegrity (id : DirectoryRecordId) (integ : Integrity) (env : AuthorityEnvelope)
    (now : TimestampNs) : Directory → Result DirectoryRecord × Directory :=
  updateEvidence (fun r => { r with integrity := integ }) id env now

def updateLifecycle (id : DirectoryRecordId) (s : LifecycleState) (env : AuthorityEnvelope)
    (now : TimestampNs) (d : Directory) : Result DirectoryRecord × Directory :=
  match d.findRecordIndex id with
  | none => (.error noSuchRecord, d)
  | some i =>
      match d.checkUpdateAuthority (d.records.get i) env with
      | some f => (.error f, d)
      | none =>
          let r := d.records.get i
          if !canLifecycle r.lifecycle s then (.error illegalTransition, d)
          else
            let r : DirectoryRecord :=
              { r with
                lifecycle := s
                authority := { r.authority with fence := env.fence }
                updatedNs := now }
            (.ok r, { d with
              records := d.records.set i r
              accounting := updated d.accounting
              indexesDirty := true }.recomputeAccounting)

/-! ## 3. Caches -/

/-- The body of `update_cache_health` and `update_cache_capacity`; `write` assigns the fields. -/
def updateCache (write : CacheDescriptor → CacheDescriptor)
    (hwrite : ∀ c, (write c).cacheId = c.cacheId) (id : CacheId) (env : AuthorityEnvelope)
    (d : Directory) : Result CacheDescriptor × Directory :=
  match d.caches.find id with
  | none => (.error ⟨.invalidIdentity, "no such cache"⟩, d)
  | some c =>
      guarded
        [(env.epoch != d.epoch, ⟨.staleEpoch, "stale epoch"⟩),
          (c.workerBoot != env.boot, ⟨.staleWorkerBoot, "cache owned by another incarnation"⟩),
          (env.fence < c.authority.fence, ⟨.staleAuthority, "stale authority"⟩)]
        d
        (let fenced (c : CacheDescriptor) : CacheDescriptor :=
          { write c with authority := { (write c).authority with fence := env.fence } }
        (fenced c, { d with
          caches := d.caches.adjust (fun c => c.cacheId == id) fenced hwrite
          accounting := updated d.accounting
          indexesDirty := true }.recomputeAccounting))

def updateCacheHealth (id : CacheId) (h : Health) (reach : Reachability)
    (env : AuthorityEnvelope) : Directory → Result CacheDescriptor × Directory :=
  updateCache (fun c => { c with health := h, reachability := reach }) (fun _ => rfl) id env

def updateCacheCapacity (id : CacheId) (capacity freeCapacity : UInt64)
    (env : AuthorityEnvelope) : Directory → Result CacheDescriptor × Directory :=
  updateCache
    (fun c =>
      { c with
        capacity := capacity
        capacityKnown := true
        freeCapacity := freeCapacity
        freeCapacityKnown := true })
    (fun _ => rfl) id env

/-! ## 4. Leases -/

def registerLease (lease : LeaseDescriptor) (d : Directory) : Result LeaseDescriptor × Directory :=
  guarded
    [(lease.leaseId.isNull, ⟨.invalidIdentity, "empty LeaseId"⟩),
      (lease.holder.isNull, ⟨.invalidIdentity, "empty holder"⟩),
      (lease.authority.epoch != d.epoch, ⟨.staleEpoch, "stale epoch"⟩),
      (!d.workerLive lease.holder, ⟨.noAuthority, "holder not live"⟩),
      ((d.leases.find lease.leaseId).any fun l => l.holder != lease.holder,
        ⟨.staleWorkerBoot, "lease held by another incarnation"⟩)]
    d
    (lease, { d with
      leases := d.leases.put lease
      accounting := registered d.accounting
      indexesDirty := true }.recomputeAccounting)

def noSuchLease : Failure := ⟨.invalidIdentity, "no such lease"⟩

/-- The start is overwritten first, so the term added to it is taken from the NEW start. -/
def renewed (env : AuthorityEnvelope) (now : TimestampNs) (l : LeaseDescriptor) :
    LeaseDescriptor :=
  { l with
    startNs := now
    expiryNs := if l.expires then now + (l.expiryNs - now) else l.expiryNs
    state := .active
    generation := ⟨l.generation.value + 1⟩
    authority := { l.authority with fence := env.fence, boot := env.boot } }

def renewLease (id : LeaseId) (env : AuthorityEnvelope) (now : TimestampNs) (d : Directory) :
    Result LeaseDescriptor × Directory :=
  match d.leases.find id with
  | none => (.error noSuchLease, d)
  | some l =>
      guarded
        [(env.epoch != d.epoch, ⟨.staleEpoch, "stale epoch"⟩),
          (l.holder != env.boot, ⟨.staleWorkerBoot, "stale lease renewal from non-holder"⟩),
          (env.fence ≤ l.authority.fence, ⟨.staleAuthority, "stale lease authority"⟩),
          (l.state == .revoked, ⟨.failedLeaseValidation, "lease revoked"⟩)]
        d
        (renewed env now l, { d with
          leases := d.leases.adjust (fun l => l.leaseId == id) (renewed env now) fun _ => rfl
          accounting := updated d.accounting }.recomputeAccounting)

/-- No epoch check. -/
def expireLease (id : LeaseId) (env : AuthorityEnvelope) (reason : Bytes) (d : Directory) :
    Result AckResult × Directory :=
  match d.leases.find id with
  | none => (.error noSuchLease, d)
  | some l =>
      guarded
        [(l.holder != env.boot, ⟨.staleWorkerBoot, "stale lease expiry"⟩)]
        d
        ({ message := ascii "lease expired: " ++ reason }, { d with
          leases := d.leases.adjust (fun l => l.leaseId == id)
            (fun l =>
              { l with state := .expired, authority := { l.authority with fence := env.fence } })
            fun _ => rfl
          accounting := updated d.accounting }.recomputeAccounting)

/-- No authority is asked for. -/
def revokeLease (id : LeaseId) (_env : AuthorityEnvelope) (reason : Bytes) (d : Directory) :
    Result AckResult × Directory :=
  match d.leases.find id with
  | none => (.error noSuchLease, d)
  | some _ =>
      (.ok { message := ascii "lease revoked: " ++ reason }, { d with
        leases := d.leases.adjust (fun l => l.leaseId == id)
          (fun l => { l with state := .revoked }) fun _ => rfl
        accounting := updated d.accounting }.recomputeAccounting)

end Directory

end CacheDirectory
