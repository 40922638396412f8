/-
  File:      CacheDirectory/Model/Invalidation.lean
  Subject:   INVALIDATION AND TOMBSTONES (directory.cpp, second half).

  The five invalidations run over the records with a selection and an assignment of their own
  (`invalidateRecords`); `invalidate_location` and `invalidate_cache` also mark the descriptor.
  The clock is read once for each record that is marked.
-/
import CacheDirectory.Model.Updates

namespace CacheDirectory

open Library

namespace Directory

/-! ## 1. Invalidation -/

/-- `++accounting_.invalidations`. -/
def invalidated (a : Accounting) : Accounting := { a with invalidations := a.invalidations + 1 }

/-- Current records that pass `sel` lose their standing; `also` is what else is assigned. -/
def invalidateRecords (sel : DirectoryRecord → Bool) (also : DirectoryRecord → DirectoryRecord)
    (clk : Nat → TimestampNs) (records : List DirectoryRecord) : List DirectoryRecord :=
  records.mapIdx fun i r =>
    if sel r && r.current then
      also { r with current := false, lifecycle := .invalidated, updatedNs := clk i }
    else r

def countSelected (sel : DirectoryRecord → Bool) (records : List DirectoryRecord) : UInt32 :=
  .ofNat (records.countP fun r => sel r && r.current)

/-- What all five have in common: the epoch check, the marking `act`, the accounting. -/
def invalidateWith (env : AuthorityEnvelope) (affected : UInt32) (message : Bytes)
    (act : Directory → Directory) (d : Directory) : Result InvalidateResult × Directory :=
  guarded
    [(env.epoch != d.epoch, ⟨.staleEpoch, "stale epoch"⟩)]
    d
    ({ ok := true, affectedRecords := affected, message := message },
      { act d with
        accounting := invalidated d.accounting
        indexesDirty := true }.recomputeAccounting)

/-- A record of another incarnation is passed over only when the caller's boot is not live. -/
def selectState (d : Directory) (s : StateId) (g : StateGeneration) (env : AuthorityEnvelope)
    (r : DirectoryRecord) : Bool :=
  r.stateId == s && r.stateGeneration == g &&
    !(r.authority.boot != env.boot && !d.workerLive env.boot)

def invalidateState (s : StateId) (g : StateGeneration) (env : AuthorityEnvelope)
    (reason : Bytes) (clk : Nat → TimestampNs) (d : Directory) :
    Result InvalidateResult × Directory :=
  let affected := countSelected (d.selectState s g env) d.records
  d.invalidateWith env affected
    (ascii s!"invalidated {affected.toNat} record(s): " ++ reason)
    fun d => { d with records := invalidateRecords (d.selectState s g env) id clk d.records }

def invalidateLocation (loc : LocationId) (env : AuthorityEnvelope) (reason : Bytes)
    (clk : Nat → TimestampNs) (d : Directory) : Result InvalidateResult × Directory :=
  d.invalidateWith env (countSelected (fun r => r.location == loc) d.records)
    (ascii "invalidated location: " ++ reason)
    fun d =>
      { d with
        records := invalidateRecords (fun r => r.location == loc)
          (fun r => { r with reachability := .unreachable }) clk d.records
        locations := d.locations.adjust (fun l => l.locationId == loc)
          (fun l => { l with reachability := .unreachable, freshness := .stale }) fun _ => rfl }

def invalidateReplica (rep : ReplicaId) (env : AuthorityEnvelope) (reason : Bytes)
    (clk : Nat → TimestampNs) (d : Directory) : Result InvalidateResult × Directory :=
  d.invalidateWith env (countSelected (fun r => r.replica == rep) d.records)
    (ascii "invalidated replica: " ++ reason)
    fun d => { d with records := invalidateRecords (fun r => r.replica == rep) id clk d.records }

def invalidateCache (c : CacheId) (env : AuthorityEnvelope) (reason : Bytes)
    (clk : Nat → TimestampNs) (d : Directory) : Result InvalidateResult × Directory :=
  d.invalidateWith env (countSelected (fun r => r.cache == c) d.records)
    (ascii "invalidated cache: " ++ reason)
    fun d =>
      { d with
        records := invalidateRecords (fun r => r.cache == c) id clk d.records
        caches := d.caches.adjust (fun cd => cd.cacheId == c)
          (fun cd => { cd with reachability := .unreachable, health := .unavailable })
          fun _ => rfl }

def invalidateWorkerBoot (b : WorkerBootId) (env : AuthorityEnvelope) (reason : Bytes)
    (clk : Nat → TimestampNs) (d : Directory) : Result InvalidateResult × Directory :=
  d.invalidateWith env (countSelected (fun r => r.workerBoot == b) d.records)
    (ascii "invalidated worker boot: " ++ reason)
    fun d =>
      { d with
        records := invalidateRecords (fun r => r.workerBoot == b)
          (fun r => { r with reachability := .unreachable }) clk d.records }

/-! ## 2. Tombstones -/

/-- What a tombstone does to a record: only one of kind STATE does anything. -/
def buryRecord (t : TombstoneTarget) (r : DirectoryRecord) : DirectoryRecord :=
  if t.kind == .state && r.stateId == t.state && r.stateGeneration.value ≤ t.generationFloor then
    { r with lifecycle := .tombstoned, current := false }
  else r

def tombstone (t : TombstoneRecord) (d : Directory) : Result AckResult × Directory :=
  guarded
    [(t.tombstoneId.isNull, ⟨.invalidIdentity, "empty TombstoneId"⟩),
      (t.epoch != d.epoch, ⟨.staleEpoch, "stale epoch"⟩),
      (!d.workerLive t.workerBoot, ⟨.noAuthority, "tombstone author not live"⟩)]
    d
    ({ message := ascii s!"tombstone {t.tombstoneId.str} recorded" }, { d with
      tombstones := d.tombstones ++ [t]
      records := d.records.map (buryRecord t.target)
      accounting := { d.accounting with tombstones := d.accounting.tombstones + 1 }
      indexesDirty := true }.recomputeAccounting)

end Directory

end CacheDirectory
