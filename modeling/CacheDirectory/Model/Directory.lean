/-
  File:      CacheDirectory/Model/Directory.lean
  Subject:   THE STATE OF A DIRECTORY (directory.hpp, accounting.hpp, errors.hpp).

  The canonical state (records, descriptors, leases, tombstones, observations, the per-state
  generation map, sessions), the accounting derived from it, and the cached indexes with their
  dirty flag. A map of the source files a value under an id the value itself holds, so it is a
  `KeyedMap`. An operation of the directory is a function
  `Directory → Result α × Directory`.
-/
import CacheDirectory.Library.KeyedMap
import CacheDirectory.Library.Guarded
import CacheDirectory.Model.Records
import Mathlib.Data.List.Dedup

namespace CacheDirectory

open Library

/-! ## 1. Results -/

/-- The failure half of `Result<T>`. -/
structure Failure where
  error : DirectoryError
  errorText : String := ""
  deriving DecidableEq, Repr

abbrev Result (α : Type) := Except Failure α

structure AckResult where
  ok : Bool := true
  message : Bytes := []
  deriving DecidableEq

structure InvalidateResult where
  ok : Bool := false
  affectedRecords : UInt32 := 0
  message : Bytes := []
  deriving DecidableEq

/-! ## 2. Sessions, accounting, indexes, policy -/

/-- One incarnation of a worker. -/
structure WorkerSession where
  boot : WorkerBootId := {}
  worker : WorkerId := {}
  node : NodeId := {}
  tag : Bytes := []
  live : Bool := false
  sourceAuthority : UInt64 := 0
  deriving DecidableEq

/-- Gauges and event counters; an `int64_t` of the source is an integer. -/
structure Accounting where
  caches : Int := 0
  currentRecords : Int := 0
  historicalRecords : Int := 0
  logicalStates : Int := 0
  replicas : Int := 0
  locations : Int := 0
  cudaLocations : Int := 0
  hostLocations : Int := 0
  storageLocations : Int := 0
  reachableRecords : Int := 0
  staleRecords : Int := 0
  degradedRecords : Int := 0
  corruptRecords : Int := 0
  activeLeases : Int := 0
  expiredLeases : Int := 0
  invalidations : Int := 0
  tombstones : Int := 0
  registrations : Int := 0
  updates : Int := 0
  queries : Int := 0
  localHits : Int := 0
  remoteHits : Int := 0
  misses : Int := 0
  staleOnlyOutcomes : Int := 0
  unreachableOnlyOutcomes : Int := 0
  integrityFailures : Int := 0
  staleMutationRejections : Int := 0
  duplicateConflictRejections : Int := 0
  workerRestarts : Int := 0
  deriving DecidableEq

namespace Accounting

/-- `DCD_ACCT_FIELDS`, with the names the checks print. -/
def fields (a : Accounting) : List (String × Int) :=
  [("caches", a.caches), ("current_records", a.currentRecords),
    ("historical_records", a.historicalRecords), ("logical_states", a.logicalStates),
    ("replicas", a.replicas), ("locations", a.locations), ("cuda_locations", a.cudaLocations),
    ("host_locations", a.hostLocations), ("storage_locations", a.storageLocations),
    ("reachable_records", a.reachableRecords), ("stale_records", a.staleRecords),
    ("degraded_records", a.degradedRecords), ("corrupt_records", a.corruptRecords),
    ("active_leases", a.activeLeases), ("expired_leases", a.expiredLeases),
    ("invalidations", a.invalidations), ("tombstones", a.tombstones),
    ("registrations", a.registrations), ("updates", a.updates), ("queries", a.queries),
    ("local_hits", a.localHits), ("remote_hits", a.remoteHits), ("misses", a.misses),
    ("stale_only_outcomes", a.staleOnlyOutcomes),
    ("unreachable_only_outcomes", a.unreachableOnlyOutcomes),
    ("integrity_failures", a.integrityFailures),
    ("stale_mutation_rejections", a.staleMutationRejections),
    ("duplicate_conflict_rejections", a.duplicateConflictRejections),
    ("worker_restarts", a.workerRestarts)]

/-- `validate`: the problem it leaves behind is the LAST negative counter. -/
def validate (a : Accounting) : Option String :=
  (a.fields.reverse.find? fun f => f.2 < 0).map fun f => f.1 ++ " is negative"

end Accounting

/-- A multimap from a key to positions in the record vector. -/
abbrev Multimap (κ : Type) := List (κ × Nat)

structure DirectoryIndexes where
  byState : Multimap StateId := []
  byStateGeneration : Multimap StateGeneration := []
  byCache : Multimap CacheId := []
  byEntry : Multimap CacheEntryId := []
  byReplica : Multimap ReplicaId := []
  byLocation : Multimap LocationId := []
  byNode : Multimap NodeId := []
  byWorker : Multimap WorkerId := []
  byBoot : Multimap WorkerBootId := []
  byDevice : Multimap DeviceId := []
  byDomain : Multimap UInt8 := []
  byDigest : Multimap String := []
  byFreshness : Multimap UInt8 := []
  byHealth : Multimap UInt8 := []
  byIntegrity : Multimap UInt8 := []
  byReachability : Multimap UInt8 := []
  byLifecycle : Multimap UInt8 := []
  byCompatibility : Multimap CompatibilityId := []
  deriving DecidableEq

/-- The default weights 4, 3, 2, 1 and 0.5, as doubles. -/
structure RankingPolicy where
  exactGenerationW : F64 := ⟨0x4010000000000000⟩
  sameProcessW : F64 := ⟨0x4008000000000000⟩
  sameDeviceW : F64 := ⟨0x4000000000000000⟩
  sameNodeW : F64 := ⟨0x3FF0000000000000⟩
  sameNumaW : F64 := ⟨0x3FE0000000000000⟩
  domainPreferenceW : F64 := ⟨0x3FF0000000000000⟩
  reachabilityW : F64 := ⟨0x4008000000000000⟩
  healthW : F64 := ⟨0x4008000000000000⟩
  freshnessW : F64 := ⟨0x4010000000000000⟩
  integrityW : F64 := ⟨0x4010000000000000⟩
  latencyW : F64 := ⟨0x3FF0000000000000⟩
  bandwidthW : F64 := ⟨0x3FF0000000000000⟩
  transferBytesW : F64 := ⟨0x3FE0000000000000⟩
  stagingW : F64 := ⟨0x3FE0000000000000⟩
  restoreW : F64 := ⟨0x3FE0000000000000⟩
  replicaDiversityW : F64 := ⟨0x3FE0000000000000⟩
  policyPreferenceW : F64 := ⟨0x3FE0000000000000⟩
  deriving DecidableEq

/-! ## 3. The directory -/

structure Directory where
  epoch : CoordinatorEpoch := ⟨1⟩
  directoryGeneration : DirectoryGeneration := ⟨0⟩
  records : List DirectoryRecord := []
  caches : KeyedMap CacheDescriptor.cacheId := ∅
  locations : KeyedMap LocationDescriptor.locationId := ∅
  replicas : KeyedMap ReplicaDescriptor.replicaId := ∅
  leases : KeyedMap LeaseDescriptor.leaseId := ∅
  tombstones : List TombstoneRecord := []
  observations : List ObservationRecord := []
  currentStateGen : KeyedMap (Prod.fst : StateId × StateGeneration → StateId) := ∅
  workers : KeyedMap WorkerSession.boot := ∅
  accounting : Accounting := {}
  policy : RankingPolicy := {}
  indexes : DirectoryIndexes := {}
  indexesDirty : Bool := true
  nextObj : UInt64 := 1

namespace Directory

def workerLive (d : Directory) (boot : WorkerBootId) : Bool :=
  (d.workers.find boot).any (·.live)

/-- What `current_state_gen_` holds for a state. -/
def currentGen (d : Directory) (s : StateId) : Option StateGeneration :=
  (d.currentStateGen.find s).map Prod.snd

/-- The position of the FIRST record with the id. -/
def findRecordIndex (d : Directory) (id : DirectoryRecordId) : Option (Fin d.records.length) :=
  d.records.findFinIdx? fun r => r.recordId == id

def record (d : Directory) (id : DirectoryRecordId) : Option DirectoryRecord :=
  (d.findRecordIndex id).map d.records.get

/-! ## 4. Accounting -/

def isHostDomain (m : MemoryDomain) : Bool := m == .hostMemory || m == .hostPinned

def isStorageDomain (m : MemoryDomain) : Bool :=
  m == .localFilesystem || m == .localNvmeClass || m == .sharedFilesystemClass ||
    m == .objectStorageClass

/-- Every gauge is counted afresh; the event counters are kept. `tombstones` is both: it is
    incremented by the operation and then counted. -/
def recomputeAccounting (d : Directory) : Directory :=
  { d with
    accounting :=
      { d.accounting with
        caches := d.caches.size
        locations := d.locations.size
        replicas := d.replicas.size
        cudaLocations := d.locations.values.countP fun l => l.domain == .cudaDevice
        hostLocations := d.locations.values.countP fun l => isHostDomain l.domain
        storageLocations := d.locations.values.countP fun l => isStorageDomain l.domain
        currentRecords := d.records.countP fun r => r.current
        historicalRecords := d.records.countP fun r => !r.current
        logicalStates := (d.records.map (·.stateId)).dedup.length
        reachableRecords :=
          d.records.countP fun r => r.reachability == .reachable || r.reachability == .degraded
        staleRecords := d.records.countP fun r => r.freshness == .stale
        degradedRecords := d.records.countP fun r => r.health == .degraded
        corruptRecords := d.records.countP fun r => r.integrity == .corrupt
        activeLeases := d.leases.values.countP fun l => l.state == .active
        expiredLeases := d.leases.values.countP fun l => l.state == .expired
        tombstones := d.tombstones.length } }

/-! ## 5. Indexes -/

/-- `emplace` one key for every position. -/
def indexBy {κ : Type} (key : DirectoryRecord → κ) (records : List DirectoryRecord) :
    Multimap κ :=
  records.zipIdx.map fun (r, i) => (key r, i)

def buildIndexes (records : List DirectoryRecord) : DirectoryIndexes where
  byState := indexBy (·.stateId) records
  byStateGeneration := indexBy (·.stateGeneration) records
  byCache := indexBy (·.cache) records
  byEntry := indexBy (·.entry) records
  byReplica := indexBy (·.replica) records
  byLocation := indexBy (·.location) records
  byNode := indexBy (·.node) records
  byWorker := indexBy (·.worker) records
  byBoot := indexBy (·.workerBoot) records
  byDevice := indexBy (·.device) records
  byDomain := indexBy (fun r => toByte r.domain) records
  byDigest := records.zipIdx.filterMap fun (r, i) =>
    if r.contentDigestKnown then some (Digest.hex r.contentDigest, i) else none
  byFreshness := indexBy (fun r => toByte r.freshness) records
  byHealth := indexBy (fun r => toByte r.health) records
  byIntegrity := indexBy (fun r => toByte r.integrity) records
  byReachability := indexBy (fun r => toByte r.reachability) records
  byLifecycle := indexBy (fun r => toByte r.lifecycle) records
  byCompatibility := indexBy (·.compatibility) records

def ensureIndexes (d : Directory) : Directory :=
  if !d.indexesDirty then d
  else { d with indexes := buildIndexes d.records, indexesDirty := false }

/-- The multimaps by name, with their sizes. -/
def indexSizes (x : DirectoryIndexes) : List (String × Nat) :=
  [("by_state", x.byState.length), ("by_state_generation", x.byStateGeneration.length),
    ("by_cache", x.byCache.length), ("by_entry", x.byEntry.length),
    ("by_replica", x.byReplica.length), ("by_location", x.byLocation.length),
    ("by_node", x.byNode.length), ("by_worker", x.byWorker.length),
    ("by_boot", x.byBoot.length), ("by_device", x.byDevice.length),
    ("by_domain", x.byDomain.length), ("by_digest", x.byDigest.length),
    ("by_freshness", x.byFreshness.length), ("by_health", x.byHealth.length),
    ("by_integrity", x.byIntegrity.length), ("by_reachability", x.byReachability.length),
    ("by_lifecycle", x.byLifecycle.length), ("by_compatibility", x.byCompatibility.length)]

/-- `validate_indexes`: sizes of all multimaps, then `by_state` record by record, then the
    accounting. The cached indexes are built first when they are dirty. -/
def validateIndexes (d : Directory) : Result AckResult × Directory :=
  let d := d.ensureIndexes
  let fresh := buildIndexes d.records
  guarded
    ((indexSizes d.indexes).zipWith
        (fun (which, n) (_, m) =>
          (n != m, ⟨.indexInconsistent, "index disagrees: " ++ which⟩))
        (indexSizes fresh) ++
      [(d.records.zipIdx.any fun (r, i) => !d.indexes.byState.contains (r.stateId, i),
          ⟨.indexInconsistent, "record not present in by_state index"⟩),
        (d.accounting.validate.isSome,
          ⟨.accountingNegative, d.accounting.validate.getD ""⟩)])
    d ({ message := ascii "all indexes agree with canonical records; accounting valid" }, d)

def setRankingPolicy (p : RankingPolicy) (d : Directory) : Directory := { d with policy := p }

/-- `next_obj_++`. -/
def nextObjectId (d : Directory) : UInt64 × Directory :=
  (d.nextObj, { d with nextObj := d.nextObj + 1 })

end Directory

end CacheDirectory
