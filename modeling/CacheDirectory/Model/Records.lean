/-
  File:      CacheDirectory/Model/Records.lean
  Subject:   THE DATA MODEL OF THE DIRECTORY (authority.hpp, model.hpp, time.hpp).

  A `std::string` is a byte list: what arrives over the wire need not be text in any encoding.
  A `double` is kept as its 64 bits; the arithmetic the ranking does on doubles is a parameter
  of the query module. Defaults are the source's member initialisers.
-/
import CacheDirectory.Model.Identity
import CacheDirectory.Model.Enums
import CacheDirectory.Model.Digest

namespace CacheDirectory

abbrev Bytes := List UInt8

/-- The bytes of a text of the source; every text there is ASCII. -/
def ascii (s : String) : Bytes := s.toList.map fun c => UInt8.ofNat c.toNat

abbrev TimestampNs := UInt64

abbrev ContentDigest := Digest.Sha256

/-- A double, as its bit pattern. -/
structure F64 where
  bits : UInt64 := 0
  deriving DecidableEq

structure AuthorityEnvelope where
  epoch : CoordinatorEpoch := {}
  boot : WorkerBootId := {}
  directoryGeneration : DirectoryGeneration := {}
  fence : UInt64 := 0
  deriving DecidableEq

structure AccessEstimate where
  estimatedLatencyNs : F64 := {}
  estimatedBandwidthBytesPerS : F64 := {}
  transferBytes : UInt64 := 0
  stagingSteps : UInt32 := 0
  restoreRequired : Bool := false
  remoteHops : UInt32 := 0
  locality : LocalityClass := .unknown
  costClass : CostClass := .unknown
  provenance : DataProvenance := .unknown
  deriving DecidableEq

structure Locator where
  key : Bytes := []
  deriving DecidableEq

structure LocationDescriptor where
  locationId : LocationId := {}
  node : NodeId := {}
  worker : WorkerId := {}
  workerBoot : WorkerBootId := {}
  device : DeviceId := {}
  domain : MemoryDomain := .unknown
  backend : StorageBackendId := {}
  tier : StorageTierId := {}
  processTag : Bytes := []
  locator : Locator := {}
  logicalBytes : UInt64 := 0
  physicalBytes : UInt64 := 0
  physicalBytesKnown : Bool := false
  contentDigest : ContentDigest := Digest.Sha256.zero
  contentDigestKnown : Bool := false
  locality : LocalityClass := .unknown
  reachability : Reachability := .unknown
  health : Health := .unknown
  freshness : Freshness := .unknown
  integrity : Integrity := .unknown
  estimate : AccessEstimate := {}
  generation : LocationGeneration := {}
  provenance : ProvenanceId := {}
  authority : AuthorityEnvelope := {}
  createdNs : TimestampNs := 0
  observedNs : TimestampNs := 0
  deriving DecidableEq

structure LeaseDescriptor where
  leaseId : LeaseId := {}
  generation : LeaseGeneration := {}
  holder : WorkerBootId := {}
  startNs : TimestampNs := 0
  expiryNs : TimestampNs := 0
  expires : Bool := false
  state : LeaseState := .unknown
  provenance : ProvenanceId := {}
  authority : AuthorityEnvelope := {}
  deriving DecidableEq

structure ReplicaDescriptor where
  replicaId : ReplicaId := {}
  location : LocationId := {}
  generation : ReplicaGeneration := {}
  cache : CacheId := {}
  entry : CacheEntryId := {}
  reachability : Reachability := .unknown
  health : Health := .unknown
  integrity : Integrity := .unknown
  freshness : Freshness := .unknown
  observedNs : TimestampNs := 0
  authority : AuthorityEnvelope := {}
  deriving DecidableEq

structure CacheDescriptor where
  cacheId : CacheId := {}
  kind : CacheKind := .unknown
  node : NodeId := {}
  worker : WorkerId := {}
  workerBoot : WorkerBootId := {}
  domain : MemoryDomain := .unknown
  capacity : UInt64 := 0
  capacityKnown : Bool := false
  freeCapacity : UInt64 := 0
  freeCapacityKnown : Bool := false
  reachability : Reachability := .unknown
  health : Health := .unknown
  freshness : Freshness := .unknown
  provenance : ProvenanceId := {}
  generation : CacheGeneration := {}
  authority : AuthorityEnvelope := {}
  observedNs : TimestampNs := 0
  deriving DecidableEq

structure DirectoryRecord where
  recordId : DirectoryRecordId := {}
  stateId : StateId := {}
  stateGeneration : StateGeneration := {}
  kind : StateKind := .genericState
  nameSpace : Bytes := []
  cache : CacheId := {}
  entry : CacheEntryId := {}
  replica : ReplicaId := {}
  location : LocationId := {}
  node : NodeId := {}
  worker : WorkerId := {}
  workerBoot : WorkerBootId := {}
  device : DeviceId := {}
  domain : MemoryDomain := .unknown
  logicalBytes : UInt64 := 0
  physicalBytes : UInt64 := 0
  physicalBytesKnown : Bool := false
  contentDigest : ContentDigest := Digest.Sha256.zero
  contentDigestKnown : Bool := false
  compatibility : CompatibilityId := {}
  provenance : ProvenanceId := {}
  locationGeneration : LocationGeneration := {}
  replicaGeneration : ReplicaGeneration := {}
  entryGeneration : EntryGeneration := {}
  health : Health := .unknown
  freshness : Freshness := .unknown
  integrity : Integrity := .unknown
  reachability : Reachability := .unknown
  lease : LeaseDescriptor := {}
  hasLease : Bool := false
  estimate : AccessEstimate := {}
  policyGeneration : PolicyGeneration := {}
  authority : AuthorityEnvelope := {}
  recordGeneration : RecordGeneration := {}
  lifecycle : LifecycleState := .registered
  current : Bool := false
  createdNs : TimestampNs := 0
  updatedNs : TimestampNs := 0
  observedNs : TimestampNs := 0
  semanticDigest : ContentDigest := Digest.Sha256.zero
  deriving DecidableEq

structure TombstoneTarget where
  kind : TombstoneKind := .generic
  state : StateId := {}
  cache : CacheId := {}
  entry : CacheEntryId := {}
  replica : ReplicaId := {}
  location : LocationId := {}
  workerBoot : WorkerBootId := {}
  node : NodeId := {}
  device : DeviceId := {}
  backend : StorageBackendId := {}
  compatibility : CompatibilityId := {}
  policyGeneration : PolicyGeneration := {}
  content : ContentDigest := Digest.Sha256.zero
  generationFloor : UInt64 := 0
  deriving DecidableEq

structure TombstoneRecord where
  tombstoneId : TombstoneId := {}
  target : TombstoneTarget := {}
  epoch : CoordinatorEpoch := {}
  workerBoot : WorkerBootId := {}
  authorityGeneration : DirectoryGeneration := {}
  reason : Bytes := []
  timestampNs : TimestampNs := 0
  provenance : ProvenanceId := {}
  deriving DecidableEq

structure ObservationRecord where
  observationId : ObservationId := {}
  generation : ObservationGeneration := {}
  workerBoot : WorkerBootId := {}
  subject : Bytes := []
  subjectKey : Bytes := []
  reachability : Reachability := .unknown
  health : Health := .unknown
  integrity : Integrity := .unknown
  freshness : Freshness := .unknown
  measuredLatencyNs : F64 := {}
  provenance : DataProvenance := .unknown
  authority : AuthorityEnvelope := {}
  observedNs : TimestampNs := 0
  deriving DecidableEq

/-- The domains whose copies die with the process or the machine of their worker. -/
def isProcessLocal (d : MemoryDomain) : Bool :=
  d == .hostMemory || d == .hostPinned || d == .cudaDevice || d == .localFilesystem ||
    d == .localNvmeClass

end CacheDirectory
