/-
  File:      CacheDirectory/Model/Enums.lean
  Subject:   THE ENUMERATIONS OF THE DIRECTORY (enums.hpp, model.hpp, query.hpp, errors.hpp,
             protocol.hpp).

  An `enum class` over `std::uint8_t` holds every byte, not only the declared ones: the readers
  of both formats cast whatever byte they find. Each enumeration is an inductive type with its
  declared enumerators and one constructor `undeclared` for the remaining bytes, which carries
  the proof that its byte is not a declared one. Every enumeration of the source numbers its
  enumerators from zero without a gap, so a `ByteEnum` lists them in order, and the cast from a
  byte reads the list at that position.
-/
import Mathlib.Data.List.Basic
import Mathlib.Data.UInt

namespace CacheDirectory

/-- An enumeration over `std::uint8_t`. -/
class ByteEnum (α : Type) where
  declared : List α
  undeclared : ∀ v : UInt8, declared.length ≤ v.toNat → α
  toByte : α → UInt8
  toByte_declared : ∀ i (h : i < declared.length), toByte declared[i] = UInt8.ofNat i
  toByte_undeclared : ∀ v h, toByte (undeclared v h) = v
  complete : ∀ a, a ∈ declared ∨ ∃ v h, a = undeclared v h
  fits : declared.length ≤ 256

export ByteEnum (toByte)

/-- `static_cast` from a byte. -/
def ofByte {α : Type} [e : ByteEnum α] (v : UInt8) : α :=
  if h : v.toNat < e.declared.length then e.declared[v.toNat]
  else e.undeclared v (Nat.le_of_not_lt h)

/-- The enumerator is one the source declares. -/
def IsDeclared {α : Type} [e : ByteEnum α] (a : α) : Prop := (toByte a).toNat < e.declared.length

instance {α : Type} [ByteEnum α] (a : α) : Decidable (IsDeclared a) :=
  inferInstanceAs (Decidable (_ < _))

@[simp] theorem toByte_ofByte {α : Type} [e : ByteEnum α] (v : UInt8) :
    toByte (ofByte v : α) = v := by
  unfold ofByte
  split
  · rename_i h
    rw [e.toByte_declared _ h]
    simp
  · exact e.toByte_undeclared _ _

@[simp] theorem ofByte_toByte {α : Type} [e : ByteEnum α] (a : α) : ofByte (toByte a) = a := by
  rcases e.complete a with h | ⟨v, h, rfl⟩
  · obtain ⟨i, hi, rfl⟩ := List.getElem_of_mem h
    have hlt : i < 256 := Nat.lt_of_lt_of_le hi e.fits
    have hv : (UInt8.ofNat i).toNat = i := by simp [Nat.mod_eq_of_lt hlt]
    unfold ofByte
    rw [e.toByte_declared i hi, dif_pos (by rw [hv]; exact hi)]
    simp only [hv]
  · unfold ofByte
    rw [e.toByte_undeclared v h, dif_neg (Nat.not_lt.mpr h)]

/-- Enumerators of one byte are one enumerator. -/
theorem toByte_inj {α : Type} [ByteEnum α] {a b : α} (h : toByte a = toByte b) : a = b := by
  rw [← ofByte_toByte a, h, ofByte_toByte]

/-! ## 1. State and cache kinds -/

inductive StateKind where
  | kvState | prefixState | tensorState | modelArtifact | modelShard | adapter
  | compiledKernel | executionGraph | executionPlan | checkpoint | checkpointChunk
  | checkpointManifest | buffer | storageObject | genericState
  | undeclared (v : UInt8) (h : 15 ≤ v.toNat)
  deriving DecidableEq, Repr

instance : ByteEnum StateKind where
  declared :=
    [.kvState, .prefixState, .tensorState, .modelArtifact, .modelShard, .adapter,
      .compiledKernel, .executionGraph, .executionPlan, .checkpoint, .checkpointChunk,
      .checkpointManifest, .buffer, .storageObject, .genericState]
  undeclared := .undeclared
  toByte
    | .kvState => 0 | .prefixState => 1 | .tensorState => 2 | .modelArtifact => 3
    | .modelShard => 4 | .adapter => 5 | .compiledKernel => 6 | .executionGraph => 7
    | .executionPlan => 8 | .checkpoint => 9 | .checkpointChunk => 10
    | .checkpointManifest => 11 | .buffer => 12 | .storageObject => 13 | .genericState => 14
    | .undeclared v _ => v
  toByte_declared := by decide
  toByte_undeclared _ _ := rfl
  complete a := by
    cases a with
    | undeclared v h => exact .inr ⟨v, h, rfl⟩
    | _ => exact .inl (by decide)
  fits := by decide

inductive CacheKind where
  | processLocal | deviceLocal | hostLocal | nodeLocal | localFilesystemCache
  | remoteNodeCache | sharedCacheClass | objectCacheClass | syntheticRemote | unknown
  | undeclared (v : UInt8) (h : 10 ≤ v.toNat)
  deriving DecidableEq, Repr

instance : ByteEnum CacheKind where
  declared :=
    [.processLocal, .deviceLocal, .hostLocal, .nodeLocal, .localFilesystemCache,
      .remoteNodeCache, .sharedCacheClass, .objectCacheClass, .syntheticRemote, .unknown]
  undeclared := .undeclared
  toByte
    | .processLocal => 0 | .deviceLocal => 1 | .hostLocal => 2 | .nodeLocal => 3
    | .localFilesystemCache => 4 | .remoteNodeCache => 5 | .sharedCacheClass => 6
    | .objectCacheClass => 7 | .syntheticRemote => 8 | .unknown => 9
    | .undeclared v _ => v
  toByte_declared := by decide
  toByte_undeclared _ _ := rfl
  complete a := by
    cases a with
    | undeclared v h => exact .inr ⟨v, h, rfl⟩
    | _ => exact .inl (by decide)
  fits := by decide

/-! ## 2. Evidence -/

inductive Freshness where
  | current | stale | revalidationRequired | unknown
  | undeclared (v : UInt8) (h : 4 ≤ v.toNat)
  deriving DecidableEq, Repr

instance : ByteEnum Freshness where
  declared :=
    [.current, .stale, .revalidationRequired, .unknown]
  undeclared := .undeclared
  toByte
    | .current => 0 | .stale => 1 | .revalidationRequired => 2 | .unknown => 3
    | .undeclared v _ => v
  toByte_declared := by decide
  toByte_undeclared _ _ := rfl
  complete a := by
    cases a with
    | undeclared v h => exact .inr ⟨v, h, rfl⟩
    | _ => exact .inl (by decide)
  fits := by decide

inductive Health where
  | healthy | degraded | unhealthy | unavailable | unknown
  | undeclared (v : UInt8) (h : 5 ≤ v.toNat)
  deriving DecidableEq, Repr

instance : ByteEnum Health where
  declared :=
    [.healthy, .degraded, .unhealthy, .unavailable, .unknown]
  undeclared := .undeclared
  toByte
    | .healthy => 0 | .degraded => 1 | .unhealthy => 2 | .unavailable => 3 | .unknown => 4
    | .undeclared v _ => v
  toByte_declared := by decide
  toByte_undeclared _ _ := rfl
  complete a := by
    cases a with
    | undeclared v h => exact .inr ⟨v, h, rfl⟩
    | _ => exact .inl (by decide)
  fits := by decide

inductive Integrity where
  | unknown | unverified | verified | corrupt | missing
  | undeclared (v : UInt8) (h : 5 ≤ v.toNat)
  deriving DecidableEq, Repr

instance : ByteEnum Integrity where
  declared :=
    [.unknown, .unverified, .verified, .corrupt, .missing]
  undeclared := .undeclared
  toByte
    | .unknown => 0 | .unverified => 1 | .verified => 2 | .corrupt => 3 | .missing => 4
    | .undeclared v _ => v
  toByte_declared := by decide
  toByte_undeclared _ _ := rfl
  complete a := by
    cases a with
    | undeclared v h => exact .inr ⟨v, h, rfl⟩
    | _ => exact .inl (by decide)
  fits := by decide

inductive Reachability where
  | reachable | degraded | unreachable | revalidationRequired | unknown
  | undeclared (v : UInt8) (h : 5 ≤ v.toNat)
  deriving DecidableEq, Repr

instance : ByteEnum Reachability where
  declared :=
    [.reachable, .degraded, .unreachable, .revalidationRequired, .unknown]
  undeclared := .undeclared
  toByte
    | .reachable => 0 | .degraded => 1 | .unreachable => 2 | .revalidationRequired => 3
    | .unknown => 4
    | .undeclared v _ => v
  toByte_declared := by decide
  toByte_undeclared _ _ := rfl
  complete a := by
    cases a with
    | undeclared v h => exact .inr ⟨v, h, rfl⟩
    | _ => exact .inl (by decide)
  fits := by decide

inductive LifecycleState where
  | registered | available | degraded | stale | unreachable | invalidated | superseded
  | tombstoned | expired | missing | failed
  | undeclared (v : UInt8) (h : 11 ≤ v.toNat)
  deriving DecidableEq, Repr

instance : ByteEnum LifecycleState where
  declared :=
    [.registered, .available, .degraded, .stale, .unreachable, .invalidated, .superseded,
      .tombstoned, .expired, .missing, .failed]
  undeclared := .undeclared
  toByte
    | .registered => 0 | .available => 1 | .degraded => 2 | .stale => 3 | .unreachable => 4
    | .invalidated => 5 | .superseded => 6 | .tombstoned => 7 | .expired => 8
    | .missing => 9 | .failed => 10
    | .undeclared v _ => v
  toByte_declared := by decide
  toByte_undeclared _ _ := rfl
  complete a := by
    cases a with
    | undeclared v h => exact .inr ⟨v, h, rfl⟩
    | _ => exact .inl (by decide)
  fits := by decide

inductive DataProvenance where
  | measured | reported | derived | synthetic | unknown
  | undeclared (v : UInt8) (h : 5 ≤ v.toNat)
  deriving DecidableEq, Repr

instance : ByteEnum DataProvenance where
  declared :=
    [.measured, .reported, .derived, .synthetic, .unknown]
  undeclared := .undeclared
  toByte
    | .measured => 0 | .reported => 1 | .derived => 2 | .synthetic => 3 | .unknown => 4
    | .undeclared v _ => v
  toByte_declared := by decide
  toByte_undeclared _ _ := rfl
  complete a := by
    cases a with
    | undeclared v h => exact .inr ⟨v, h, rfl⟩
    | _ => exact .inl (by decide)
  fits := by decide

/-! ## 3. Places and costs -/

inductive MemoryDomain where
  | cudaDevice | hostPinned | hostMemory | localFilesystem | localNvmeClass
  | sharedFilesystemClass | objectStorageClass | remoteCacheClass | syntheticRemote | unknown
  | undeclared (v : UInt8) (h : 10 ≤ v.toNat)
  deriving DecidableEq, Repr

instance : ByteEnum MemoryDomain where
  declared :=
    [.cudaDevice, .hostPinned, .hostMemory, .localFilesystem, .localNvmeClass,
      .sharedFilesystemClass, .objectStorageClass, .remoteCacheClass, .syntheticRemote,
      .unknown]
  undeclared := .undeclared
  toByte
    | .cudaDevice => 0 | .hostPinned => 1 | .hostMemory => 2 | .localFilesystem => 3
    | .localNvmeClass => 4 | .sharedFilesystemClass => 5 | .objectStorageClass => 6
    | .remoteCacheClass => 7 | .syntheticRemote => 8 | .unknown => 9
    | .undeclared v _ => v
  toByte_declared := by decide
  toByte_undeclared _ _ := rfl
  complete a := by
    cases a with
    | undeclared v h => exact .inr ⟨v, h, rfl⟩
    | _ => exact .inl (by decide)
  fits := by decide

inductive LocalityClass where
  | sameProcess | sameDevice | sameNode | sameNuma | near | remote | unknown
  | undeclared (v : UInt8) (h : 7 ≤ v.toNat)
  deriving DecidableEq, Repr

instance : ByteEnum LocalityClass where
  declared :=
    [.sameProcess, .sameDevice, .sameNode, .sameNuma, .near, .remote, .unknown]
  undeclared := .undeclared
  toByte
    | .sameProcess => 0 | .sameDevice => 1 | .sameNode => 2 | .sameNuma => 3 | .near => 4
    | .remote => 5 | .unknown => 6
    | .undeclared v _ => v
  toByte_declared := by decide
  toByte_undeclared _ _ := rfl
  complete a := by
    cases a with
    | undeclared v h => exact .inr ⟨v, h, rfl⟩
    | _ => exact .inl (by decide)
  fits := by decide

inductive CostClass where
  | localCost | near | remote | unknown
  | undeclared (v : UInt8) (h : 4 ≤ v.toNat)
  deriving DecidableEq, Repr

instance : ByteEnum CostClass where
  declared :=
    [.localCost, .near, .remote, .unknown]
  undeclared := .undeclared
  toByte
    | .localCost => 0 | .near => 1 | .remote => 2 | .unknown => 3
    | .undeclared v _ => v
  toByte_declared := by decide
  toByte_undeclared _ _ := rfl
  complete a := by
    cases a with
    | undeclared v h => exact .inr ⟨v, h, rfl⟩
    | _ => exact .inl (by decide)
  fits := by decide

/-! ## 4. Leases and tombstones -/

inductive LeaseState where
  | active | expired | revoked | revalidationRequired | unknown
  | undeclared (v : UInt8) (h : 5 ≤ v.toNat)
  deriving DecidableEq, Repr

instance : ByteEnum LeaseState where
  declared :=
    [.active, .expired, .revoked, .revalidationRequired, .unknown]
  undeclared := .undeclared
  toByte
    | .active => 0 | .expired => 1 | .revoked => 2 | .revalidationRequired => 3
    | .unknown => 4
    | .undeclared v _ => v
  toByte_declared := by decide
  toByte_undeclared _ _ := rfl
  complete a := by
    cases a with
    | undeclared v h => exact .inr ⟨v, h, rfl⟩
    | _ => exact .inl (by decide)
  fits := by decide

inductive TombstoneKind where
  | state | cache | entry | replica | location | workerBoot | node | device | backend
  | compatibility | policy | content | generic
  | undeclared (v : UInt8) (h : 13 ≤ v.toNat)
  deriving DecidableEq, Repr

instance : ByteEnum TombstoneKind where
  declared :=
    [.state, .cache, .entry, .replica, .location, .workerBoot, .node, .device, .backend,
      .compatibility, .policy, .content, .generic]
  undeclared := .undeclared
  toByte
    | .state => 0 | .cache => 1 | .entry => 2 | .replica => 3 | .location => 4
    | .workerBoot => 5 | .node => 6 | .device => 7 | .backend => 8 | .compatibility => 9
    | .policy => 10 | .content => 11 | .generic => 12
    | .undeclared v _ => v
  toByte_declared := by decide
  toByte_undeclared _ _ := rfl
  complete a := by
    cases a with
    | undeclared v h => exact .inr ⟨v, h, rfl⟩
    | _ => exact .inl (by decide)
  fits := by decide

/-! ## 5. Query answers -/

inductive QueryOutcome where
  | foundLocal | foundRemote | foundMultiple | notFound | staleOnly | unreachableOnly
  | corruptOnly | incompatibleOnly | insufficientEvidence | unknown
  | undeclared (v : UInt8) (h : 10 ≤ v.toNat)
  deriving DecidableEq, Repr

instance : ByteEnum QueryOutcome where
  declared :=
    [.foundLocal, .foundRemote, .foundMultiple, .notFound, .staleOnly, .unreachableOnly,
      .corruptOnly, .incompatibleOnly, .insufficientEvidence, .unknown]
  undeclared := .undeclared
  toByte
    | .foundLocal => 0 | .foundRemote => 1 | .foundMultiple => 2 | .notFound => 3
    | .staleOnly => 4 | .unreachableOnly => 5 | .corruptOnly => 6 | .incompatibleOnly => 7
    | .insufficientEvidence => 8 | .unknown => 9
    | .undeclared v _ => v
  toByte_declared := by decide
  toByte_undeclared _ _ := rfl
  complete a := by
    cases a with
    | undeclared v h => exact .inr ⟨v, h, rfl⟩
    | _ => exact .inl (by decide)
  fits := by decide

inductive RejectionReason where
  | wrongState | wrongStateGeneration | wrongContentDigest | staleRecord | tombstoned
  | invalidated | corrupt | missingBytes | unreachable | incompatible | domainUnavailable
  | healthBelowRequirement | freshnessBelowRequirement | reachabilityBelowRequirement
  | integrityBelowRequirement | staleAuthority | expiredLease | missingRequiredEvidence
  | notCurrent | noRequiredReplicaCount
  | undeclared (v : UInt8) (h : 20 ≤ v.toNat)
  deriving DecidableEq, Repr

instance : ByteEnum RejectionReason where
  declared :=
    [.wrongState, .wrongStateGeneration, .wrongContentDigest, .staleRecord, .tombstoned,
      .invalidated, .corrupt, .missingBytes, .unreachable, .incompatible,
      .domainUnavailable, .healthBelowRequirement, .freshnessBelowRequirement,
      .reachabilityBelowRequirement, .integrityBelowRequirement, .staleAuthority,
      .expiredLease, .missingRequiredEvidence, .notCurrent, .noRequiredReplicaCount]
  undeclared := .undeclared
  toByte
    | .wrongState => 0 | .wrongStateGeneration => 1 | .wrongContentDigest => 2
    | .staleRecord => 3 | .tombstoned => 4 | .invalidated => 5 | .corrupt => 6
    | .missingBytes => 7 | .unreachable => 8 | .incompatible => 9 | .domainUnavailable => 10
    | .healthBelowRequirement => 11 | .freshnessBelowRequirement => 12
    | .reachabilityBelowRequirement => 13 | .integrityBelowRequirement => 14
    | .staleAuthority => 15 | .expiredLease => 16 | .missingRequiredEvidence => 17
    | .notCurrent => 18 | .noRequiredReplicaCount => 19
    | .undeclared v _ => v
  toByte_declared := by decide
  toByte_undeclared _ _ := rfl
  complete a := by
    cases a with
    | undeclared v h => exact .inr ⟨v, h, rfl⟩
    | _ => exact .inl (by decide)
  fits := by decide

inductive RankingFactorKind where
  | exactGeneration | sameProcess | sameDevice | sameNode | sameNuma | domainPreference
  | reachability | health | freshness | integrity | latency | bandwidth | transferBytes
  | staging | restore | replicaDiversity | policyPreference
  | undeclared (v : UInt8) (h : 17 ≤ v.toNat)
  deriving DecidableEq, Repr

instance : ByteEnum RankingFactorKind where
  declared :=
    [.exactGeneration, .sameProcess, .sameDevice, .sameNode, .sameNuma, .domainPreference,
      .reachability, .health, .freshness, .integrity, .latency, .bandwidth, .transferBytes,
      .staging, .restore, .replicaDiversity, .policyPreference]
  undeclared := .undeclared
  toByte
    | .exactGeneration => 0 | .sameProcess => 1 | .sameDevice => 2 | .sameNode => 3
    | .sameNuma => 4 | .domainPreference => 5 | .reachability => 6 | .health => 7
    | .freshness => 8 | .integrity => 9 | .latency => 10 | .bandwidth => 11
    | .transferBytes => 12 | .staging => 13 | .restore => 14 | .replicaDiversity => 15
    | .policyPreference => 16
    | .undeclared v _ => v
  toByte_declared := by decide
  toByte_undeclared _ _ := rfl
  complete a := by
    cases a with
    | undeclared v h => exact .inr ⟨v, h, rfl⟩
    | _ => exact .inl (by decide)
  fits := by decide

/-! ## 6. Errors and messages -/

inductive DirectoryError where
  | none | staleEpoch | staleWorkerBoot | staleAuthority | staleGeneration
  | recordGenerationRegression | duplicateIdentity | conflictingDuplicate | tombstoned
  | invalidIdentity | missingDependency | dimensionMismatch | noAuthority
  | failedLeaseValidation | invalidStateTransition | corruptDigest | indexInconsistent
  | accountingNegative | persistenceCorrupt | protocolViolation | resourceExhausted | internal
  | undeclared (v : UInt8) (h : 22 ≤ v.toNat)
  deriving DecidableEq, Repr

instance : ByteEnum DirectoryError where
  declared :=
    [.none, .staleEpoch, .staleWorkerBoot, .staleAuthority, .staleGeneration,
      .recordGenerationRegression, .duplicateIdentity, .conflictingDuplicate, .tombstoned,
      .invalidIdentity, .missingDependency, .dimensionMismatch, .noAuthority,
      .failedLeaseValidation, .invalidStateTransition, .corruptDigest, .indexInconsistent,
      .accountingNegative, .persistenceCorrupt, .protocolViolation, .resourceExhausted,
      .internal]
  undeclared := .undeclared
  toByte
    | .none => 0 | .staleEpoch => 1 | .staleWorkerBoot => 2 | .staleAuthority => 3
    | .staleGeneration => 4 | .recordGenerationRegression => 5 | .duplicateIdentity => 6
    | .conflictingDuplicate => 7 | .tombstoned => 8 | .invalidIdentity => 9
    | .missingDependency => 10 | .dimensionMismatch => 11 | .noAuthority => 12
    | .failedLeaseValidation => 13 | .invalidStateTransition => 14 | .corruptDigest => 15
    | .indexInconsistent => 16 | .accountingNegative => 17 | .persistenceCorrupt => 18
    | .protocolViolation => 19 | .resourceExhausted => 20 | .internal => 21
    | .undeclared v _ => v
  toByte_declared := by decide
  toByte_undeclared _ _ := rfl
  complete a := by
    cases a with
    | undeclared v h => exact .inr ⟨v, h, rfl⟩
    | _ => exact .inl (by decide)
  fits := by decide

inductive MessageKind where
  | hello | registerCache | registerEntry | updateLocation | updateHealth | updateFreshness
  | updateReachability | updateIntegrity | renewLease | invalidate | tombstone | query
  | queryResult | save | recover | ack | error | registerLocation | registerReplica
  | undeclared (v : UInt8) (h : 19 ≤ v.toNat)
  deriving DecidableEq, Repr

instance : ByteEnum MessageKind where
  declared :=
    [.hello, .registerCache, .registerEntry, .updateLocation, .updateHealth,
      .updateFreshness, .updateReachability, .updateIntegrity, .renewLease, .invalidate,
      .tombstone, .query, .queryResult, .save, .recover, .ack, .error, .registerLocation,
      .registerReplica]
  undeclared := .undeclared
  toByte
    | .hello => 0 | .registerCache => 1 | .registerEntry => 2 | .updateLocation => 3
    | .updateHealth => 4 | .updateFreshness => 5 | .updateReachability => 6
    | .updateIntegrity => 7 | .renewLease => 8 | .invalidate => 9 | .tombstone => 10
    | .query => 11 | .queryResult => 12 | .save => 13 | .recover => 14 | .ack => 15
    | .error => 16 | .registerLocation => 17 | .registerReplica => 18
    | .undeclared v _ => v
  toByte_declared := by decide
  toByte_undeclared _ _ := rfl
  complete a := by
    cases a with
    | undeclared v h => exact .inr ⟨v, h, rfl⟩
    | _ => exact .inl (by decide)
  fits := by decide

end CacheDirectory
