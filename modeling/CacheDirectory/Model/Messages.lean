/-
  File:      CacheDirectory/Model/Messages.lean
  Subject:   THE PAYLOADS OF THE WIRE (protocol.hpp, protocol.cpp).

  One writer and one reader for each message. The descriptors and the tombstone are written field
  by field as in a snapshot; the record is not (`wrRec`, `rdRec`). A reader takes the object it
  reads into where the source keeps anything of it; a reader of a message all of whose fields
  are assigned takes none. A payload is deserialized when its reader succeeds and stops at the
  end. A double travels as its bit pattern, so a query result on the wire is one over `F64`.
-/
import CacheDirectory.Model.Persistence
import CacheDirectory.Model.Query
import CacheDirectory.Model.Protocol

namespace CacheDirectory.Protocol

open Library

/-! ## 1. Envelopes, estimates, descriptors -/

def wrAuth : AuthorityEnvelope → Bytes := wAuth
def rdAuth : AuthorityEnvelope → Reader AuthorityEnvelope := rAuth

def wrCache : CacheDescriptor → Bytes := wCache
def rdCache : CacheDescriptor → Reader CacheDescriptor := rCache

def wrLoc : LocationDescriptor → Bytes := wLoc
def rdLoc : LocationDescriptor → Reader LocationDescriptor := rLoc

def wrRep : ReplicaDescriptor → Bytes := wRep
def rdRep : ReplicaDescriptor → Reader ReplicaDescriptor := rRep

/-! ## 2. Records -/

section Records

open ByteWriter in
/-- The lease inside a record: on the wire its authority comes first. -/
def wrRecLease (l : LeaseDescriptor) : Bytes :=
  [wrAuth l.authority, strong l.leaseId, strong l.generation, strong l.holder, u64 l.startNs,
    u64 l.expiryNs, flag l.expires, enum l.state, strong l.provenance].flatten

open ByteWriter in
def wrRec (r : DirectoryRecord) : Bytes :=
  [strong r.recordId, strong r.stateId, strong r.stateGeneration, enum r.kind,
    string r.nameSpace, strong r.cache, strong r.entry, strong r.replica, strong r.location,
    strong r.node, strong r.worker, strong r.workerBoot, strong r.device, enum r.domain,
    u64 r.logicalBytes, u64 r.physicalBytes, flag r.physicalBytesKnown,
    flag r.contentDigestKnown,
    (if r.contentDigestKnown then bytes r.contentDigest.toList else []),
    strong r.compatibility, strong r.provenance, strong r.locationGeneration,
    strong r.replicaGeneration, strong r.entryGeneration, enum r.health, enum r.freshness,
    enum r.integrity, enum r.reachability, flag r.hasLease,
    (if r.hasLease then wrRecLease r.lease else []),
    f64 r.estimate.estimatedLatencyNs, f64 r.estimate.estimatedBandwidthBytesPerS,
    u64 r.estimate.transferBytes, u32 r.estimate.stagingSteps, flag r.estimate.restoreRequired,
    u32 r.estimate.remoteHops, enum r.estimate.locality, enum r.estimate.costClass,
    enum r.estimate.provenance,
    strong r.policyGeneration, wrAuth r.authority, strong r.recordGeneration, enum r.lifecycle,
    flag r.current, u64 r.createdNs, u64 r.updatedNs, u64 r.observedNs,
    bytes r.semanticDigest.toList].flatten

open ByteReader

def rdRecLease (l : LeaseDescriptor) : Reader LeaseDescriptor := do
  let auth ← rdAuth l.authority
  let lid ← u64
  let lg ← u64
  let lh ← u64
  let st ← u64
  let ex ← u64
  let le ← u8
  let ls ← u8
  let pv ← u64
  pure { l with
    authority := auth
    leaseId := ⟨lid⟩
    generation := ⟨lg⟩
    holder := ⟨lh⟩
    startNs := st
    expiryNs := ex
    expires := le != 0
    state := ofByte ls
    provenance := ⟨pv⟩ }

/-- Of the estimate, the four bytes `_r8`, `_loc`, `_cost` and `_pr` are read and not assigned. -/
def rdRec (x : DirectoryRecord) : Reader DirectoryRecord := do
  let a ← u64
  let b ← u64
  let c ← u64
  let kind ← u8
  let ns ← string (1 <<< 20)
  let e ← u64
  let g ← u64
  let h ← u64
  let i ← u64
  let j ← u64
  let k ← u64
  let l ← u64
  let m ← u64
  let dom ← u8
  let logical ← u64
  let physical ← u64
  let pk ← u8
  let dk ← u8
  let content ← optional (dk != 0) digest x.contentDigest
  let o ← u64
  let p ← u64
  let s ← u64
  let t ← u64
  let u ← u64
  let hl ← u8
  let fr ← u8
  let it ← u8
  let rch ← u8
  let lle ← u8
  let lease ← optional (lle != 0) (rdRecLease x.lease) x.lease
  let lat ← f64
  let bw ← f64
  let transfer ← u64
  let steps ← u32
  let _r8 ← u8
  let hops ← u32
  let _loc ← u8
  let _cost ← u8
  let _pr ← u8
  let v ← u64
  let auth ← rdAuth x.authority
  let q ← u64
  let lc ← u8
  let cv ← u8
  let cr ← u64
  let up ← u64
  let ob ← u64
  let s1 ← digest
  pure { x with
    nameSpace := ns
    logicalBytes := logical
    physicalBytes := physical
    contentDigest := content
    lease := lease
    hasLease := lle != 0 || x.hasLease
    estimate := { x.estimate with
      estimatedLatencyNs := lat
      estimatedBandwidthBytesPerS := bw
      transferBytes := transfer
      stagingSteps := steps
      remoteHops := hops }
    authority := auth
    semanticDigest := s1
    recordId := ⟨a⟩
    stateId := ⟨b⟩
    stateGeneration := ⟨c⟩
    kind := ofByte kind
    cache := ⟨e⟩
    entry := ⟨g⟩
    replica := ⟨h⟩
    location := ⟨i⟩
    node := ⟨j⟩
    worker := ⟨k⟩
    workerBoot := ⟨l⟩
    device := ⟨m⟩
    domain := ofByte dom
    physicalBytesKnown := pk != 0
    contentDigestKnown := dk != 0
    compatibility := ⟨o⟩
    provenance := ⟨p⟩
    locationGeneration := ⟨s⟩
    replicaGeneration := ⟨t⟩
    entryGeneration := ⟨u⟩
    health := ofByte hl
    freshness := ofByte fr
    integrity := ofByte it
    reachability := ofByte rch
    policyGeneration := ⟨v⟩
    recordGeneration := ⟨q⟩
    lifecycle := ofByte lc
    current := cv != 0
    createdNs := cr
    updatedNs := up
    observedNs := ob }

end Records

/-! ## 3. Answers and sessions -/

/-- What a payload gives: the message, or the `false` of a deserializer. -/
abbrev Deserialized (α : Type) := Except (ReadFault Unit) α

def serializeAck (a : AckResult) : Bytes := ByteWriter.flag a.ok ++ ByteWriter.string a.message

def rdAck : Reader AckResult := do
  let ok ← ByteReader.u8
  let message ← ByteReader.string (1 <<< 20)
  pure { ok := ok != 0, message := message }

def deserializeAck : Bytes → Deserialized AckResult := rdAck.runAll ()

def serializeError (e : DirectoryError) (msg : Bytes) : Bytes :=
  ByteWriter.enum e ++ ByteWriter.string msg

def rdError : Reader (DirectoryError × Bytes) := do
  let q ← ByteReader.u8
  let msg ← ByteReader.string (1 <<< 20)
  pure (ofByte q, msg)

def deserializeError : Bytes → Deserialized (DirectoryError × Bytes) := rdError.runAll ()

def serializeHello (s : WorkerSession) : Bytes :=
  open ByteWriter in
  [strong s.boot, strong s.worker, strong s.node, string s.tag, flag s.live,
    u64 s.sourceAuthority].flatten

def rdHello (s : WorkerSession) : Reader WorkerSession := do
  let b ← ByteReader.u64
  let w ← ByteReader.u64
  let n ← ByteReader.u64
  let tag ← ByteReader.string (1 <<< 20)
  let lv ← ByteReader.u8
  let sa ← ByteReader.u64
  pure { s with
    tag := tag
    boot := ⟨b⟩
    worker := ⟨w⟩
    node := ⟨n⟩
    live := lv != 0
    sourceAuthority := sa }

def deserializeHello (s : WorkerSession) : Bytes → Deserialized WorkerSession :=
  (rdHello s).runAll ()

def serializeEpochReply (epoch : CoordinatorEpoch) : Bytes := ByteWriter.strong epoch

def rdEpochReply : Reader CoordinatorEpoch := do
  let e ← ByteReader.u64
  pure ⟨e⟩

def deserializeEpochReply : Bytes → Deserialized CoordinatorEpoch := rdEpochReply.runAll ()

/-! ## 4. Registrations and paths -/

def serializeCache (c : CacheDescriptor) : Bytes := wrCache c

def deserializeCache (c : CacheDescriptor) : Bytes → Deserialized CacheDescriptor :=
  (rdCache c).runAll ()

def serializeLocation (l : LocationDescriptor) : Bytes := wrLoc l

def deserializeLocation (l : LocationDescriptor) : Bytes → Deserialized LocationDescriptor :=
  (rdLoc l).runAll ()

def serializeReplica (r : ReplicaDescriptor) : Bytes := wrRep r

def deserializeReplica (r : ReplicaDescriptor) : Bytes → Deserialized ReplicaDescriptor :=
  (rdRep r).runAll ()

def serializeRecord (r : DirectoryRecord) : Bytes := wrRec r

def deserializeRecord (r : DirectoryRecord) : Bytes → Deserialized DirectoryRecord :=
  (rdRec r).runAll ()

def serializePath (path : Bytes) : Bytes := ByteWriter.string path

def deserializePath : Bytes → Deserialized Bytes := (ByteReader.string (1 <<< 20)).runAll ()

/-! ## 5. Queries -/

/-- A domain list: its size as a `uint32_t`, then one byte each. -/
def wrDomains (ds : List MemoryDomain) : Bytes :=
  ByteWriter.u32 (.ofNat ds.length) ++ ds.flatMap ByteWriter.enum

def serializeQuery (q : DirectoryQuery) : Bytes :=
  open ByteWriter in
  [strong q.queryId, flag q.exactState, strong q.state, flag q.exactStateGeneration,
    strong q.stateGeneration, flag q.hasKind, enum q.kind, string q.nameSpace,
    flag q.requireContentDigest,
    (if q.requireContentDigest then bytes q.contentDigest.toList else []),
    flag q.requireCompatibility, strong q.compatibility, flag q.hasIntegrity, enum q.integrity,
    flag q.hasFreshness, enum q.freshness, flag q.hasHealth, enum q.health,
    flag q.hasReachability, enum q.reachability, wrDomains q.allowedDomains,
    wrDomains q.preferredDomains, flag q.hasMaxLatency, f64 q.maxLatencyNs,
    flag q.hasPreferredNode, strong q.preferredNode, flag q.hasPreferredDevice,
    strong q.preferredDevice, string q.requesterProcessTag, strong q.requesterNode,
    u32 q.minReplicaCount, flag q.currentOnly].flatten

section Queries

open ByteReader

/-- A counted loop over the wire: a count above `limit` is refused. -/
def rdCounted {α : Type} (limit : UInt32) (p : Reader α) : Reader (List α) := do
  let n ← u32
  Parser.refuseIf (n > limit) ()
  Parser.times n.toNat p

def rdDomain : Reader MemoryDomain := do
  let d ← u8
  pure (ofByte d)

/-- The domains read are pushed behind the ones `q` holds. -/
def rdQuery (x : DirectoryQuery) : Reader DirectoryQuery := do
  let qid ← u64
  let es ← u8
  let st ← u64
  let esg ← u8
  let sg ← u64
  let hk ← u8
  let k ← u8
  let ns ← string (1 <<< 20)
  let dc ← u8
  let content ← optional (dc != 0) digest x.contentDigest
  let co ← u8
  let com ← u64
  let hi ← u8
  let it ← u8
  let hf ← u8
  let fr ← u8
  let hh ← u8
  let hl ← u8
  let hr ← u8
  let rc ← u8
  let allowed ← rdCounted 1024 rdDomain
  let preferred ← rdCounted 1024 rdDomain
  let ml ← u8
  let lat ← f64
  let hp ← u8
  let pn ← u64
  let hpd ← u8
  let pd ← u64
  let tag ← string (1 <<< 20)
  let rn ← u64
  let mr ← u32
  let co2 ← u8
  pure { x with
    nameSpace := ns
    contentDigest := content
    allowedDomains := x.allowedDomains ++ allowed
    preferredDomains := x.preferredDomains ++ preferred
    maxLatencyNs := lat
    requesterProcessTag := tag
    queryId := ⟨qid⟩
    exactState := es != 0
    state := ⟨st⟩
    exactStateGeneration := esg != 0
    stateGeneration := ⟨sg⟩
    hasKind := hk != 0
    kind := ofByte k
    requireContentDigest := dc != 0
    requireCompatibility := co != 0
    compatibility := ⟨com⟩
    hasIntegrity := hi != 0
    integrity := ofByte it
    hasFreshness := hf != 0
    freshness := ofByte fr
    hasHealth := hh != 0
    health := ofByte hl
    hasReachability := hr != 0
    reachability := ofByte rc
    hasMaxLatency := ml != 0
    hasPreferredNode := hp != 0
    preferredNode := ⟨pn⟩
    hasPreferredDevice := hpd != 0
    preferredDevice := ⟨pd⟩
    requesterNode := ⟨rn⟩
    minReplicaCount := mr
    currentOnly := co2 != 0 }

def deserializeQuery (q : DirectoryQuery) : Bytes → Deserialized DirectoryQuery :=
  (rdQuery q).runAll ()

/-! ## 6. Query results -/

def wrFactor (f : RankingFactor F64) : Bytes :=
  open ByteWriter in
  [enum f.kind, f64 f.weight, f64 f.value, f64 f.contribution, string f.note].flatten

def wrCandidate (c : Candidate F64) : Bytes :=
  open ByteWriter in
  [wrRec c.record, f64 c.score, flag c.selected, u32 (.ofNat c.factors.length),
    c.factors.flatMap wrFactor].flatten

def wrRejection (rj : Rejection) : Bytes :=
  open ByteWriter in
  [strong rj.recordId, enum rj.reason, strong rj.state, strong rj.stateGeneration,
    strong rj.replica, strong rj.location].flatten

/-- Neither the explanation nor the summary is written. -/
def serializeQueryResult (qr : QueryResult F64) : Bytes :=
  open ByteWriter in
  [strong qr.queryId, enum qr.outcome, u32 qr.selectedIndex, u32 qr.matchedScanCount,
    u32 (.ofNat qr.candidates.length), qr.candidates.flatMap wrCandidate,
    u32 (.ofNat qr.rejections.length), qr.rejections.flatMap wrRejection].flatten

def rdFactor : Reader (RankingFactor F64) := do
  let kk ← u8
  let w ← f64
  let v ← f64
  let co ← f64
  let note ← string (1 <<< 20)
  pure { kind := ofByte kk, weight := w, value := v, contribution := co, note := note }

def rdCandidate : Reader (Candidate F64) := do
  let record ← rdRec {}
  let score ← f64
  let selc ← u8
  let factors ← rdCounted 1024 rdFactor
  pure { record := record, factors := factors, score := score, selected := selc != 0 }

def rdRejection : Reader Rejection := do
  let rid ← u64
  let rs ← u8
  let s ← u64
  let sg ← u64
  let rep ← u64
  let loc ← u64
  pure
    { recordId := ⟨rid⟩
      reason := ofByte rs
      state := ⟨s⟩
      stateGeneration := ⟨sg⟩
      replica := ⟨rep⟩
      location := ⟨loc⟩ }

def rdQueryResult (x : QueryResult F64) : Reader (QueryResult F64) := do
  let qid ← u64
  let oc ← u8
  let sel ← u32
  let msc ← u32
  let candidates ← rdCounted 1000000 rdCandidate
  let rejections ← rdCounted 1000000 rdRejection
  pure { x with
    queryId := ⟨qid⟩
    outcome := ofByte oc
    selectedIndex := sel
    matchedScanCount := msc
    candidates := x.candidates ++ candidates
    rejections := x.rejections ++ rejections }

def deserializeQueryResult (qr : QueryResult F64) : Bytes → Deserialized (QueryResult F64) :=
  (rdQueryResult qr).runAll ()

end Queries

/-! ## 7. Updates, leases, invalidations, tombstones -/

structure UpdateHealthMsg where
  id : DirectoryRecordId
  health : Health
  env : AuthorityEnvelope
  deriving DecidableEq

structure UpdateRefreshMsg where
  id : DirectoryRecordId
  freshness : Freshness
  env : AuthorityEnvelope
  deriving DecidableEq

structure UpdateReachMsg where
  id : DirectoryRecordId
  reachability : Reachability
  env : AuthorityEnvelope
  deriving DecidableEq

structure UpdateIntegrityMsg where
  id : DirectoryRecordId
  integrity : Integrity
  env : AuthorityEnvelope
  deriving DecidableEq

structure RenewLeaseMsg where
  leaseId : LeaseId
  env : AuthorityEnvelope
  deriving DecidableEq

structure InvalidateMsg where
  kind : UInt8
  target : UInt64
  generation : UInt64
  env : AuthorityEnvelope
  reason : Bytes
  deriving DecidableEq

/-- The image of an evidence update: the record, the evidence, the envelope. -/
def wrUpdate {ε : Type} [ByteEnum ε] (id : DirectoryRecordId) (evidence : ε)
    (env : AuthorityEnvelope) : Bytes :=
  [ByteWriter.strong id, ByteWriter.enum evidence, wrAuth env].flatten

def rdUpdate (ε : Type) [ByteEnum ε] : Reader (DirectoryRecordId × ε × AuthorityEnvelope) := do
  let id ← ByteReader.u64
  let e ← ByteReader.u8
  let env ← rdAuth {}
  pure (⟨id⟩, ofByte e, env)

def serializeUpdateHealth (m : UpdateHealthMsg) : Bytes := wrUpdate m.id m.health m.env

def deserializeUpdateHealth (p : Bytes) : Deserialized UpdateHealthMsg :=
  ((rdUpdate Health).runAll () p).map fun (id, h, env) => ⟨id, h, env⟩

def serializeUpdateFreshness (m : UpdateRefreshMsg) : Bytes := wrUpdate m.id m.freshness m.env

def deserializeUpdateFreshness (p : Bytes) : Deserialized UpdateRefreshMsg :=
  ((rdUpdate Freshness).runAll () p).map fun (id, f, env) => ⟨id, f, env⟩

def serializeUpdateReachability (m : UpdateReachMsg) : Bytes :=
  wrUpdate m.id m.reachability m.env

def deserializeUpdateReachability (p : Bytes) : Deserialized UpdateReachMsg :=
  ((rdUpdate Reachability).runAll () p).map fun (id, f, env) => ⟨id, f, env⟩

def serializeUpdateIntegrity (m : UpdateIntegrityMsg) : Bytes := wrUpdate m.id m.integrity m.env

def deserializeUpdateIntegrity (p : Bytes) : Deserialized UpdateIntegrityMsg :=
  ((rdUpdate Integrity).runAll () p).map fun (id, f, env) => ⟨id, f, env⟩

def serializeRenewLease (m : RenewLeaseMsg) : Bytes := ByteWriter.strong m.leaseId ++ wrAuth m.env

def rdRenewLease : Reader RenewLeaseMsg := do
  let id ← ByteReader.u64
  let env ← rdAuth {}
  pure { leaseId := ⟨id⟩, env := env }

def deserializeRenewLease : Bytes → Deserialized RenewLeaseMsg := rdRenewLease.runAll ()

def serializeInvalidate (m : InvalidateMsg) : Bytes :=
  open ByteWriter in
  [u8 m.kind, u64 m.target, u64 m.generation, wrAuth m.env, string m.reason].flatten

def rdInvalidate : Reader InvalidateMsg := do
  let kind ← ByteReader.u8
  let target ← ByteReader.u64
  let generation ← ByteReader.u64
  let env ← rdAuth {}
  let reason ← ByteReader.string (1 <<< 20)
  pure { kind := kind, target := target, generation := generation, env := env, reason := reason }

def deserializeInvalidate : Bytes → Deserialized InvalidateMsg := rdInvalidate.runAll ()

def serializeTombstone : TombstoneRecord → Bytes := wTomb

def deserializeTombstone (t : TombstoneRecord) : Bytes → Deserialized TombstoneRecord :=
  (rTomb t).runAll ()

end CacheDirectory.Protocol
