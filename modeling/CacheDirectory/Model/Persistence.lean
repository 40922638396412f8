/-
  File:      CacheDirectory/Model/Persistence.lean
  Subject:   SNAPSHOTS: SAVE AND RECOVER (persistence.hpp, persistence.cpp).

  The seven hand-written writers and readers, the snapshot body and its header, the validation of
  what was read, and its installation. A reader takes the object it reads into: a field it does
  not reach keeps its prior value. `recoverFromBuffer` has an outcome beside the source's two,
  `none`, for a read outside the buffer; `recoverFromBuffer_inside` shows it never happens.
  The maps are written in the order the hash map enumerates them, one `Enumeration` each.
-/
import CacheDirectory.Model.Registration

namespace CacheDirectory

open Library

/-! ## 1. Write helpers -/

section Writers

open ByteWriter

def wAuth (a : AuthorityEnvelope) : Bytes :=
  [strong a.epoch, strong a.boot, strong a.directoryGeneration, u64 a.fence].flatten

def wEst (e : AccessEstimate) : Bytes :=
  [f64 e.estimatedLatencyNs, f64 e.estimatedBandwidthBytesPerS, u64 e.transferBytes,
    u32 e.stagingSteps, flag e.restoreRequired, u32 e.remoteHops, enum e.locality,
    enum e.costClass, enum e.provenance].flatten

def wLease (l : LeaseDescriptor) : Bytes :=
  [strong l.leaseId, strong l.generation, strong l.holder, u64 l.startNs, u64 l.expiryNs,
    flag l.expires, enum l.state, strong l.provenance, wAuth l.authority].flatten

def wTarget (t : TombstoneTarget) : Bytes :=
  [enum t.kind, strong t.state, strong t.cache, strong t.entry, strong t.replica,
    strong t.location, strong t.workerBoot, strong t.node, strong t.device, strong t.backend,
    strong t.compatibility, strong t.policyGeneration, bytes t.content.toList,
    u64 t.generationFloor].flatten

def wTomb (t : TombstoneRecord) : Bytes :=
  [strong t.tombstoneId, wTarget t.target, strong t.epoch, strong t.workerBoot,
    strong t.authorityGeneration, string t.reason, u64 t.timestampNs,
    strong t.provenance].flatten

def wObs (o : ObservationRecord) : Bytes :=
  [strong o.observationId, strong o.generation, strong o.workerBoot, string o.subject,
    string o.subjectKey, enum o.reachability, enum o.health, enum o.integrity,
    enum o.freshness, f64 o.measuredLatencyNs, enum o.provenance, wAuth o.authority,
    u64 o.observedNs].flatten

def wCache (c : CacheDescriptor) : Bytes :=
  [strong c.cacheId, enum c.kind, strong c.node, strong c.worker, strong c.workerBoot,
    enum c.domain, u64 c.capacity, flag c.capacityKnown, u64 c.freeCapacity,
    flag c.freeCapacityKnown, enum c.reachability, enum c.health, enum c.freshness,
    strong c.provenance, strong c.generation, wAuth c.authority, u64 c.observedNs].flatten

def wLoc (l : LocationDescriptor) : Bytes :=
  [strong l.locationId, strong l.node, strong l.worker, strong l.workerBoot, strong l.device,
    enum l.domain, strong l.backend, strong l.tier, string l.processTag, string l.locator.key,
    u64 l.logicalBytes, u64 l.physicalBytes, flag l.physicalBytesKnown,
    flag l.contentDigestKnown,
    (if l.contentDigestKnown then bytes l.contentDigest.toList else []),
    enum l.locality, enum l.reachability, enum l.health, enum l.freshness, enum l.integrity,
    wEst l.estimate, strong l.generation, strong l.provenance, wAuth l.authority,
    u64 l.createdNs, u64 l.observedNs].flatten

def wRep (r : ReplicaDescriptor) : Bytes :=
  [strong r.replicaId, strong r.location, strong r.generation, strong r.cache, strong r.entry,
    enum r.reachability, enum r.health, enum r.integrity, enum r.freshness, u64 r.observedNs,
    wAuth r.authority].flatten

def wRec (r : DirectoryRecord) : Bytes :=
  [strong r.recordId, strong r.stateId, strong r.stateGeneration, enum r.kind,
    string r.nameSpace, strong r.cache, strong r.entry, strong r.replica, strong r.location,
    strong r.node, strong r.worker, strong r.workerBoot, strong r.device, enum r.domain,
    u64 r.logicalBytes, u64 r.physicalBytes, flag r.physicalBytesKnown,
    flag r.contentDigestKnown,
    (if r.contentDigestKnown then bytes r.contentDigest.toList else []),
    strong r.compatibility, strong r.provenance, strong r.locationGeneration,
    strong r.replicaGeneration, strong r.entryGeneration, enum r.health, enum r.freshness,
    enum r.integrity, enum r.reachability, flag r.hasLease,
    (if r.hasLease then wLease r.lease else []),
    wEst r.estimate, strong r.policyGeneration, wAuth r.authority, strong r.recordGeneration,
    enum r.lifecycle, flag r.current, u64 r.createdNs, u64 r.updatedNs, u64 r.observedNs,
    bytes r.semanticDigest.toList].flatten

end Writers

/-! ## 2. Read helpers -/

section Readers

open ByteReader

def rAuth (a : AuthorityEnvelope) : Reader AuthorityEnvelope := do
  let e ← u64
  let b ← u64
  let d ← u64
  let f ← u64
  pure { a with epoch := ⟨e⟩, boot := ⟨b⟩, directoryGeneration := ⟨d⟩, fence := f }

def rEst (e : AccessEstimate) : Reader AccessEstimate := do
  let lat ← f64
  let bw ← f64
  let bytes ← u64
  let steps ← u32
  let r8 ← u8
  let hops ← u32
  let loc ← u8
  let cost ← u8
  let prov ← u8
  pure { e with
    estimatedLatencyNs := lat
    estimatedBandwidthBytesPerS := bw
    transferBytes := bytes
    stagingSteps := steps
    remoteHops := hops
    restoreRequired := r8 != 0
    locality := ofByte loc
    costClass := ofByte cost
    provenance := ofByte prov }

def rLease (l : LeaseDescriptor) : Reader LeaseDescriptor := do
  let id ← u64
  let g ← u64
  let h ← u64
  let start ← u64
  let expiry ← u64
  let exp ← u8
  let st ← u8
  let pv ← u64
  let auth ← rAuth l.authority
  pure { l with
    startNs := start
    expiryNs := expiry
    authority := auth
    leaseId := ⟨id⟩
    generation := ⟨g⟩
    holder := ⟨h⟩
    expires := exp != 0
    state := ofByte st
    provenance := ⟨pv⟩ }

def rTarget (t : TombstoneTarget) : Reader TombstoneTarget := do
  let k ← u8
  let a ← u64
  let b ← u64
  let c ← u64
  let d ← u64
  let e ← u64
  let f ← u64
  let g ← u64
  let h ← u64
  let i ← u64
  let j ← u64
  let l ← u64
  let c1 ← digest
  let floor ← u64
  pure { t with
    kind := ofByte k
    content := c1
    generationFloor := floor
    state := ⟨a⟩
    cache := ⟨b⟩
    entry := ⟨c⟩
    replica := ⟨d⟩
    location := ⟨e⟩
    workerBoot := ⟨f⟩
    node := ⟨g⟩
    device := ⟨h⟩
    backend := ⟨i⟩
    compatibility := ⟨j⟩
    policyGeneration := ⟨l⟩ }

def rTomb (t : TombstoneRecord) : Reader TombstoneRecord := do
  let id ← u64
  let target ← rTarget t.target
  let e ← u64
  let b ← u64
  let a ← u64
  let reason ← string (1 <<< 20)
  let ts ← u64
  let p ← u64
  pure { t with
    tombstoneId := ⟨id⟩
    target := target
    reason := reason
    timestampNs := ts
    epoch := ⟨e⟩
    workerBoot := ⟨b⟩
    authorityGeneration := ⟨a⟩
    provenance := ⟨p⟩ }

def rObs (o : ObservationRecord) : Reader ObservationRecord := do
  let id ← u64
  let g ← u64
  let b ← u64
  let subject ← string (1 <<< 20)
  let key ← string (1 <<< 20)
  let rch ← u8
  let hl ← u8
  let it ← u8
  let fr ← u8
  let lat ← f64
  let pv ← u8
  let auth ← rAuth o.authority
  let obs ← u64
  pure { o with
    subject := subject
    subjectKey := key
    measuredLatencyNs := lat
    authority := auth
    observedNs := obs
    observationId := ⟨id⟩
    generation := ⟨g⟩
    workerBoot := ⟨b⟩
    reachability := ofByte rch
    health := ofByte hl
    integrity := ofByte it
    freshness := ofByte fr
    provenance := ofByte pv }

def rCache (c : CacheDescriptor) : Reader CacheDescriptor := do
  let id ← u64
  let k ← u8
  let n ← u64
  let w ← u64
  let b ← u64
  let d ← u8
  let capacity ← u64
  let ck ← u8
  let free ← u64
  let fk ← u8
  let rch ← u8
  let hl ← u8
  let fr ← u8
  let pv ← u64
  let g ← u64
  let auth ← rAuth c.authority
  let obs ← u64
  pure { c with
    capacity := capacity
    freeCapacity := free
    authority := auth
    cacheId := ⟨id⟩
    kind := ofByte k
    node := ⟨n⟩
    worker := ⟨w⟩
    workerBoot := ⟨b⟩
    domain := ofByte d
    capacityKnown := ck != 0
    freeCapacityKnown := fk != 0
    reachability := ofByte rch
    health := ofByte hl
    freshness := ofByte fr
    provenance := ⟨pv⟩
    generation := ⟨g⟩
    observedNs := obs }

def rLoc (l : LocationDescriptor) : Reader LocationDescriptor := do
  let id ← u64
  let n ← u64
  let w ← u64
  let b ← u64
  let dv ← u64
  let dm ← u8
  let bk ← u64
  let ti ← u64
  let tag ← string (1 <<< 20)
  let key ← string (1 <<< 24)
  let logical ← u64
  let physical ← u64
  let pk ← u8
  let dk ← u8
  let content ← optional (dk != 0) digest l.contentDigest
  let loc ← u8
  let rch ← u8
  let hl ← u8
  let fr ← u8
  let it ← u8
  let est ← rEst l.estimate
  let g ← u64
  let pv ← u64
  let auth ← rAuth l.authority
  let cr ← u64
  let obs ← u64
  pure { l with
    processTag := tag
    locator := { key := key }
    logicalBytes := logical
    physicalBytes := physical
    contentDigest := content
    estimate := est
    authority := auth
    locationId := ⟨id⟩
    node := ⟨n⟩
    worker := ⟨w⟩
    workerBoot := ⟨b⟩
    device := ⟨dv⟩
    domain := ofByte dm
    backend := ⟨bk⟩
    tier := ⟨ti⟩
    physicalBytesKnown := pk != 0
    contentDigestKnown := dk != 0
    locality := ofByte loc
    reachability := ofByte rch
    health := ofByte hl
    freshness := ofByte fr
    integrity := ofByte it
    generation := ⟨g⟩
    provenance := ⟨pv⟩
    createdNs := cr
    observedNs := obs }

def rRep (r : ReplicaDescriptor) : Reader ReplicaDescriptor := do
  let id ← u64
  let loc ← u64
  let g ← u64
  let c ← u64
  let e ← u64
  let rch ← u8
  let hl ← u8
  let it ← u8
  let fr ← u8
  let obs ← u64
  let auth ← rAuth r.authority
  pure { r with
    authority := auth
    replicaId := ⟨id⟩
    location := ⟨loc⟩
    generation := ⟨g⟩
    cache := ⟨c⟩
    entry := ⟨e⟩
    reachability := ofByte rch
    health := ofByte hl
    integrity := ofByte it
    freshness := ofByte fr
    observedNs := obs }

def rRec (r : DirectoryRecord) : Reader DirectoryRecord := do
  let rid ← u64
  let sid ← u64
  let sg ← u64
  let k ← u8
  let ns ← string (1 <<< 20)
  let cid ← u64
  let eid ← u64
  let rid2 ← u64
  let lid ← u64
  let nid ← u64
  let wid ← u64
  let wb ← u64
  let dv ← u64
  let dm ← u8
  let logical ← u64
  let physical ← u64
  let pk ← u8
  let dk ← u8
  let content ← optional (dk != 0) digest r.contentDigest
  let com ← u64
  let pv ← u64
  let lg ← u64
  let rg ← u64
  let eg ← u64
  let hl ← u8
  let fr ← u8
  let it ← u8
  let rch ← u8
  let le ← u8
  let lease ← optional (le != 0) (rLease r.lease) r.lease
  let est ← rEst r.estimate
  let pg ← u64
  let auth ← rAuth r.authority
  let rg2 ← u64
  let lc ← u8
  let cv ← u8
  let cr ← u64
  let up ← u64
  let ob ← u64
  let s1 ← digest
  pure { r with
    nameSpace := ns
    logicalBytes := logical
    physicalBytes := physical
    contentDigest := content
    lease := lease
    hasLease := le != 0 || r.hasLease
    estimate := est
    authority := auth
    semanticDigest := s1
    recordId := ⟨rid⟩
    stateId := ⟨sid⟩
    stateGeneration := ⟨sg⟩
    kind := ofByte k
    cache := ⟨cid⟩
    entry := ⟨eid⟩
    replica := ⟨rid2⟩
    location := ⟨lid⟩
    node := ⟨nid⟩
    worker := ⟨wid⟩
    workerBoot := ⟨wb⟩
    device := ⟨dv⟩
    domain := ofByte dm
    physicalBytesKnown := pk != 0
    contentDigestKnown := dk != 0
    compatibility := ⟨com⟩
    provenance := ⟨pv⟩
    locationGeneration := ⟨lg⟩
    replicaGeneration := ⟨rg⟩
    entryGeneration := ⟨eg⟩
    health := ofByte hl
    freshness := ofByte fr
    integrity := ofByte it
    reachability := ofByte rch
    policyGeneration := ⟨pg⟩
    recordGeneration := ⟨rg2⟩
    lifecycle := ofByte lc
    current := cv != 0
    createdNs := cr
    updatedNs := up
    observedNs := ob }

end Readers

/-! ## 3. Saving -/

namespace Persistence

def magic : UInt32 := 0x44434431
def version : UInt32 := 1
def maxCount : UInt64 := 100000000
def header : Nat := 44

end Persistence

/-- In which order each hash map enumerates its entries. -/
structure MapOrders where
  caches : Enumeration CacheDescriptor
  locations : Enumeration LocationDescriptor
  replicas : Enumeration ReplicaDescriptor
  leases : Enumeration LeaseDescriptor

def MapOrders.stored : MapOrders := ⟨.stored _, .stored _, .stored _, .stored _⟩

namespace Directory

/-- The nine words in front of the entities. -/
def snapshotCounts (d : Directory) : Bytes :=
  open ByteWriter in
  [u64 (.ofNat d.records.length), u64 (.ofNat d.caches.size), u64 (.ofNat d.locations.size),
    u64 (.ofNat d.replicas.size), u64 (.ofNat d.leases.size), u64 (.ofNat d.tombstones.length),
    u64 (.ofNat d.observations.length), strong d.epoch, strong d.directoryGeneration].flatten

def snapshotBody (o : MapOrders) (d : Directory) : Bytes :=
  [d.snapshotCounts, d.records.flatMap wRec, (o.caches.order d.caches.values).flatMap wCache,
    (o.locations.order d.locations.values).flatMap wLoc,
    (o.replicas.order d.replicas.values).flatMap wRep,
    (o.leases.order d.leases.values).flatMap wLease, d.tombstones.flatMap wTomb,
    d.observations.flatMap wObs].flatten

/-- The header of a body. -/
def snapshotHeader (body : Bytes) : Bytes :=
  open ByteWriter in
  [u32 Persistence.magic, u32 Persistence.version, u32 (Digest.crc32 body),
    bytes (Digest.sha256 body).toList].flatten

def saveToBuffer (o : MapOrders) (d : Directory) : Result AckResult × Bytes :=
  let body := d.snapshotBody o
  (.ok { message := ascii s!"serialized {d.records.length} records" },
    snapshotHeader body ++ body)

end Directory

/-! ## 4. Reading a snapshot -/

/-- Every failure of recovery carries PERSISTENCE_CORRUPT. -/
def persistenceCorrupt (text : String) : Failure := ⟨.persistenceCorrupt, text⟩

abbrev Loader (α : Type) := Parser UInt8 Failure α

structure Snapshot where
  records : List DirectoryRecord
  caches : List CacheDescriptor
  locations : List LocationDescriptor
  replicas : List ReplicaDescriptor
  leases : List LeaseDescriptor
  tombstones : List TombstoneRecord
  observations : List ObservationRecord
  epoch : UInt64
  directoryGeneration : UInt64

/-- The header: the checksum and the digest it holds. -/
def readHeader : Loader (UInt32 × ContentDigest) := do
  let magic ← ByteReader.u32.orFail (persistenceCorrupt "truncation: magic")
  Parser.refuseIf (magic != Persistence.magic) (persistenceCorrupt "bad magic")
  let version ← ByteReader.u32.orFail (persistenceCorrupt "truncation: version")
  Parser.refuseIf (version != Persistence.version) (persistenceCorrupt "unsupported version")
  let crc ← ByteReader.u32.orFail (persistenceCorrupt "truncation: crc")
  let sha1 ← ByteReader.digest.orFail (persistenceCorrupt "truncation: sha256")
  pure (crc, sha1)

/-- One of the seven counts. -/
def readCount : Loader UInt64 := ByteReader.u64.orFail (persistenceCorrupt "truncation: counts")

/-- `n` entities, each read into a fresh object. -/
def readEntities {α : Type} (n : UInt64) (p : Reader α) (text : String) : Loader (List α) :=
  Parser.times n.toNat (p.orFail (persistenceCorrupt text))

def readBody : Loader Snapshot := do
  let nrecs ← readCount
  let ncaches ← readCount
  let nlocs ← readCount
  let nreps ← readCount
  let nleases ← readCount
  let ntombs ← readCount
  let nobs ← readCount
  let epoch ← ByteReader.u64.orFail (persistenceCorrupt "truncation: epoch")
  let dirgen ← ByteReader.u64.orFail (persistenceCorrupt "truncation: directory generation")
  Parser.refuseIf
    ([nrecs, ncaches, nlocs, nreps, nleases, ntombs, nobs].any fun n => n > Persistence.maxCount)
    (persistenceCorrupt "impossible count")
  let recs ← readEntities nrecs (rRec {}) "malformed record"
  let caches ← readEntities ncaches (rCache {}) "malformed cache"
  let locs ← readEntities nlocs (rLoc {}) "malformed location"
  let reps ← readEntities nreps (rRep {}) "malformed replica"
  let leases ← readEntities nleases (rLease {}) "malformed lease"
  let tombs ← readEntities ntombs (rTomb {}) "malformed tombstone"
  let obs ← readEntities nobs (rObs {}) "malformed observation"
  pure
    { records := recs
      caches := caches
      locations := locs
      replicas := reps
      leases := leases
      tombstones := tombs
      observations := obs
      epoch := epoch
      directoryGeneration := dirgen }

/-- Header, checksum, digest, body, end of input, in that order. -/
def parseSnapshot (buf : Bytes) : Except (ReadFault Failure) Snapshot :=
  if buf.length < Persistence.header then
    .error (.refused (persistenceCorrupt "truncation: header incomplete"))
  else
    match readHeader.raw ⟨buf, 0⟩ with
    | .error e => .error e
    | .ok ((crc, sha1), rd) =>
        let body := buf.drop rd.pos
        if Digest.crc32 body != crc then
          .error (.refused (persistenceCorrupt "checksum mismatch"))
        else if !Digest.digestEqual (Digest.sha256 body) sha1 then
          .error (.refused (persistenceCorrupt "semantic digest mismatch"))
        else readBody.runAll (persistenceCorrupt "trailing garbage") body

/-! ## 5. Validation -/

/-- `dup_check`: a key is met a second time. -/
def dupCheck {α κ : Type} [DecidableEq κ] (vec : List α) (what : String) (id : α → κ) :
    Bool × Failure :=
  (!decide (vec.map id).Nodup, persistenceCorrupt ("duplicate " ++ what ++ " id"))

abbrev StateGenerations := KeyedMap (Prod.fst : StateId × StateGeneration → StateId)

/-- One turn of the loop over the current records: keep the greater generation. -/
def raiseGeneration (cur : StateGenerations) (x : DirectoryRecord) : StateGenerations :=
  if x.current then
    match cur.find x.stateId with
    | none => cur.put (x.stateId, x.stateGeneration)
    | some it =>
        if it.2.value < x.stateGeneration.value then cur.put (x.stateId, x.stateGeneration)
        else cur
  else cur

def currentGenerations (records : List DirectoryRecord) : StateGenerations :=
  records.foldl raiseGeneration ∅

/-- The checks between parsing and installation. -/
def Snapshot.problem (s : Snapshot) : Option Failure :=
  let cur := currentGenerations s.records
  firstFailure
    ([dupCheck s.records "record" (·.recordId), dupCheck s.caches "cache" (·.cacheId),
        dupCheck s.locations "location" (·.locationId),
        dupCheck s.replicas "replica" (·.replicaId), dupCheck s.leases "lease" (·.leaseId),
        dupCheck s.tombstones "tombstone" (·.tombstoneId),
        dupCheck s.observations "observation" (·.observationId),
        (s.records.any fun x =>
            x.recordId.isNull || x.stateId.isNull || x.cache.isNull || x.replica.isNull ||
              x.location.isNull,
          persistenceCorrupt "malformed record identity")] ++
      (s.tombstones.flatMap fun x =>
        [(x.tombstoneId.isNull, persistenceCorrupt "malformed tombstone"),
          (decide ((toByte x.target.kind).toNat > 12),
            persistenceCorrupt "malformed tombstone kind")]) ++
      [(s.leases.any fun x => x.leaseId.isNull || x.holder.isNull,
          persistenceCorrupt "malformed lease"),
        (s.records.any fun x =>
            x.current &&
              (cur.find x.stateId).any fun it => x.stateGeneration.value < it.2.value,
          persistenceCorrupt "generation regression")])

/-! ## 6. Installation -/

/-- What `recompute_record_digest` feeds to SHA-256: the field order of `semantic_digest_of`,
    written out again. -/
def recomputedImage (r : DirectoryRecord) : Bytes :=
  open ByteWriter in
  [strong r.stateId, strong r.stateGeneration, enum r.kind, string r.nameSpace,
    strong r.cache, strong r.entry, strong r.replica, strong r.location, strong r.node,
    strong r.worker, strong r.workerBoot, strong r.device, enum r.domain,
    u64 r.logicalBytes, u64 r.physicalBytes, flag r.physicalBytesKnown,
    flag r.contentDigestKnown,
    (if r.contentDigestKnown then bytes r.contentDigest.toList else []),
    strong r.compatibility, strong r.provenance, strong r.locationGeneration,
    strong r.replicaGeneration, strong r.entryGeneration, enum r.health, enum r.freshness,
    enum r.integrity, enum r.reachability, flag r.hasLease, strong r.policyGeneration,
    strong r.authority.epoch, strong r.authority.boot,
    strong r.authority.directoryGeneration, u64 r.authority.fence].flatten

/-- `recompute_record_digest`. -/
def recomputeRecordDigest (r : DirectoryRecord) : DirectoryRecord :=
  { r with semanticDigest := Digest.sha256 (recomputedImage r) }

/-- The freshness a recovered copy comes back with. -/
def recoveredFreshness (d : MemoryDomain) : Freshness :=
  if isProcessLocal d then .revalidationRequired else .stale

def recoverRecord (r : DirectoryRecord) : DirectoryRecord :=
  let r : DirectoryRecord :=
    { r with
      freshness := recoveredFreshness r.domain
      reachability := .revalidationRequired }
  recomputeRecordDigest
    { r with
      lifecycle :=
        if r.integrity == .corrupt then .failed
        else if r.reachability == .unreachable then .unreachable
        else .stale }

def recoverLocation (l : LocationDescriptor) : LocationDescriptor :=
  { l with freshness := recoveredFreshness l.domain, reachability := .revalidationRequired }

def recoverLease (l : LeaseDescriptor) : LeaseDescriptor :=
  { l with state := .revalidationRequired }

namespace Directory

/-- The state behind a successful recovery: the policy and the id counter of the process stay. -/
def install (s : Snapshot) (d : Directory) : Directory :=
  let records := s.records.map recoverRecord
  { d with
    records := records
    caches := KeyedMap.ofList _ s.caches
    locations := (KeyedMap.ofList _ s.locations).adjust (fun _ => true) recoverLocation
      fun _ => rfl
    replicas := KeyedMap.ofList _ s.replicas
    leases := (KeyedMap.ofList _ s.leases).adjust (fun _ => true) recoverLease fun _ => rfl
    tombstones := s.tombstones
    observations := s.observations
    workers := ∅
    currentStateGen := currentGenerations records
    epoch := ⟨s.epoch + 1⟩
    directoryGeneration := ⟨s.directoryGeneration⟩
    indexesDirty := true }.recomputeAccounting

/-- `recover_from_buffer`; `none` stands for a read outside the buffer. -/
def recoverFromBuffer (buf : Bytes) (d : Directory) : Option (Result AckResult × Directory) :=
  match parseSnapshot buf with
  | .error .outside => none
  | .error (.refused f) => some (.error f, d)
  | .ok s =>
      match s.problem with
      | some f => some (.error f, d)
      | none =>
          let n := s.records.length
          some
            (.ok { message :=
                ascii s!"recovered {n} records; {n} locations flagged revalidation" },
              d.install s)

end Directory

/-! ## 7. Files -/

/-- How writing the temporary file and renaming it ends. -/
inductive FileOutcome where
  | done | cannotOpen | writeFailed | closeFailed | renameFailed

def FileOutcome.failure : FileOutcome → Option Failure
  | .done => none
  | .cannotOpen => some (persistenceCorrupt "cannot open temp file")
  | .writeFailed => some (persistenceCorrupt "write failed")
  | .closeFailed => some (persistenceCorrupt "flush/close failed")
  | .renameFailed => some (persistenceCorrupt "atomic rename failed")

namespace Directory

/-- `save`; what the file system makes of it is an argument. -/
def save (o : MapOrders) (outcome : FileOutcome) (path : Bytes) (d : Directory) :
    Result AckResult :=
  match (d.saveToBuffer o).1 with
  | .error f => .error f
  | .ok _ =>
      match outcome.failure with
      | some f => .error f
      | none => .ok { message := ascii "saved to " ++ path }

/-- `recover`; `contents` is what the file holds, `none` when it cannot be opened. -/
def recover (contents : Option Bytes) (d : Directory) : Option (Result AckResult × Directory) :=
  match contents with
  | none => some (.error (persistenceCorrupt "cannot open file"), d)
  | some [] => some (.error (persistenceCorrupt "truncation: empty file"), d)
  | some (b :: bs) => d.recoverFromBuffer (b :: bs)

end Directory

end CacheDirectory
