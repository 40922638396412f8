/-
  File:      CacheDirectory/Model/Registration.lean
  Subject:   SESSIONS AND REGISTRATION (directory.cpp, first half).

  Worker sessions and their loss, the registration of caches, locations and replicas, and the
  registration transaction of a record: `checkRegistration`, then `commitRecord`. Every check is
  listed in the order of the source with the source's error and text. A clock reading is an
  argument; an operation that reads the clock more than once takes `clk : Nat → TimestampNs`.
-/
import CacheDirectory.Model.Directory
import CacheDirectory.Model.Serde

namespace CacheDirectory

open Library

namespace Directory

/-! ## 1. Worker sessions -/

def registerWorkerSession (session : WorkerSession) (d : Directory) :
    Result WorkerSession × Directory :=
  let s : WorkerSession := { session with live := true }
  let restart :=
    d.workers.values.any fun w => w.worker == session.worker && w.boot != session.boot
  guarded
    [(session.boot.isNull, ⟨.invalidIdentity, "empty WorkerBootId"⟩),
      (session.worker.isNull, ⟨.invalidIdentity, "empty WorkerId"⟩),
      ((d.workers.find session.boot).any (·.live),
        ⟨.invalidIdentity, "worker boot already live"⟩)]
    d
    (s, { d with
      workers := d.workers.put s
      accounting :=
        if restart then
          { d.accounting with workerRestarts := d.accounting.workerRestarts + 1 }
        else d.accounting })

/-- What the loss of its worker does to a record. -/
def loseRecord (r : DirectoryRecord) : DirectoryRecord :=
  if isProcessLocal r.domain then
    { r with
      freshness := .revalidationRequired
      reachability := .revalidationRequired
      lifecycle := .stale }
  else { r with freshness := .stale, reachability := .unreachable, lifecycle := .unreachable }

def onWorkerLoss (boot : WorkerBootId) (_reason : Bytes) (d : Directory) :
    Result AckResult × Directory :=
  if !d.workerLive boot then (.ok { message := ascii "worker already lost" }, d)
  else
    let affected := UInt32.ofNat (d.records.countP fun r => r.workerBoot == boot)
    (.ok { message := ascii s!"worker {boot.str} lost; {affected.toNat} records marked" },
      { d with
        workers := d.workers.adjust (fun w => w.boot == boot)
          (fun w => { w with live := false, sourceAuthority := w.sourceAuthority + 1 })
          fun _ => rfl
        records := d.records.map fun (r : DirectoryRecord) =>
          if r.workerBoot == boot then loseRecord r else r
        locations := d.locations.adjust (fun l => l.workerBoot == boot)
          (fun l =>
            { l with
              freshness := .revalidationRequired
              reachability := .revalidationRequired
              health := .unavailable })
          fun _ => rfl
        caches := d.caches.adjust (fun c => c.workerBoot == boot)
          (fun c =>
            { c with reachability := .unreachable, health := .unavailable, freshness := .stale })
          fun _ => rfl
        leases := d.leases.adjust (fun l => l.holder == boot)
          (fun l => { l with state := .revalidationRequired }) fun _ => rfl
        indexesDirty := true }.recomputeAccounting)

/-! ## 2. Descriptors -/

/-- `++accounting_.registrations`. -/
def registered (a : Accounting) : Accounting := { a with registrations := a.registrations + 1 }

def registerCache (cache : CacheDescriptor) (d : Directory) : Result CacheDescriptor × Directory :=
  let it := d.caches.find cache.cacheId
  guarded
    [(cache.cacheId.isNull, ⟨.invalidIdentity, "empty CacheId"⟩),
      (cache.workerBoot.isNull, ⟨.invalidIdentity, "empty WorkerBootId"⟩),
      (cache.authority.epoch != d.epoch, ⟨.staleEpoch, "stale epoch"⟩),
      (!d.workerLive cache.workerBoot, ⟨.noAuthority, "worker session not live"⟩),
      (it.any fun c => c.workerBoot != cache.workerBoot,
        ⟨.staleWorkerBoot, "cache owned by another incarnation"⟩),
      (it.any fun c => cache.authority.fence < c.authority.fence,
        ⟨.staleAuthority, "stale cache authority"⟩)]
    d
    (cache, { d with
      caches := d.caches.put cache
      accounting := registered d.accounting
      indexesDirty := true }.recomputeAccounting)

def registerLocation (loc : LocationDescriptor) (d : Directory) :
    Result LocationDescriptor × Directory :=
  let it := d.locations.find loc.locationId
  guarded
    [(loc.locationId.isNull, ⟨.invalidIdentity, "empty LocationId"⟩),
      (loc.workerBoot.isNull, ⟨.invalidIdentity, "empty WorkerBootId"⟩),
      (loc.locator.key.isEmpty, ⟨.invalidIdentity, "empty locator"⟩),
      (loc.authority.epoch != d.epoch, ⟨.staleEpoch, "stale epoch"⟩),
      (!d.workerLive loc.workerBoot, ⟨.noAuthority, "worker session not live"⟩),
      (it.any fun l => l.workerBoot != loc.workerBoot,
        ⟨.staleWorkerBoot, "location owned by another incarnation"⟩),
      (it.any fun l => loc.authority.fence < l.authority.fence,
        ⟨.staleAuthority, "stale location authority"⟩),
      (it.any fun l => loc.generation.value < l.generation.value,
        ⟨.staleGeneration, "stale location generation"⟩)]
    d
    (loc, { d with
      locations := d.locations.put loc
      accounting := registered d.accounting
      indexesDirty := true }.recomputeAccounting)

def registerReplica (replica : ReplicaDescriptor) (d : Directory) :
    Result ReplicaDescriptor × Directory :=
  guarded
    [(replica.replicaId.isNull, ⟨.invalidIdentity, "empty ReplicaId"⟩),
      (!d.locations.contains replica.location,
        ⟨.missingDependency, "location not registered"⟩),
      (replica.authority.epoch != d.epoch, ⟨.staleEpoch, "stale epoch"⟩),
      (!d.workerLive replica.authority.boot, ⟨.noAuthority, "worker session not live"⟩),
      ((d.replicas.find replica.replicaId).any fun r => r.authority.boot != replica.authority.boot,
        ⟨.staleWorkerBoot, "replica owned by another incarnation"⟩)]
    d
    (replica, { d with
      replicas := d.replicas.put replica
      accounting := registered d.accounting
      indexesDirty := true }.recomputeAccounting)

/-! ## 3. Fences -/

/-- One turn of the loop in `covered_by_tombstone`. -/
def covers (tk target : TombstoneTarget) : Bool :=
  tk.kind == target.kind &&
    match tk.kind with
    | .state => tk.state == target.state && target.generationFloor ≤ tk.generationFloor
    | .cache => tk.cache == target.cache && target.generationFloor ≤ tk.generationFloor
    | .entry => tk.entry == target.entry && target.generationFloor ≤ tk.generationFloor
    | .replica => tk.replica == target.replica && target.generationFloor ≤ tk.generationFloor
    | .location => tk.location == target.location && target.generationFloor ≤ tk.generationFloor
    | .workerBoot => tk.workerBoot == target.workerBoot
    | .node => tk.node == target.node
    | .device => tk.device == target.device
    | .backend => tk.backend == target.backend
    | .compatibility =>
        tk.compatibility == target.compatibility && target.generationFloor ≤ tk.generationFloor
    | .policy => tk.policyGeneration == target.policyGeneration
    | .content => Digest.digestEqual tk.content target.content
    | .generic => true
    | .undeclared _ _ => false

def coveredByTombstone (d : Directory) (target : TombstoneTarget) : Bool :=
  d.tombstones.any fun t => covers t.target target

/-- The target a registration is tested against. -/
def stateTarget (record : DirectoryRecord) : TombstoneTarget :=
  { kind := .state, state := record.stateId, generationFloor := record.stateGeneration.value }

/-! ## 4. The registration transaction -/

/-- The checks of `check_registration` before the tombstone check. -/
def dependencyChecks (d : Directory) (record : DirectoryRecord) : List (Bool × Failure) :=
  let lit := d.locations.find record.location
  let rit := d.replicas.find record.replica
  [(record.stateId.isNull, ⟨.invalidIdentity, "empty StateId"⟩),
    (record.cache.isNull, ⟨.invalidIdentity, "empty CacheId"⟩),
    (record.entry.isNull, ⟨.invalidIdentity, "empty CacheEntryId"⟩),
    (record.replica.isNull, ⟨.invalidIdentity, "empty ReplicaId"⟩),
    (record.location.isNull, ⟨.invalidIdentity, "empty LocationId"⟩),
    (record.authority.epoch != d.epoch, ⟨.staleEpoch, "stale epoch"⟩),
    (!d.workerLive record.authority.boot, ⟨.noAuthority, "worker session not live"⟩),
    ((d.caches.find record.cache).isNone, ⟨.missingDependency, "cache not registered"⟩),
    (lit.isNone, ⟨.missingDependency, "location not registered"⟩),
    (rit.isNone, ⟨.missingDependency, "replica not registered"⟩),
    (rit.any fun rep => rep.location != record.location,
      ⟨.missingDependency, "replica/location mismatch"⟩),
    (rit.any fun rep => rep.cache != record.cache || rep.entry != record.entry,
      ⟨.missingDependency, "replica/cache mismatch"⟩),
    (lit.any fun loc =>
        loc.node != record.node || loc.worker != record.worker ||
          loc.workerBoot != record.workerBoot,
      ⟨.missingDependency, "location owner mismatch"⟩),
    (lit.any fun loc => loc.domain != record.domain, ⟨.dimensionMismatch, "domain mismatch"⟩),
    (lit.any fun loc => loc.reachability == .unreachable,
      ⟨.staleGeneration, "location invalidated"⟩)]

def tombstoneCheck (d : Directory) (record : DirectoryRecord) : Bool × Failure :=
  (d.coveredByTombstone (stateTarget record), ⟨.tombstoned, "covered by state tombstone"⟩)

def generationCheck (d : Directory) (record : DirectoryRecord) : Bool × Failure :=
  ((d.currentGen record.stateId).any fun cg => record.stateGeneration.value < cg.value,
    ⟨.staleGeneration, "state generation below current"⟩)

/-- A stored record that stands for the same copy. -/
def sameCopy (record r : DirectoryRecord) : Bool :=
  (r.current || r.lifecycle == .superseded) && r.stateId == record.stateId &&
    r.stateGeneration == record.stateGeneration && r.replica == record.replica &&
    r.location == record.location && r.cache == record.cache

def identical (record r : DirectoryRecord) : Bool :=
  r.logicalBytes == record.logicalBytes && r.contentDigestKnown == record.contentDigestKnown &&
    (!record.contentDigestKnown || Digest.digestEqual r.contentDigest record.contentDigest) &&
    r.replicaGeneration == record.replicaGeneration &&
    r.locationGeneration == record.locationGeneration

/-- The duplicate search: the first record of the same copy decides. -/
def duplicateCheck (d : Directory) (record : DirectoryRecord) : Option Failure :=
  (d.records.find? (sameCopy record)).map fun r =>
    if identical record r then ⟨.duplicateIdentity, "exact duplicate"⟩
    else ⟨.conflictingDuplicate, "conflicting duplicate for same copy"⟩

def checkRegistration (d : Directory) (record : DirectoryRecord) : Option Failure :=
  (firstFailure (d.dependencyChecks record ++
    [d.tombstoneCheck record, d.generationCheck record])).or (d.duplicateCheck record)

/-- What `semantic_digest_of` feeds to SHA-256. -/
def semanticImage (r : DirectoryRecord) : Bytes :=
  open ByteWriter in
  [strong r.stateId, strong r.stateGeneration, enum r.kind, string r.nameSpace,
    strong r.cache, strong r.entry, strong r.replica, strong r.location, strong r.node,
    strong r.worker, strong r.workerBoot, strong r.device, enum r.domain, u64 r.logicalBytes,
    u64 r.physicalBytes, flag r.physicalBytesKnown, flag r.contentDigestKnown,
    (if r.contentDigestKnown then bytes r.contentDigest.toList else []),
    strong r.compatibility, strong r.provenance, strong r.locationGeneration,
    strong r.replicaGeneration, strong r.entryGeneration, enum r.health, enum r.freshness,
    enum r.integrity, enum r.reachability, flag r.hasLease, strong r.policyGeneration,
    strong r.authority.epoch, strong r.authority.boot, strong r.authority.directoryGeneration,
    u64 r.authority.fence].flatten

def semanticDigestOf (r : DirectoryRecord) : ContentDigest := Digest.sha256 (semanticImage r)

/-- The id a registration commits under: the caller's, or the counter's for a null one. -/
def effectiveId (d : Directory) (record : DirectoryRecord) : DirectoryRecordId :=
  if record.recordId.isNull then ⟨d.nextObj⟩ else record.recordId

/-- The record as `commit_record` stores it, before the loops over the others. -/
def stamped (d : Directory) (record : DirectoryRecord) (clk : Nat → TimestampNs) :
    DirectoryRecord :=
  let r : DirectoryRecord :=
    { record with
      recordId := d.effectiveId record
      createdNs := if record.createdNs == 0 then clk 0 else record.createdNs
      updatedNs := clk 1
      recordGeneration := ⟨d.directoryGeneration.value + 1⟩
      current := true }
  { r with
    semanticDigest := semanticDigestOf r
    lifecycle :=
      if r.integrity == .corrupt then .failed
      else if r.reachability == .unreachable then .unreachable
      else .available }

def superseded (r : DirectoryRecord) : DirectoryRecord :=
  { r with current := false, lifecycle := .superseded }

/-- The first loop: current records of the state below the new generation. -/
def supersedeOlderOf (record r : DirectoryRecord) : DirectoryRecord :=
  if r.stateId == record.stateId && r.stateGeneration.value < record.stateGeneration.value &&
      r.current then
    superseded r
  else r

/-- The second loop: current records of the same replica at the same location, when the new
    record's replica or location generation is greater. -/
def supersedeCopyOf (record r : DirectoryRecord) : DirectoryRecord :=
  if r.current && r.stateId == record.stateId && r.replica == record.replica &&
      r.location == record.location && r.recordId != record.recordId &&
      (record.replicaGeneration.value > r.replicaGeneration.value ||
        record.locationGeneration.value > r.locationGeneration.value) then
    superseded r
  else r

def commitRecord (record : DirectoryRecord) (supersedeOlder : Bool) (clk : Nat → TimestampNs)
    (d : Directory) : DirectoryRecord × Directory :=
  let rec' := d.stamped record clk
  let older :=
    if supersedeOlder then d.records.map (supersedeOlderOf rec') else d.records
  (rec', { d with
    nextObj := if record.recordId.isNull then d.nextObj + 1 else d.nextObj
    records := older.map (supersedeCopyOf rec') ++ [rec']
    currentStateGen := d.currentStateGen.put (rec'.stateId, rec'.stateGeneration)
    directoryGeneration := ⟨d.directoryGeneration.value + 1⟩
    accounting := registered d.accounting
    indexesDirty := true }.recomputeAccounting)

/-- `register_entry`: a generation above the current one supersedes what is below it. -/
def registerEntry (record : DirectoryRecord) (clk : Nat → TimestampNs) (d : Directory) :
    Result DirectoryRecord × Directory :=
  match d.checkRegistration record with
  | some f => (.error f, d)
  | none =>
      let supersede :=
        (d.currentGen record.stateId).any fun cg => record.stateGeneration.value > cg.value
      let (r, d') := d.commitRecord record supersede clk
      (.ok r, d')

end Directory

end CacheDirectory
