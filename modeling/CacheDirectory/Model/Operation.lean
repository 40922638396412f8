/-
  File:      CacheDirectory/Model/Operation.lean
  Subject:   THE PUBLIC OPERATIONS AS ONE STEP FUNCTION.

  `Operation` lists the public methods of `Directory` that can change it, with their arguments
  and with what the environment decides: the readings of the clock, the order in which a hash
  multimap enumerates a bucket. `run` gives the failure, when there is one, and the state behind
  the call. The methods that only read (`save_to_buffer`, `query_scan`, `explain_*`, the
  accessors) take no step; `indexes()` does, since it may build the cached indexes.
-/
import CacheDirectory.Model.Invalidation
import CacheDirectory.Model.Query
import CacheDirectory.Model.Persistence
import CacheDirectory.Library.Runs

namespace CacheDirectory

open Library Directory

inductive Operation where
  | registerWorkerSession (session : WorkerSession)
  | onWorkerLoss (boot : WorkerBootId) (reason : Bytes)
  | registerCache (cache : CacheDescriptor)
  | registerLocation (loc : LocationDescriptor)
  | registerReplica (replica : ReplicaDescriptor)
  | registerEntry (record : DirectoryRecord) (clk : Nat → TimestampNs)
  | updateHealth (id : DirectoryRecordId) (h : Health) (env : AuthorityEnvelope)
      (now : TimestampNs)
  | updateFreshness (id : DirectoryRecordId) (f : Freshness) (env : AuthorityEnvelope)
      (now : TimestampNs)
  | updateReachability (id : DirectoryRecordId) (reach : Reachability) (env : AuthorityEnvelope)
      (now : TimestampNs)
  | updateIntegrity (id : DirectoryRecordId) (integ : Integrity) (env : AuthorityEnvelope)
      (now : TimestampNs)
  | updateLifecycle (id : DirectoryRecordId) (s : LifecycleState) (env : AuthorityEnvelope)
      (now : TimestampNs)
  | updateCacheHealth (id : CacheId) (h : Health) (reach : Reachability)
      (env : AuthorityEnvelope)
  | updateCacheCapacity (id : CacheId) (capacity freeCapacity : UInt64)
      (env : AuthorityEnvelope)
  | registerLease (lease : LeaseDescriptor)
  | renewLease (id : LeaseId) (env : AuthorityEnvelope) (now : TimestampNs)
  | expireLease (id : LeaseId) (env : AuthorityEnvelope) (reason : Bytes)
  | revokeLease (id : LeaseId) (env : AuthorityEnvelope) (reason : Bytes)
  | invalidateState (s : StateId) (g : StateGeneration) (env : AuthorityEnvelope)
      (reason : Bytes) (clk : Nat → TimestampNs)
  | invalidateLocation (loc : LocationId) (env : AuthorityEnvelope) (reason : Bytes)
      (clk : Nat → TimestampNs)
  | invalidateReplica (rep : ReplicaId) (env : AuthorityEnvelope) (reason : Bytes)
      (clk : Nat → TimestampNs)
  | invalidateCache (c : CacheId) (env : AuthorityEnvelope) (reason : Bytes)
      (clk : Nat → TimestampNs)
  | invalidateWorkerBoot (b : WorkerBootId) (env : AuthorityEnvelope) (reason : Bytes)
      (clk : Nat → TimestampNs)
  | tombstone (t : TombstoneRecord)
  | query (order : Enumeration Nat) (q : DirectoryQuery)
  | setRankingPolicy (p : RankingPolicy)
  | validateIndexes
  | indexes
  | nextObjectId
  | recoverFromBuffer (buf : Bytes)

namespace Operation

/-- The failure of a call and the state behind it. -/
def report {α : Type} (r : Result α × Directory) : Option Failure × Directory :=
  (match r.1 with
    | .error f => some f
    | .ok _ => none,
    r.2)

/-- A call in a state; `F` is the type of doubles the ranking computes on. -/
def run (F : Type) [ScoreArith F] (op : Operation) (d : Directory) : Option Failure × Directory :=
  match op with
  | .registerWorkerSession session => report (d.registerWorkerSession session)
  | .onWorkerLoss boot reason => report (d.onWorkerLoss boot reason)
  | .registerCache cache => report (d.registerCache cache)
  | .registerLocation loc => report (d.registerLocation loc)
  | .registerReplica replica => report (d.registerReplica replica)
  | .registerEntry record clk => report (d.registerEntry record clk)
  | .updateHealth id h env now => report (d.updateHealth id h env now)
  | .updateFreshness id f env now => report (d.updateFreshness id f env now)
  | .updateReachability id reach env now => report (d.updateReachability id reach env now)
  | .updateIntegrity id integ env now => report (d.updateIntegrity id integ env now)
  | .updateLifecycle id s env now => report (d.updateLifecycle id s env now)
  | .updateCacheHealth id h reach env => report (d.updateCacheHealth id h reach env)
  | .updateCacheCapacity id capacity free env =>
      report (d.updateCacheCapacity id capacity free env)
  | .registerLease lease => report (d.registerLease lease)
  | .renewLease id env now => report (d.renewLease id env now)
  | .expireLease id env reason => report (d.expireLease id env reason)
  | .revokeLease id env reason => report (d.revokeLease id env reason)
  | .invalidateState s g env reason clk => report (d.invalidateState s g env reason clk)
  | .invalidateLocation loc env reason clk => report (d.invalidateLocation loc env reason clk)
  | .invalidateReplica rep env reason clk => report (d.invalidateReplica rep env reason clk)
  | .invalidateCache c env reason clk => report (d.invalidateCache c env reason clk)
  | .invalidateWorkerBoot b env reason clk => report (d.invalidateWorkerBoot b env reason clk)
  | .tombstone t => report (d.tombstone t)
  | .query order q => report (d.query (F := F) order q)
  | .setRankingPolicy p => (none, d.setRankingPolicy p)
  | .validateIndexes => report d.validateIndexes
  | .indexes => (none, d.ensureIndexes)
  | .nextObjectId => (none, d.nextObjectId.2)
  | .recoverFromBuffer buf =>
      match d.recoverFromBuffer buf with
      | some r => report r
      | none => (none, d)

/-- The state behind a call. -/
def step (F : Type) [ScoreArith F] (op : Operation) (d : Directory) : Directory := (op.run F d).2

/-- The call returned success. -/
def Accepted (F : Type) [ScoreArith F] (op : Operation) (d : Directory) : Prop :=
  (op.run F d).1 = none

instance (F : Type) [ScoreArith F] (op : Operation) (d : Directory) :
    Decidable (op.Accepted F d) :=
  inferInstanceAs (Decidable (_ = _))

def isRecovery : Operation → Bool
  | .recoverFromBuffer _ => true
  | _ => false

end Operation

/-! ## Reachable directories -/

/-- The states a run of public operations passes through, from a default-constructed directory
    on; recovery is given any bytes. -/
def Reached (F : Type) [ScoreArith F] (ops : List Operation) (d : Directory) : Prop :=
  d ∈ visited (Operation.step F) {} ops

namespace Directory

/-- What `size_t` gives: no container and no string reaches 2^64. -/
structure SizesFit (d : Directory) : Prop where
  records : d.records.length < 2 ^ 64
  caches : d.caches.size < 2 ^ 64
  locations : d.locations.size < 2 ^ 64
  replicas : d.replicas.size < 2 ^ 64
  leases : d.leases.size < 2 ^ 64
  tombstones : d.tombstones.length < 2 ^ 64
  observations : d.observations.length < 2 ^ 64
  nameSpaces : ∀ r ∈ d.records, r.nameSpace.length < 2 ^ 64
  processTags : ∀ l ∈ d.locations.values, l.processTag.length < 2 ^ 64
  locators : ∀ l ∈ d.locations.values, l.locator.key.length < 2 ^ 64
  reasons : ∀ t ∈ d.tombstones, t.reason.length < 2 ^ 64
  subjects : ∀ o ∈ d.observations, o.subject.length < 2 ^ 64
  subjectKeys : ∀ o ∈ d.observations, o.subjectKey.length < 2 ^ 64

end Directory

/-- States reached where recovery is given only snapshots of states reached in the same way. -/
inductive OwnReached (F : Type) [ScoreArith F] : Directory → Prop where
  | start : OwnReached F {}
  | step (d : Directory) (op : Operation) (h : OwnReached F d) (hop : op.isRecovery = false) :
      OwnReached F (op.step F d)
  | recover (d d' : Directory) (o : MapOrders) (h : OwnReached F d) (h' : OwnReached F d')
      (hfit : d'.SizesFit) :
      OwnReached F ((Operation.recoverFromBuffer (d'.saveToBuffer o).2).step F d)

section OwnReached

variable {F : Type} [ScoreArith F]

/-- A run without recoveries stays among these states. -/
theorem ownReached_after : ∀ (ops : List Operation) (d : Directory),
    (∀ op ∈ ops, op.isRecovery = false) → OwnReached F d →
    OwnReached F (after (Operation.step F) d ops)
  | [], _, _, hd => hd
  | op :: ops, d, h, hd =>
      ownReached_after ops (op.step F d) (fun op' hop' => h op' (List.mem_cons_of_mem _ hop'))
        (.step d op hd (h op List.mem_cons_self))

/-- **The run rule for these states**: recovery sees only snapshots of states that satisfy the
    invariant too. -/
theorem ownReached_invariant (Inv : Directory → Prop) (hstart : Inv {})
    (hstep : ∀ (op : Operation) d, op.isRecovery = false → Inv d → Inv (op.step F d))
    (hrec : ∀ (d d' : Directory) (o : MapOrders), Inv d → Inv d' → d'.SizesFit →
      Inv ((Operation.recoverFromBuffer (d'.saveToBuffer o).2).step F d))
    {d : Directory} (h : OwnReached F d) : Inv d := by
  induction h with
  | start => exact hstart
  | step d op _ hop ih => exact hstep op d hop ih
  | recover d d' o _ _ hfit ih ih' => exact hrec d d' o ih ih' hfit

end OwnReached

/-! ## Attaching a copy -/

/-- The session of worker 1 under boot 1. -/
def attachedSession : WorkerSession := { boot := ⟨1⟩, worker := ⟨1⟩ }

def attachedCache (e : CoordinatorEpoch) (c : CacheId) : CacheDescriptor :=
  { cacheId := c, workerBoot := ⟨1⟩, authority := { epoch := e } }

def attachedLocation (e : CoordinatorEpoch) (l : LocationId) : LocationDescriptor :=
  { locationId := l, worker := ⟨1⟩, workerBoot := ⟨1⟩, locator := { key := ascii "k" }
    authority := { epoch := e } }

def attachedReplica (e : CoordinatorEpoch) (c : CacheId) (l : LocationId) (p : ReplicaId) :
    ReplicaDescriptor :=
  { replicaId := p, location := l, cache := c, entry := ⟨1⟩
    authority := { epoch := e, boot := ⟨1⟩ } }

/-- The worker takes up one copy: session, cache, location and replica. -/
def attach (e : CoordinatorEpoch) (c : CacheId) (l : LocationId) (p : ReplicaId) :
    List Operation :=
  [.registerWorkerSession attachedSession, .registerCache (attachedCache e c),
    .registerLocation (attachedLocation e l), .registerReplica (attachedReplica e c l p)]

/-- The record of that copy, for generation `g` of the state `s`. -/
def attachedRecord (e : CoordinatorEpoch) (c : CacheId) (l : LocationId) (p : ReplicaId)
    (id : DirectoryRecordId) (s : StateId) (g : StateGeneration) : DirectoryRecord :=
  { recordId := id, stateId := s, stateGeneration := g, cache := c, entry := ⟨1⟩, replica := p
    location := l, worker := ⟨1⟩, workerBoot := ⟨1⟩
    authority := { epoch := e, boot := ⟨1⟩ } }

end CacheDirectory
