/-
  File:      CacheDirectory/Invariants/Realms.lean
  Subject:   WHICH OBJECTS A CALL NAMES.

  The objects of a directory refer to each other by id, and a call reaches an object only through
  an id it names. Where every call keeps its names on one side of a division of the ids, so does
  everything on file.

  * `Identifier`, `names` -- the ids an object or a call goes by;
  * `OneSide` -- they lie on one side of a division;
  * `Operation.Sided` -- the calls that keep to a side;
  * `Divided`, `divided_step` -- what is on file keeps to one as well.
-/
import CacheDirectory.Invariants.Fences

namespace CacheDirectory

open Library Directory

/-! ## 1. Names -/

inductive Identifier where
  | boot (id : WorkerBootId)
  | cache (id : CacheId)
  | location (id : LocationId)
  | replica (id : ReplicaId)
  | lease (id : LeaseId)
  | state (id : StateId)
  | record (id : DirectoryRecordId)
  deriving DecidableEq

def CacheDescriptor.names (c : CacheDescriptor) : List Identifier :=
  [.cache c.cacheId, .boot c.workerBoot]

def LocationDescriptor.names (l : LocationDescriptor) : List Identifier :=
  [.location l.locationId, .boot l.workerBoot]

/-- The cache a replica names is compared with that of a record, and not looked up. -/
def ReplicaDescriptor.names (r : ReplicaDescriptor) : List Identifier :=
  [.replica r.replicaId, .location r.location, .boot r.authority.boot]

def LeaseDescriptor.names (l : LeaseDescriptor) : List Identifier :=
  [.lease l.leaseId, .boot l.holder]

def DirectoryRecord.names (r : DirectoryRecord) : List Identifier :=
  [.record r.recordId, .state r.stateId, .cache r.cache, .replica r.replica, .location r.location,
    .boot r.workerBoot, .boot r.authority.boot]

/-- A tombstone stands for its author, and one of kind STATE for the state. -/
def TombstoneRecord.names (t : TombstoneRecord) : List Identifier :=
  .boot t.workerBoot :: if t.target.kind = .state then [.state t.target.state] else []

/-- The names a call goes by. -/
def Operation.names : Operation → List Identifier
  | .registerWorkerSession session => [.boot session.boot]
  | .onWorkerLoss boot _ => [.boot boot]
  | .registerCache cache => cache.names
  | .registerLocation loc => loc.names
  | .registerReplica replica => replica.names
  | .registerEntry record _ => record.names
  | .updateHealth id _ _ _ => [.record id]
  | .updateFreshness id _ _ _ => [.record id]
  | .updateReachability id _ _ _ => [.record id]
  | .updateIntegrity id _ _ _ => [.record id]
  | .updateLifecycle id _ _ _ => [.record id]
  | .updateCacheHealth id _ _ _ => [.cache id]
  | .updateCacheCapacity id _ _ _ => [.cache id]
  | .registerLease lease => lease.names
  | .renewLease id _ _ => [.lease id]
  | .expireLease id _ _ => [.lease id]
  | .revokeLease id _ _ => [.lease id]
  -- whether the caller is live decides which records are passed over
  | .invalidateState s _ env _ _ => [.state s, .boot env.boot]
  | .invalidateLocation loc _ _ _ => [.location loc]
  | .invalidateReplica rep _ _ _ => [.replica rep]
  | .invalidateCache c _ _ _ => [.cache c]
  | .invalidateWorkerBoot b _ _ _ => [.boot b]
  | .tombstone t => t.names
  | _ => []

/-- The call asks the directory to make up the id of a record. -/
def Operation.asksId : Operation → Bool
  | .registerEntry record _ => record.recordId.isNull
  | _ => false

/-- All names are own, or none is. -/
def OneSide (own : Identifier → Bool) (names : List Identifier) : Prop :=
  ∃ side, ∀ x ∈ names, own x = side

instance (own : Identifier → Bool) (names : List Identifier) : Decidable (OneSide own names) :=
  inferInstanceAs (Decidable (∃ side, ∀ x ∈ names, own x = side))

theorem OneSide.eq {own : Identifier → Bool} {names : List Identifier} (h : OneSide own names)
    {x y : Identifier} (hx : x ∈ names) (hy : y ∈ names) : own x = own y := by
  obtain ⟨side, hside⟩ := h
  rw [hside x hx, hside y hy]

/-- The call keeps to a side: it brings the ids it needs, all of one side, and does not bring back
    a snapshot. -/
structure Operation.Sided (own : Identifier → Bool) (op : Operation) : Prop where
  fresh : op.isRecovery = false
  named : op.asksId = false
  names : OneSide own op.names

instance (own : Identifier → Bool) (op : Operation) : Decidable (op.Sided own) :=
  decidable_of_iff (op.isRecovery = false ∧ op.asksId = false ∧ OneSide own op.names)
    ⟨fun ⟨hfresh, hnamed, hnames⟩ => ⟨hfresh, hnamed, hnames⟩, fun h => ⟨h.1, h.2, h.3⟩⟩

/-! ## 2. What is on file -/

/-- Everything on file keeps to a side. -/
structure Divided (own : Identifier → Bool) (d : Directory) : Prop where
  caches : ∀ id c, d.caches.find id = some c → OneSide own c.names
  locations : ∀ id l, d.locations.find id = some l → OneSide own l.names
  leases : ∀ id l, d.leases.find id = some l → OneSide own l.names
  tombstones : ∀ t ∈ d.tombstones, OneSide own t.names
  records : ∀ r ∈ d.records, OneSide own r.names

theorem divided_empty (own : Identifier → Bool) : Divided own {} where
  caches _ _ h := nomatch h
  locations _ _ h := nomatch h
  leases _ _ h := nomatch h
  tombstones _ h := nomatch h
  records _ h := nomatch h

section Call

variable {F : Type} [ScoreArith F] {op : Operation} {d : Directory} {own : Identifier → Bool}

theorem Kept.names {r r' : DirectoryRecord} (h : Kept r r') : r'.names = r.names := by
  have hcore (r : DirectoryRecord) : (CacheDirectory.core r).names = r.names := rfl
  rw [← hcore r', h.core, hcore]

/-- A descriptor is on the side it was on, or on that of the call that registers it. -/
theorem Origin.oneSide {ν : Type} {stamp : ν → Stamp} {register : ν → Operation}
    {names : ν → List Identifier} {before : Option ν} {v : ν}
    (h : Origin F op d stamp register before v) (hop : OneSide own op.names)
    (hold : ∀ w, before = some w → OneSide own (names w))
    (hsame : ∀ w, before = some w → (stamp v).boot = (stamp w).boot → names v = names w)
    (hregister : (register v).names = names v) : OneSide own (names v) := by
  cases h with
  | kept found same =>
      rw [hsame _ found (congrArg Stamp.boot same)]
      exact hold _ found
  | refenced found owner _ _ =>
      rw [hsame _ found owner]
      exact hold _ found
  | registered _ call =>
      rw [← hregister, ← call]
      exact hop

theorem mem_tombstones_step (hop : op.isRecovery = false) {t : TombstoneRecord}
    (h : t ∈ (op.step F d).tombstones) : t ∈ d.tombstones ∨ op = .tombstone t := by
  cases hadd : op.addsRecords with
  | true =>
      cases op with
      | recoverFromBuffer buf => cases hop
      | registerEntry record clk =>
          have hsame : (d.registerEntry record clk).2.tombstones = d.tombstones :=
            commit_keeps (P := fun d' => d'.tombstones = d.tombstones) rfl fun _ => rfl
          exact .inl (hsame ▸ h)
      | _ => cases hadd
  | false =>
      cases hwrites : op.onTombstones with
      | false => exact .inl ((restKept_step F hadd d).tombstones hwrites ▸ h)
      | true =>
          cases op with
          | recoverFromBuffer buf => cases hop
          | tombstone t' =>
              have hend : ∀ t ∈ (d.tombstone t').2.tombstones, t ∈ d.tombstones ∨ t = t' :=
                guarded_keeps
                  (P := fun d' : Directory => ∀ t ∈ d'.tombstones, t ∈ d.tombstones ∨ t = t')
                  (fun _ => .inl) fun _ t ht => (List.mem_append.mp ht).imp_right
                    List.mem_singleton.mp
              refine (hend t h).imp_right fun heq => ?_
              rw [heq]
          | _ => cases hwrites

/-- Where a record behind a call comes from. -/
theorem mem_records_step (hop : op.isRecovery = false) {r' : DirectoryRecord}
    (h : r' ∈ (op.step F d).records) :
    (∃ r ∈ d.records, Kept r r') ∨
      ∃ record clk, op = .registerEntry record clk ∧ r' = d.stamped record clk := by
  cases hadd : op.addsRecords with
  | false => exact .inl ((recordsKept_step F op hadd d).origin h)
  | true =>
      cases op with
      | recoverFromBuffer buf => cases hop
      | registerEntry record clk =>
          have h : r' ∈ (d.registerEntry record clk).2.records := h
          cases hcheck : d.checkRegistration record with
          | some f =>
              rw [registerEntry_rejected hcheck] at h
              exact .inl ⟨r', h, .refl r'⟩
          | none =>
              rw [(committed_registerEntry clk hcheck).records] at h
              rcases List.mem_append.mp h with hold | hnew
              · exact .inl (exists_of_forall₂ (forall₂_supersedeFor d _) hold)
              · exact .inr ⟨record, clk, rfl, List.mem_singleton.mp hnew⟩
      | _ => cases hadd

/-- A record that comes with its id is registered under it. -/
theorem effectiveId_named {record : DirectoryRecord} (h : record.recordId.isNull = false)
    (d : Directory) : d.effectiveId record = record.recordId :=
  if_neg (by simp [h])

/-- A record is registered under the names of the call. -/
theorem names_stamped {record : DirectoryRecord} (h : record.recordId.isNull = false)
    (clk : Nat → TimestampNs) (d : Directory) : (d.stamped record clk).names = record.names := by
  show (.record (d.effectiveId record) :: _ : List Identifier) = _
  rw [effectiveId_named h]
  rfl

/-- **A call that keeps to a side leaves everything on one.** -/
theorem divided_step (hop : op.Sided own) (h : Divided own d) : Divided own (op.step F d) where
  caches id c hc := by
    refine (origin_cache hop.fresh id c hc).oneSide hop.names (h.caches id) ?_ rfl
    intro w hw howner
    have hid : c.cacheId = w.cacheId :=
      (KeyedMap.find_eq_some.mp hc).2.trans (KeyedMap.find_eq_some.mp hw).2.symm
    have howner : c.workerBoot = w.workerBoot := howner
    unfold CacheDescriptor.names
    rw [hid, howner]
  locations id l hl := by
    refine (origin_location hop.fresh id l hl).oneSide hop.names (h.locations id) ?_ rfl
    intro w hw howner
    have hid : l.locationId = w.locationId :=
      (KeyedMap.find_eq_some.mp hl).2.trans (KeyedMap.find_eq_some.mp hw).2.symm
    have howner : l.workerBoot = w.workerBoot := howner
    unfold LocationDescriptor.names
    rw [hid, howner]
  leases id l hl := by
    refine (origin_lease hop.fresh id l hl).oneSide hop.names (h.leases id) ?_ rfl
    intro w hw howner
    have hid : l.leaseId = w.leaseId :=
      (KeyedMap.find_eq_some.mp hl).2.trans (KeyedMap.find_eq_some.mp hw).2.symm
    have howner : l.holder = w.holder := howner
    unfold LeaseDescriptor.names
    rw [hid, howner]
  tombstones t ht := by
    rcases mem_tombstones_step hop.fresh ht with hold | rfl
    · exact h.tombstones t hold
    · exact hop.names
  records r' hr := by
    rcases mem_records_step hop.fresh hr with ⟨r, hold, hkept⟩ | ⟨record, clk, rfl, rfl⟩
    · rw [hkept.names]
      exact h.records r hold
    · rw [names_stamped hop.named]
      exact hop.names

end Call

end CacheDirectory
