/-
  File:      CacheDirectory/Invariants/Descriptors.lean
  Subject:   WHAT ONE CALL MAKES OF A CACHE, A LOCATION, A REPLICA.

  One equation for each call that writes a descriptor, read at the id a descriptor is filed under;
  all other calls leave the map. The laws about ownership, about closed locations and about the
  agreement of records and descriptors are derived from these.

  * `find_lost`, `find_closed`, `find_registered` -- any map of descriptors;
  * `find_location_lost`, `find_location_closed`, `find_location_registered`,
    `locations_step` -- locations;
  * `find_cache_lost` ... `caches_step` -- caches;
  * `find_replica_registered`, `replicas_step` -- replicas.
-/
import CacheDirectory.Invariants.Indexes
import CacheDirectory.Invariants.Sessions

namespace CacheDirectory

open Library Directory

/-! ## 1. Marks -/

/-- What the loss of its owner makes of a location, and of a cache. -/
def loseLocation (l : LocationDescriptor) : LocationDescriptor :=
  { l with
    freshness := .revalidationRequired
    reachability := .revalidationRequired
    health := .unavailable }

def loseCache (c : CacheDescriptor) : CacheDescriptor :=
  { c with reachability := .unreachable, health := .unavailable, freshness := .stale }

/-- What an invalidation makes of them. -/
def closeLocation (l : LocationDescriptor) : LocationDescriptor :=
  { l with reachability := .unreachable, freshness := .stale }

def closeCache (c : CacheDescriptor) : CacheDescriptor :=
  { c with reachability := .unreachable, health := .unavailable }

@[simp] theorem locationId_loseLocation (l : LocationDescriptor) :
    (loseLocation l).locationId = l.locationId := rfl

@[simp] theorem locationId_closeLocation (l : LocationDescriptor) :
    (closeLocation l).locationId = l.locationId := rfl

@[simp] theorem cacheId_loseCache (c : CacheDescriptor) : (loseCache c).cacheId = c.cacheId := rfl

@[simp] theorem cacheId_closeCache (c : CacheDescriptor) : (closeCache c).cacheId = c.cacheId := rfl

section Equations

variable {F : Type} [ScoreArith F] {d : Directory}

/-! ## 2. Invalidations -/

section Invalidation

variable {env : AuthorityEnvelope} {affected : UInt32} {message : Bytes}
  {act : Directory → Directory}

theorem invalidateWith_granted (h : (env.epoch == d.epoch) = true) :
    (d.invalidateWith env affected message act).2 =
      { act d with
        accounting := invalidated d.accounting
        indexesDirty := true }.recomputeAccounting := by
  unfold invalidateWith
  rw [guarded_of_none (firstFailure_eq_none.mpr (by simpa using h))]

theorem invalidateWith_stale (h : (env.epoch == d.epoch) = false) :
    (d.invalidateWith env affected message act).2 = d := by
  rcases guarded_cases [(env.epoch != d.epoch, (⟨.staleEpoch, "stale epoch"⟩ : Failure))] d
    (({ ok := true, affectedRecords := affected, message := message } : InvalidateResult),
      { act d with
        accounting := invalidated d.accounting
        indexesDirty := true }.recomputeAccounting) with ⟨f, hend⟩ | ⟨hpass, _⟩
  · exact congrArg Prod.snd hend
  · rw [firstFailure_eq_none] at hpass
    have hsame : env.epoch = d.epoch := by simpa using hpass
    rw [hsame, beq_self_eq_true] at h
    cases h

end Invalidation

/-! ## 3. One map

  Three kinds of calls write a map of descriptors: the loss of a boot and an invalidation mark
  what they select, a registration puts one descriptor. -/

section Maps

variable {κ ν : Type} {key : ν → κ} [DecidableEq κ] (map : Directory → KeyedMap key)

/-- A loop behind a guard is one with the guard in its test. -/
theorem find_guarded_adjust {m m' : KeyedMap key} {b : Bool} (p : ν → Bool) (f : ν → ν)
    (hf : ∀ v, key (f v) = key v) (hon : b = true → m' = m.adjust p f hf)
    (hoff : b = false → m' = m) (k : κ) :
    m'.find k = (m.find k).map fun v => if b && p v then f v else v := by
  cases b with
  | true =>
      rw [hon rfl, KeyedMap.find_adjust]
      rfl
  | false =>
      rw [hoff rfl]
      simp

theorem find_lost {p : ν → Bool} {f : ν → ν} {hf : ∀ v, key (f v) = key v} {b : WorkerBootId}
    {reason : Bytes}
    (hlive : d.workerLive b = true → map (d.onWorkerLoss b reason).2 = (map d).adjust p f hf)
    (k : κ) :
    (map (d.onWorkerLoss b reason).2).find k =
      ((map d).find k).map fun v => if d.workerLive b && p v then f v else v := by
  refine find_guarded_adjust p f hf hlive (fun hdead => ?_) k
  rw [onWorkerLoss_idle (by simp [hdead])]

theorem find_closed {p : ν → Bool} {f : ν → ν} (hf : ∀ v, key (f v) = key v)
    {env : AuthorityEnvelope} {affected : UInt32} {message : Bytes} {act : Directory → Directory}
    (hact : map { act d with
        accounting := invalidated d.accounting
        indexesDirty := true }.recomputeAccounting = (map d).adjust p f hf) (k : κ) :
    (map (d.invalidateWith env affected message act).2).find k =
      ((map d).find k).map fun v => if env.epoch == d.epoch && p v then f v else v := by
  refine find_guarded_adjust p f hf (fun hepoch => ?_) (fun hepoch => ?_) k
  · rw [invalidateWith_granted hepoch, hact]
  · rw [invalidateWith_stale hepoch]

theorem find_registered (op : Operation) {v : ν} (hev : op.evidence = none)
    (hop : op ≠ .validateIndexes)
    (hput : op.Accepted F d → map (op.step F d) = (map d).put v) (k : κ) :
    (map (op.step F d)).find k =
      if op.Accepted F d ∧ key v = k then some v else (map d).find k := by
  by_cases hacc : op.Accepted F d
  · rw [hput hacc, KeyedMap.find_put]
    exact if_congr (and_iff_right hacc).symm rfl rfl
  · rw [rejected_step hev hop hacc, if_neg fun h => hacc h.1]

end Maps

/-- The loss of a live boot ends the caches and the locations it owns. -/
theorem descriptors_onWorkerLoss {b : WorkerBootId} (reason : Bytes)
    (hlive : d.workerLive b = true) :
    (d.onWorkerLoss b reason).2.caches = d.caches.adjust (fun c => c.workerBoot == b)
        loseCache cacheId_loseCache ∧
      (d.onWorkerLoss b reason).2.locations = d.locations.adjust (fun l => l.workerBoot == b)
        loseLocation locationId_loseLocation := by
  unfold onWorkerLoss
  rw [hlive]
  exact ⟨rfl, rfl⟩

/-! ## 4. Locations -/

/-- The calls that write locations. -/
def Operation.onLocations : Operation → Bool
  | .onWorkerLoss _ _ => true
  | .registerLocation _ => true
  | .invalidateLocation _ _ _ _ => true
  | .recoverFromBuffer _ => true
  | _ => false

theorem find_location_lost (b : WorkerBootId) (reason : Bytes) (id : LocationId) :
    ((Operation.onWorkerLoss b reason).step F d).locations.find id =
      (d.locations.find id).map fun l =>
        if d.workerLive b && l.workerBoot == b then loseLocation l else l :=
  find_lost Directory.locations (fun hlive => (descriptors_onWorkerLoss reason hlive).2) id

theorem find_location_closed (loc : LocationId) (env : AuthorityEnvelope) (reason : Bytes)
    (clk : Nat → TimestampNs) (id : LocationId) :
    ((Operation.invalidateLocation loc env reason clk).step F d).locations.find id =
      (d.locations.find id).map fun l =>
        if env.epoch == d.epoch && l.locationId == loc then closeLocation l else l :=
  find_closed Directory.locations locationId_closeLocation rfl id

theorem find_location_registered (loc : LocationDescriptor) (id : LocationId) :
    ((Operation.registerLocation loc).step F d).locations.find id =
      if (Operation.registerLocation loc).Accepted F d ∧ loc.locationId = id then some loc
      else d.locations.find id :=
  find_registered Directory.locations (.registerLocation loc) rfl nofun
    (fun hacc => congrArg Directory.locations (accepted_report_guarded hacc).2) id

/-- **No other call writes a location.** -/
theorem locations_step (F : Type) [ScoreArith F] {op : Operation} (hop : op.onLocations = false)
    (d : Directory) : (op.step F d).locations = d.locations := by
  cases op with
  | onWorkerLoss b reason => cases hop
  | registerLocation loc => cases hop
  | invalidateLocation loc env reason clk => cases hop
  | recoverFromBuffer buf => cases hop
  | registerCache cache =>
      exact guarded_keeps (P := fun t : Directory => t.locations = d.locations) rfl fun _ => rfl
  | updateCacheHealth id h reach env =>
      exact updateCache_keeps (P := fun t => t.locations = d.locations) rfl rfl
  | updateCacheCapacity id capacity free env =>
      exact updateCache_keeps (P := fun t => t.locations = d.locations) rfl rfl
  | invalidateCache c env reason clk =>
      exact guarded_keeps (P := fun t : Directory => t.locations = d.locations) rfl fun _ => rfl
  | _ => exact (descriptorsKept_step F rfl d).locations

/-! ## 5. Caches -/

/-- The calls that write caches. -/
def Operation.onCaches : Operation → Bool
  | .onWorkerLoss _ _ => true
  | .registerCache _ => true
  | .updateCacheHealth _ _ _ _ => true
  | .updateCacheCapacity _ _ _ _ => true
  | .invalidateCache _ _ _ _ => true
  | .recoverFromBuffer _ => true
  | _ => false

theorem find_cache_lost (b : WorkerBootId) (reason : Bytes) (id : CacheId) :
    ((Operation.onWorkerLoss b reason).step F d).caches.find id =
      (d.caches.find id).map fun c =>
        if d.workerLive b && c.workerBoot == b then loseCache c else c :=
  find_lost Directory.caches (fun hlive => (descriptors_onWorkerLoss reason hlive).1) id

theorem find_cache_closed (cid : CacheId) (env : AuthorityEnvelope) (reason : Bytes)
    (clk : Nat → TimestampNs) (id : CacheId) :
    ((Operation.invalidateCache cid env reason clk).step F d).caches.find id =
      (d.caches.find id).map fun c =>
        if env.epoch == d.epoch && c.cacheId == cid then closeCache c else c :=
  find_closed Directory.caches cacheId_closeCache rfl id

theorem find_cache_registered (cache : CacheDescriptor) (id : CacheId) :
    ((Operation.registerCache cache).step F d).caches.find id =
      if (Operation.registerCache cache).Accepted F d ∧ cache.cacheId = id then some cache
      else d.caches.find id :=
  find_registered Directory.caches (.registerCache cache) rfl nofun
    (fun hacc => congrArg Directory.caches (accepted_report_guarded hacc).2) id

/-- An update of a cache edits the cache it finds, when the envelope is its owner's. -/
theorem find_cache_updated {write : CacheDescriptor → CacheDescriptor}
    {hwrite : ∀ c, (write c).cacheId = c.cacheId} {cid : CacheId} {env : AuthorityEnvelope}
    {id : CacheId} {c : CacheDescriptor} (hc : d.caches.find id = some c) :
    (updateCache write hwrite cid env d).2.caches.find id = some c ∨
      (¬ env.fence < c.authority.fence ∧
        (updateCache write hwrite cid env d).2.caches.find id =
          some (fencedCache write env c)) := by
  rcases @updateCache_cases write hwrite cid env d with ⟨f, hend⟩ | ⟨c', hc', hgranted, hend⟩
  · rw [hend]
    exact .inl hc
  · have hfind : (updateCache write hwrite cid env d).2.caches.find id =
        (d.caches.find id).map fun c =>
          if c.cacheId == cid then fencedCache write env c else c := by
      rw [hend]
      exact KeyedMap.find_adjust d.caches (fun c => c.cacheId == cid) (fencedCache write env)
        hwrite id
    rw [hfind, hc, Option.map_some]
    by_cases hid : (c.cacheId == cid) = true
    · rw [if_pos hid]
      have hkey : cid = id := (beq_iff_eq.mp hid).symm.trans (KeyedMap.find_eq_some.mp hc).2
      rw [hkey, hc] at hc'
      cases hc'
      exact .inr ⟨hgranted.2.2, rfl⟩
    · rw [if_neg hid]
      exact .inl rfl

/-- **No other call writes a cache.** -/
theorem caches_step (F : Type) [ScoreArith F] {op : Operation} (hop : op.onCaches = false)
    (d : Directory) : (op.step F d).caches = d.caches := by
  cases op with
  | onWorkerLoss b reason => cases hop
  | registerCache cache => cases hop
  | updateCacheHealth id h reach env => cases hop
  | updateCacheCapacity id capacity free env => cases hop
  | invalidateCache c env reason clk => cases hop
  | recoverFromBuffer buf => cases hop
  | registerLocation loc =>
      exact guarded_keeps (P := fun t : Directory => t.caches = d.caches) rfl fun _ => rfl
  | invalidateLocation loc env reason clk =>
      exact guarded_keeps (P := fun t : Directory => t.caches = d.caches) rfl fun _ => rfl
  | _ => exact (descriptorsKept_step F rfl d).caches

/-! ## 6. Replicas -/

/-- The calls that write replicas. -/
def Operation.onReplicas : Operation → Bool
  | .registerReplica _ => true
  | .recoverFromBuffer _ => true
  | _ => false

theorem find_replica_registered (replica : ReplicaDescriptor) (id : ReplicaId) :
    ((Operation.registerReplica replica).step F d).replicas.find id =
      if (Operation.registerReplica replica).Accepted F d ∧ replica.replicaId = id then some replica
      else d.replicas.find id :=
  find_registered Directory.replicas (.registerReplica replica) rfl nofun
    (fun hacc => congrArg Directory.replicas (accepted_report_guarded hacc).2) id

/-- **No other call writes a replica.** -/
theorem replicas_step (F : Type) [ScoreArith F] {op : Operation} (hop : op.onReplicas = false)
    (d : Directory) : (op.step F d).replicas = d.replicas := by
  have hensure (d : Directory) : d.ensureIndexes.replicas = d.replicas := by
    rw [ensureIndexes_eq d]
  cases op with
  | registerReplica replica => cases hop
  | recoverFromBuffer buf => cases hop
  | onWorkerLoss b reason =>
      show (d.onWorkerLoss b reason).2.replicas = _
      unfold onWorkerLoss
      split <;> rfl
  | registerEntry record clk =>
      exact commit_keeps (P := fun t => t.replicas = d.replicas) rfl fun _ => rfl
  | updateHealth id h env now =>
      exact updateEvidence_keeps (P := fun t => t.replicas = d.replicas) rfl (fun _ _ => rfl)
        fun _ _ _ => rfl
  | updateFreshness id f env now =>
      exact updateEvidence_keeps (P := fun t => t.replicas = d.replicas) rfl (fun _ _ => rfl)
        fun _ _ _ => rfl
  | updateReachability id reach env now =>
      exact updateEvidence_keeps (P := fun t => t.replicas = d.replicas) rfl (fun _ _ => rfl)
        fun _ _ _ => rfl
  | updateIntegrity id integ env now =>
      exact updateEvidence_keeps (P := fun t => t.replicas = d.replicas) rfl (fun _ _ => rfl)
        fun _ _ _ => rfl
  | updateLifecycle id s env now =>
      exact updateLifecycle_keeps (P := fun t => t.replicas = d.replicas) rfl fun _ _ => rfl
  | updateCacheHealth id h reach env =>
      exact updateCache_keeps (P := fun t => t.replicas = d.replicas) rfl rfl
  | updateCacheCapacity id capacity free env =>
      exact updateCache_keeps (P := fun t => t.replicas = d.replicas) rfl rfl
  | renewLease id env now =>
      exact renewLease_keeps (P := fun t => t.replicas = d.replicas) rfl rfl
  | expireLease id env reason =>
      exact expireLease_keeps (P := fun t => t.replicas = d.replicas) rfl rfl
  | revokeLease id env reason =>
      exact revokeLease_keeps (P := fun t => t.replicas = d.replicas) rfl rfl
  | query order q => exact hensure d
  | setRankingPolicy p => rfl
  | validateIndexes =>
      exact guarded_keeps (P := fun t : Directory => t.replicas = d.replicas) (hensure d)
        fun _ => hensure d
  | indexes => exact hensure d
  | nextObjectId => rfl
  | _ => exact guarded_keeps (P := fun t : Directory => t.replicas = d.replicas) rfl fun _ => rfl

end Equations

end CacheDirectory
