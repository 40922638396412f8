/-
  File:      CacheDirectory/Invariants/Authority.lean
  Subject:   WHAT AN ENVELOPE IS ASKED FOR.

  An envelope says under which epoch, by which incarnation and behind which fence a mutation is
  asserted. Updates compare its boot with the owner and its epoch with the directory's; whether
  the boot is live is asked of registrations only.

  * `refused_iff_not_granted` -- a call with an envelope is refused exactly when what its
    operation compares does not agree;
  * `dead_boot_refused_iff` -- updates under a boot that is not live;
  * `epoch_fenced_iff` -- calls under another epoch;
  * `invalidation_scoped_iff` -- invalidations under a boot that is not live.
-/
import CacheDirectory.Invariants.Sessions

namespace CacheDirectory

open Library Directory

/-! ## 1. What is compared -/

/-- The cache is on file, and the envelope is its owner's. -/
def OwnsCache (id : CacheId) (env : AuthorityEnvelope) (d : Directory) : Prop :=
  ∃ c, d.caches.find id = some c ∧ env.epoch = d.epoch ∧ c.workerBoot = env.boot ∧
    ¬ env.fence < c.authority.fence

/-- What the operation compares before it writes. -/
def Operation.Granted (op : Operation) (d : Directory) : Prop :=
  match op with
  | .updateHealth id h env _ => Writes (fun r => { r with health := h }) id env d
  | .updateFreshness id f env _ => Writes (fun r => { r with freshness := f }) id env d
  | .updateReachability id reach env _ =>
      Writes (fun r => { r with reachability := reach }) id env d
  | .updateIntegrity id integ env _ => Writes (fun r => { r with integrity := integ }) id env d
  | .updateLifecycle id s env _ =>
      ∃ i, Admitted id env d i ∧ canLifecycle (d.records.get i).lifecycle s = true
  | .updateCacheHealth id _ _ env => OwnsCache id env d
  | .updateCacheCapacity id _ _ env => OwnsCache id env d
  | .renewLease id env _ =>
      ∃ l, d.leases.find id = some l ∧ env.epoch = d.epoch ∧ l.holder = env.boot ∧
        ¬ env.fence ≤ l.authority.fence ∧ l.state ≠ .revoked
  | .expireLease id env _ => ∃ l, d.leases.find id = some l ∧ l.holder = env.boot
  | .revokeLease id _ _ => ∃ l, d.leases.find id = some l
  | .invalidateState _ _ env _ _ => env.epoch = d.epoch
  | .invalidateLocation _ env _ _ => env.epoch = d.epoch
  | .invalidateReplica _ env _ _ => env.epoch = d.epoch
  | .invalidateCache _ env _ _ => env.epoch = d.epoch
  | .invalidateWorkerBoot _ env _ _ => env.epoch = d.epoch
  | _ => True

/-- The envelope a call comes with. -/
def Operation.envelope : Operation → Option AuthorityEnvelope
  | .updateHealth _ _ env _ => some env
  | .updateFreshness _ _ env _ => some env
  | .updateReachability _ _ env _ => some env
  | .updateIntegrity _ _ env _ => some env
  | .updateLifecycle _ _ env _ => some env
  | .updateCacheHealth _ _ _ env => some env
  | .updateCacheCapacity _ _ _ env => some env
  | .renewLease _ env _ => some env
  | .expireLease _ env _ => some env
  | .revokeLease _ env _ => some env
  | .invalidateState _ _ env _ _ => some env
  | .invalidateLocation _ env _ _ => some env
  | .invalidateReplica _ env _ _ => some env
  | .invalidateCache _ env _ _ => some env
  | .invalidateWorkerBoot _ env _ _ => some env
  | _ => none

/-- **A call with an envelope is refused exactly when it is not granted.** -/
theorem refused_iff_not_granted (F : Type) [ScoreArith F] {op : Operation} {d : Directory}
    (hop : op.envelope.isSome = true) : op.Refused F d ↔ ¬ op.Granted d := by
  have hfails {op : Operation} (hev : op.evidence = none) (hne : op ≠ .validateIndexes)
      (hacc : op.Accepted F d ↔ op.Granted d) : op.Refused F d ↔ ¬ op.Granted d :=
    (refused_iff hev hne).trans (not_congr hacc)
  cases op with
  | updateHealth id h env now => exact refused_updateEvidence
  | updateFreshness id f env now => exact refused_updateEvidence
  | updateReachability id reach env now => exact refused_updateEvidence
  | updateIntegrity id integ env now => exact refused_updateEvidence
  | updateLifecycle id s env now => exact hfails rfl (by simp) accepted_updateLifecycle
  | updateCacheHealth id h reach env => exact hfails rfl (by simp) accepted_updateCache
  | updateCacheCapacity id capacity free env => exact hfails rfl (by simp) accepted_updateCache
  | renewLease id env now => exact hfails rfl (by simp) accepted_renewLease
  | expireLease id env reason => exact hfails rfl (by simp) accepted_expireLease
  | revokeLease id env reason => exact hfails rfl (by simp) accepted_revokeLease
  | invalidateState s g env reason clk => exact hfails rfl (by simp) accepted_invalidateWith
  | invalidateLocation loc env reason clk => exact hfails rfl (by simp) accepted_invalidateWith
  | invalidateReplica rep env reason clk => exact hfails rfl (by simp) accepted_invalidateWith
  | invalidateCache c env reason clk => exact hfails rfl (by simp) accepted_invalidateWith
  | invalidateWorkerBoot b env reason clk => exact hfails rfl (by simp) accepted_invalidateWith
  | _ => cases hop

/-! ## 2. Updates under a dead boot -/

/-- The updates of records and caches, and what a holder does to its lease. -/
def Operation.isUpdate : Operation → Bool
  | .updateHealth _ _ _ _ => true
  | .updateFreshness _ _ _ _ => true
  | .updateReachability _ _ _ _ => true
  | .updateIntegrity _ _ _ _ => true
  | .updateLifecycle _ _ _ _ => true
  | .updateCacheHealth _ _ _ _ => true
  | .updateCacheCapacity _ _ _ _ => true
  | .renewLease _ _ _ => true
  | .expireLease _ _ _ => true
  | _ => false

/-- **An update under a boot that is not live is refused exactly when it is not granted**: that
    the boot is dead refuses nothing. -/
theorem dead_boot_refused_iff (F : Type) [ScoreArith F] (op : Operation) (d : Directory)
    (env : AuthorityEnvelope) :
    op.isUpdate = true → op.envelope = some env → d.workerLive env.boot = false →
      (op.Refused F d ↔ ¬ op.Granted d) := by
  intro _ henv _
  refine refused_iff_not_granted F ?_
  rw [henv]
  rfl

/-- One copy is registered, then its owner is lost. -/
def lossOfOwner : List Operation := registeredOnce ++ [.onWorkerLoss ⟨1⟩ []]

def ownerLost : Directory := after (Operation.step Float) {} lossOfOwner

/-- The lost owner's envelope. -/
def lostEnvelope : AuthorityEnvelope := { epoch := ⟨1⟩, boot := ⟨1⟩ }

/-- Updates the lost owner had under way. -/
def replayed : List Operation :=
  [.updateFreshness ⟨1⟩ .current lostEnvelope 2, .updateReachability ⟨1⟩ .reachable lostEnvelope 3]

/-- **The counterexample**: replayed updates of a lost boot make its record CURRENT and REACHABLE
    again. -/
theorem lost_owner_revives :
    Reached Float lossOfOwner ownerLost ∧ ownerLost.workerLive ⟨1⟩ = false ∧
      (ownerLost.records.map fun r => (r.freshness, r.reachability)) =
        [(.stale, .unreachable)] ∧
      (∀ op ∈ replayed, op.Accepted Float ownerLost) ∧
      ((after (Operation.step Float) ownerLost replayed).records.map
        fun r => (r.freshness, r.reachability)) = [(.current, .reachable)] :=
  ⟨after_mem_visited _ _ _, by decide +kernel, by decide +kernel, by decide +kernel,
    by decide +kernel⟩

theorem dead_boot_refused_ownerLost :
    (healthUpdate .healthy).Refused Float ownerLost ↔ ¬ (healthUpdate .healthy).Granted ownerLost :=
  dead_boot_refused_iff Float (healthUpdate .healthy) ownerLost lostEnvelope rfl rfl
    (by decide +kernel)

/-! ## 3. Calls under another epoch -/

/-- The epoch a mutation is asserted under. -/
def Operation.carriedEpoch : Operation → Option CoordinatorEpoch
  | .registerCache cache => some cache.authority.epoch
  | .registerLocation loc => some loc.authority.epoch
  | .registerReplica replica => some replica.authority.epoch
  | .registerEntry record _ => some record.authority.epoch
  | .registerLease lease => some lease.authority.epoch
  | .tombstone t => some t.epoch
  | op => op.envelope.map (·.epoch)

/-- The operations that write without a look at the epoch: the expiry of a lease by its holder,
    and the revocation of a lease by anyone. -/
def Operation.Unfenced (op : Operation) (d : Directory) : Prop :=
  match op with
  | .expireLease id env _ => ∃ l, d.leases.find id = some l ∧ l.holder = env.boot
  | .revokeLease id _ _ => ∃ l, d.leases.find id = some l
  | _ => False

/-- Under another epoch nothing but those is granted. -/
theorem granted_iff_unfenced {op : Operation} {d : Directory} {env : AuthorityEnvelope}
    (henv : op.envelope = some env) (hepoch : env.epoch ≠ d.epoch) :
    op.Granted d ↔ op.Unfenced d := by
  have hrecord {id : DirectoryRecordId} {P : Fin d.records.length → Prop} :
      ¬ ∃ i, Admitted id env d i ∧ P i := by
    intro h
    obtain ⟨i, hi, _⟩ := h
    exact hepoch (authorised_iff.mp hi.authorised).1
  have hcache {id : CacheId} : ¬ OwnsCache id env d := by
    intro h
    obtain ⟨c, _, he, _⟩ := h
    exact hepoch he
  cases op with
  | expireLease id env' reason => exact Iff.rfl
  | revokeLease id env' reason => exact Iff.rfl
  | updateHealth id h env' now =>
      cases henv
      exact iff_of_false hrecord not_false
  | updateFreshness id f env' now =>
      cases henv
      exact iff_of_false hrecord not_false
  | updateReachability id reach env' now =>
      cases henv
      exact iff_of_false hrecord not_false
  | updateIntegrity id integ env' now =>
      cases henv
      exact iff_of_false hrecord not_false
  | updateLifecycle id s env' now =>
      cases henv
      exact iff_of_false hrecord not_false
  | updateCacheHealth id h reach env' =>
      cases henv
      exact iff_of_false hcache not_false
  | updateCacheCapacity id capacity free env' =>
      cases henv
      exact iff_of_false hcache not_false
  | renewLease id env' now =>
      cases henv
      refine iff_of_false ?_ not_false
      intro h
      obtain ⟨l, _, he, _⟩ := h
      exact hepoch he
  | invalidateState s g env' reason clk =>
      cases henv
      exact iff_of_false hepoch not_false
  | invalidateLocation loc env' reason clk =>
      cases henv
      exact iff_of_false hepoch not_false
  | invalidateReplica rep env' reason clk =>
      cases henv
      exact iff_of_false hepoch not_false
  | invalidateCache c env' reason clk =>
      cases henv
      exact iff_of_false hepoch not_false
  | invalidateWorkerBoot b env' reason clk =>
      cases henv
      exact iff_of_false hepoch not_false
  | _ => cases henv

/-- **A call under another epoch is refused exactly when it is neither the expiry of a lease on
    file by its holder nor the revocation of a lease on file.** -/
theorem epoch_fenced_iff (F : Type) [ScoreArith F] (op : Operation) (d : Directory)
    (e : CoordinatorEpoch) (he : op.carriedEpoch = some e) (hother : e ≠ d.epoch) :
    op.Refused F d ↔ ¬ op.Unfenced d := by
  have hregistration {op : Operation} (hev : op.evidence = none) (hne : op ≠ .validateIndexes)
      (hcalm : ¬ op.Unfenced d) (hepoch : op.Accepted F d → e = d.epoch) :
      op.Refused F d ↔ ¬ op.Unfenced d :=
    iff_of_true ((refused_iff hev hne).mpr fun h => hother (hepoch h)) hcalm
  have henveloped {op : Operation} {env : AuthorityEnvelope} (henv : op.envelope = some env)
      (he : some env.epoch = some e) : op.Refused F d ↔ ¬ op.Unfenced d := by
    cases he
    rw [refused_iff_not_granted F (by rw [henv]; rfl), granted_iff_unfenced henv hother]
  cases op with
  | registerCache cache =>
      cases he
      exact hregistration rfl (by simp) not_false fun h => (accepted_registerCache.mp h).2.2.1
  | registerLocation loc =>
      cases he
      exact hregistration rfl (by simp) not_false fun h => (accepted_registerLocation.mp h).2.2.2.1
  | registerReplica replica =>
      cases he
      exact hregistration rfl (by simp) not_false fun h => (accepted_registerReplica.mp h).2.2.1
  | registerEntry record clk =>
      cases he
      exact hregistration rfl (by simp) not_false fun h => (authority_of_registerEntry h).1
  | registerLease lease =>
      cases he
      exact hregistration rfl (by simp) not_false fun h => (accepted_registerLease.mp h).2.2.1
  | tombstone t =>
      cases he
      exact hregistration rfl (by simp) not_false fun h => (accepted_tombstone.mp h).2.1
  | registerWorkerSession session => cases he
  | onWorkerLoss boot reason => cases he
  | query order q => cases he
  | setRankingPolicy p => cases he
  | validateIndexes => cases he
  | indexes => cases he
  | nextObjectId => cases he
  | recoverFromBuffer buf => cases he
  | _ => exact henveloped rfl he

/-- The copy under a lease of its owner. -/
def leasedOnce : List Operation :=
  oneCopy ++ [.registerLease { leaseId := ⟨1⟩, holder := ⟨1⟩, authority := { epoch := ⟨1⟩ } }]

def leased : Directory := after (Operation.step Float) {} leasedOnce

/-- Envelopes of an epoch long past. -/
def expiryOf (e : CoordinatorEpoch) : Operation := .expireLease ⟨1⟩ { epoch := e, boot := ⟨1⟩ } []

def revocationOf (e : CoordinatorEpoch) : Operation := .revokeLease ⟨1⟩ { epoch := e } []

/-- **The counterexample**: a lease is expired, and one is revoked, under epoch 0. -/
theorem lease_ends_unfenced :
    Reached Float leasedOnce leased ∧ leased.epoch = ⟨1⟩ ∧
      (expiryOf ⟨0⟩).Accepted Float leased ∧
      ((expiryOf ⟨0⟩).step Float leased).leases.values.map (·.state) = [.expired] ∧
      (revocationOf ⟨0⟩).Accepted Float leased ∧
      ((revocationOf ⟨0⟩).step Float leased).leases.values.map (·.state) = [.revoked] :=
  ⟨after_mem_visited _ _ _, by decide +kernel, by decide +kernel, by decide +kernel,
    by decide +kernel, by decide +kernel⟩

theorem epoch_fenced_leased :
    (expiryOf ⟨0⟩).Refused Float leased ↔ ¬ (expiryOf ⟨0⟩).Unfenced leased :=
  epoch_fenced_iff Float (expiryOf ⟨0⟩) leased ⟨0⟩ rfl (by decide +kernel)

/-! ## 4. Invalidation -/

/-- Records, caches and locations before and after a step. -/
structure CopiesKept (d d' : Directory) : Prop where
  records : d'.records = d.records
  caches : d'.caches = d.caches
  locations : d'.locations = d.locations

/-- What an invalidation under a boot that is not live finds to mark: current records, of its own
    boot where a state is invalidated, and a descriptor that is not marked yet. -/
def Operation.Marks (op : Operation) (d : Directory) : Prop :=
  match op with
  | .invalidateState s g env _ _ =>
      ∃ r ∈ d.records, r.current = true ∧ r.stateId = s ∧ r.stateGeneration = g ∧
        r.authority.boot = env.boot
  | .invalidateLocation loc _ _ _ =>
      (∃ r ∈ d.records, r.current = true ∧ r.location = loc) ∨
        ∃ l, d.locations.find loc = some l ∧
          ¬ (l.reachability = .unreachable ∧ l.freshness = .stale)
  | .invalidateReplica rep _ _ _ => ∃ r ∈ d.records, r.current = true ∧ r.replica = rep
  | .invalidateCache c _ _ _ =>
      (∃ r ∈ d.records, r.current = true ∧ r.cache = c) ∨
        ∃ cd, d.caches.find c = some cd ∧
          ¬ (cd.reachability = .unreachable ∧ cd.health = .unavailable)
  | .invalidateWorkerBoot b _ _ _ => ∃ r ∈ d.records, r.current = true ∧ r.workerBoot = b
  | _ => False

/-- The five invalidations. -/
def Operation.isInvalidation : Operation → Bool
  | .invalidateState _ _ _ _ _ => true
  | .invalidateLocation _ _ _ _ => true
  | .invalidateReplica _ _ _ _ => true
  | .invalidateCache _ _ _ _ => true
  | .invalidateWorkerBoot _ _ _ _ => true
  | _ => false

/-- The loop over the records changes nothing exactly when it selects nothing. -/
theorem invalidateRecords_eq_self_iff {sel : DirectoryRecord → Bool}
    {also : DirectoryRecord → DirectoryRecord} (halso : ∀ r, (also r).current = r.current)
    {clk : Nat → TimestampNs} {records : List DirectoryRecord} :
    invalidateRecords sel also clk records = records ↔
      ¬ ∃ r ∈ records, r.current = true ∧ sel r = true := by
  unfold invalidateRecords
  rw [mapIdx_ite_eq_self_iff]
  · constructor
    · rintro h ⟨r, hr, hcur, hsel⟩
      have := h r hr
      rw [hsel, hcur] at this
      cases this
    · intro h r hr
      rw [← Bool.not_eq_true, Bool.and_eq_true]
      exact fun hboth => h ⟨r, hr, hboth.2, hboth.1⟩
  · intro i r hr heq
    have hcur := congrArg (·.current) heq
    simp only [halso] at hcur
    rw [← hcur, Bool.and_false] at hr
    cases hr

theorem copiesKept_invalidateWith {d : Directory} {env : AuthorityEnvelope} {affected : UInt32}
    {message : Bytes} {act : Directory → Directory} :
    CopiesKept d (d.invalidateWith env affected message act).2 ↔
      env.epoch ≠ d.epoch ∨ CopiesKept d (act d) := by
  by_cases hepoch : env.epoch = d.epoch
  · have hpass : firstFailure [(env.epoch != d.epoch, (⟨.staleEpoch, "stale epoch"⟩ : Failure))] =
        none := by simp [hepoch]
    unfold invalidateWith
    rw [guarded_of_none hpass, or_iff_right (not_not.mpr hepoch)]
    exact ⟨fun h => ⟨h.records, h.caches, h.locations⟩,
      fun h => ⟨h.records, h.caches, h.locations⟩⟩
  · have hfail : firstFailure [(env.epoch != d.epoch, (⟨.staleEpoch, "stale epoch"⟩ : Failure))] =
        some ⟨.staleEpoch, "stale epoch"⟩ := by simp [hepoch]
    unfold invalidateWith guarded
    rw [hfail]
    exact iff_of_true ⟨rfl, rfl, rfl⟩ (.inl hepoch)

/-- An assignment of two fields changes nothing exactly when both hold what they are given. -/
theorem assigned_iff {ν α β : Type} {get : ν → α} {get' : ν → β} (set : α → β → ν → ν)
    (hset : ∀ v, set (get v) (get' v) v = v) (hget : ∀ a b v, get (set a b v) = a)
    (hget' : ∀ a b v, get' (set a b v) = b) {v : ν} {a : α} {b : β} :
    set a b v = v ↔ get v = a ∧ get' v = b := by
  constructor
  · intro h
    rw [← h]
    exact ⟨hget a b v, hget' a b v⟩
  · rintro ⟨rfl, rfl⟩
    exact hset v

/-- A descriptor that is marked already is not changed by marking it. -/
theorem location_marked {l : LocationDescriptor} :
    { l with reachability := .unreachable, freshness := .stale } = l ↔
      l.reachability = .unreachable ∧ l.freshness = .stale :=
  assigned_iff
    (fun reach fresh (l : LocationDescriptor) =>
      { l with reachability := reach, freshness := fresh })
    (fun _ => rfl) (fun _ _ _ => rfl) fun _ _ _ => rfl

theorem cache_marked {c : CacheDescriptor} :
    { c with reachability := .unreachable, health := .unavailable } = c ↔
      c.reachability = .unreachable ∧ c.health = .unavailable :=
  assigned_iff
    (fun reach health (c : CacheDescriptor) => { c with reachability := reach, health := health })
    (fun _ => rfl) (fun _ _ _ => rfl) fun _ _ _ => rfl

/-- A loop that selects by one test leaves the records alone exactly when no current record
    passes it. -/
theorem loop_idle_iff (also : DirectoryRecord → DirectoryRecord)
    (halso : ∀ r, (also r).current = r.current) {sel : DirectoryRecord → Bool}
    {P : DirectoryRecord → Prop} (hsel : ∀ r, sel r = true ↔ P r) {clk : Nat → TimestampNs}
    {records : List DirectoryRecord} :
    invalidateRecords sel also clk records = records ↔
      ¬ ∃ r ∈ records, r.current = true ∧ P r := by
  rw [invalidateRecords_eq_self_iff halso]
  simp only [hsel]

/-- A mark on what is filed under a key changes nothing exactly when nothing unmarked is. -/
theorem mark_idle_iff {κ ν : Type} [DecidableEq κ] {key : ν → κ} {m : KeyedMap key} {k : κ}
    (f : ν → ν) (hf : ∀ v, key (f v) = key v) {Marked : ν → Prop}
    (hmarked : ∀ v, f v = v ↔ Marked v) :
    m.adjust (fun v => key v == k) f hf = m ↔ ¬ ∃ v, m.find k = some v ∧ ¬ Marked v := by
  rw [KeyedMap.adjust_eq_self_iff]
  simp only [hmarked, not_exists, not_and, not_not]

/-- **An invalidation under a boot that is not live leaves everything alone exactly when its epoch
    is another one or there is nothing to mark.** -/
theorem invalidation_scoped_iff (F : Type) [ScoreArith F] (op : Operation) (d : Directory)
    (env : AuthorityEnvelope) (hop : op.isInvalidation = true) (henv : op.envelope = some env)
    (hdead : d.workerLive env.boot = false) :
    CopiesKept d (op.step F d) ↔ env.epoch ≠ d.epoch ∨ ¬ op.Marks d := by
  have hrecords {records : List DirectoryRecord} :
      CopiesKept d { d with records := records } ↔ records = d.records :=
    ⟨fun h => h.records, fun h => ⟨h, rfl, rfl⟩⟩
  cases op with
  | invalidateState s g env' reason clk =>
      cases henv
      have hsel (r : DirectoryRecord) : d.selectState s g env r = true ↔
          r.stateId = s ∧ r.stateGeneration = g ∧ r.authority.boot = env.boot := by
        unfold selectState
        simp [hdead, and_assoc]
      exact copiesKept_invalidateWith.trans
        (or_congr_right (hrecords.trans (loop_idle_iff id (fun _ => rfl) hsel)))
  | invalidateReplica rep env' reason clk =>
      cases henv
      exact copiesKept_invalidateWith.trans
        (or_congr_right (hrecords.trans
          (loop_idle_iff id (fun _ => rfl) fun _ => beq_iff_eq)))
  | invalidateWorkerBoot b env' reason clk =>
      cases henv
      exact copiesKept_invalidateWith.trans
        (or_congr_right (hrecords.trans
          (loop_idle_iff (fun r => { r with reachability := .unreachable }) (fun _ => rfl)
            fun _ => beq_iff_eq)))
  | invalidateLocation loc env' reason clk =>
      cases henv
      refine copiesKept_invalidateWith.trans (or_congr_right ?_)
      unfold Operation.Marks
      rw [not_or,
        ← mark_idle_iff (fun l => { l with reachability := .unreachable, freshness := .stale })
          (fun _ => rfl) fun _ => location_marked,
        ← loop_idle_iff (fun r => { r with reachability := .unreachable }) (fun _ => rfl)
          fun _ => beq_iff_eq]
      exact ⟨fun h => ⟨h.records, h.locations⟩, fun h => ⟨h.1, rfl, h.2⟩⟩
  | invalidateCache c env' reason clk =>
      cases henv
      refine copiesKept_invalidateWith.trans (or_congr_right ?_)
      unfold Operation.Marks
      rw [not_or,
        ← mark_idle_iff (fun c => { c with reachability := .unreachable, health := .unavailable })
          (fun _ => rfl) fun _ => cache_marked,
        ← loop_idle_iff id (fun _ => rfl) fun _ => beq_iff_eq]
      exact ⟨fun h => ⟨h.records, h.caches⟩, fun h => ⟨h.1, h.2, rfl⟩⟩
  | _ => cases hop

/-- The five invalidations of that copy under the lost owner's envelope. -/
def lostInvalidations : List Operation :=
  [.invalidateState ⟨1⟩ ⟨1⟩ lostEnvelope [] fun _ => 2,
    .invalidateLocation ⟨1⟩ lostEnvelope [] fun _ => 2,
    .invalidateReplica ⟨1⟩ lostEnvelope [] fun _ => 2,
    .invalidateCache ⟨1⟩ lostEnvelope [] fun _ => 2,
    .invalidateWorkerBoot ⟨1⟩ lostEnvelope [] fun _ => 2]

/-- **The counterexample**: each of the five takes the record of the copy away. -/
theorem lost_boot_invalidates :
    Reached Float lossOfOwner ownerLost ∧ ownerLost.workerLive ⟨1⟩ = false ∧
      ownerLost.records.map (·.current) = [true] ∧
      ∀ op ∈ lostInvalidations, op.Accepted Float ownerLost ∧
        (op.step Float ownerLost).records.map (·.current) = [false] :=
  ⟨after_mem_visited _ _ _, by decide +kernel, by decide +kernel, by decide +kernel⟩

theorem invalidation_scoped_ownerLost :
    CopiesKept ownerLost
        ((Operation.invalidateReplica ⟨1⟩ lostEnvelope [] fun _ => 2).step Float ownerLost) ↔
      lostEnvelope.epoch ≠ ownerLost.epoch ∨
        ¬ (Operation.invalidateReplica ⟨1⟩ lostEnvelope [] fun _ => 2).Marks ownerLost :=
  invalidation_scoped_iff Float (.invalidateReplica ⟨1⟩ lostEnvelope [] fun _ => 2) ownerLost
    lostEnvelope rfl rfl (by decide +kernel)

end CacheDirectory
