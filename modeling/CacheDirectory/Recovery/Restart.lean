/-
  File:      CacheDirectory/Recovery/Restart.lean
  Subject:   WHICH RUNS CAN BE RESTARTED FROM THEIR OWN SNAPSHOTS.

  Recovery refuses a snapshot with two tombstones or two records of one id, with a null record
  id, with a tombstone of no declared kind, or with more entries than its limit. The operations
  that add entries check none of this, so a run can reach a state whose snapshot is refused.

  * `Operation.Sustainable` -- what an accepted call must respect: fresh ids, room, a kind;
  * `Directory.Consistent` -- the invariant: one generation per state, counts within the limit,
    nothing recovery would refuse;
  * `consistent_step_iff` -- one step keeps it exactly when the call is sustainable or refused;
  * `restart_along_run` -- along a run of such calls every state can be restarted from, and a run
    whose states all can consists of such calls.
-/
import CacheDirectory.Invariants.Failures
import CacheDirectory.Invariants.Generations
import CacheDirectory.Recovery.Fidelity

namespace CacheDirectory

open Library Directory

/-! ## 1. The condition on a step and the invariant -/

/-- What an accepted call must respect if its directory is to be restarted from. -/
def Operation.Sustainable (op : Operation) (d : Directory) : Prop :=
  match op with
  | .registerEntry record _ =>
      (d.effectiveId record).isNull = false ∧
        (∀ r ∈ d.records, r.recordId ≠ d.effectiveId record) ∧ d.records.length < 100000000
  | .registerCache cache => d.caches.contains cache.cacheId = true ∨ d.caches.size < 100000000
  | .registerLocation loc =>
      d.locations.contains loc.locationId = true ∨ d.locations.size < 100000000
  | .registerReplica replica =>
      d.replicas.contains replica.replicaId = true ∨ d.replicas.size < 100000000
  | .registerLease lease => d.leases.contains lease.leaseId = true ∨ d.leases.size < 100000000
  | .tombstone t =>
      IsDeclared t.target.kind ∧ (∀ t' ∈ d.tombstones, t'.tombstoneId ≠ t.tombstoneId) ∧
        d.tombstones.length < 100000000
  | _ => True

/-- A call that is refused, or sustainable. -/
def Operation.Restarts (F : Type) [ScoreArith F] (op : Operation) (d : Directory) : Prop :=
  op.Accepted F d → op.Sustainable d

structure Directory.Consistent (d : Directory) : Prop where
  generations : d.OneGeneration
  counts : d.CountsFit
  sound : d.Sound

theorem consistent_start : Directory.Consistent {} where
  generations := fun r hr => by cases hr
  counts := by
    refine ⟨?_, ?_, ?_, ?_, ?_, ?_, ?_⟩
    all_goals exact Nat.zero_le _
  sound := by
    refine ⟨List.nodup_nil, List.nodup_nil, List.nodup_nil, List.nodup_nil, List.nodup_nil,
      List.nodup_nil, List.nodup_nil, ?_, ?_, ?_, ?_⟩
    all_goals exact fun _ h => absurd h List.not_mem_nil

/-- The part of the invariant about records and observations. -/
structure Directory.RecordsFit (d : Directory) : Prop where
  generations : d.OneGeneration
  room : d.records.length ≤ 100000000
  ids : (d.records.map (·.recordId)).Nodup
  identities : ∀ r ∈ d.records, r.recordId.isNull = false ∧ r.stateId.isNull = false ∧
    r.cache.isNull = false ∧ r.replica.isNull = false ∧ r.location.isNull = false
  observations : d.observations.length ≤ 100000000 ∧
    (d.observations.map (·.observationId)).Nodup

/-- The part about the maps and the tombstones. -/
structure Directory.EntriesFit (d : Directory) : Prop where
  caches : d.caches.size ≤ 100000000
  locations : d.locations.size ≤ 100000000
  replicas : d.replicas.size ≤ 100000000
  leases : d.leases.size ≤ 100000000
  leaseIds : ∀ l ∈ d.leases.values, l.leaseId.isNull = false ∧ l.holder.isNull = false
  tombstones : d.tombstones.length ≤ 100000000
  tombstoneIds : (d.tombstones.map (·.tombstoneId)).Nodup
  kinds : ∀ t ∈ d.tombstones, t.tombstoneId.isNull = false ∧ IsDeclared t.target.kind

/-- The two parts are the whole: the keys of a map are distinct anyway, and no generation
    regresses where all agree. -/
theorem consistent_iff {d : Directory} : d.Consistent ↔ d.RecordsFit ∧ d.EntriesFit := by
  constructor
  · intro h
    obtain ⟨hg, hc, hs⟩ := h
    exact ⟨⟨hg, hc.records, hs.recordIds, hs.identities, hc.observations, hs.observationIds⟩,
      hc.caches, hc.locations, hc.replicas, hc.leases, hs.leases, hc.tombstones,
      hs.tombstoneIds, hs.tombstones⟩
  · intro h
    obtain ⟨hr, he⟩ := h
    exact ⟨hr.generations,
      ⟨hr.room, he.caches, he.locations, he.replicas, he.leases, he.tombstones,
        hr.observations.1⟩,
      hr.ids, d.caches.nodup, d.locations.nodup, d.replicas.nodup, d.leases.nodup,
      he.tombstoneIds, hr.observations.2, hr.identities, he.kinds, he.leaseIds,
      noRegression_of_oneGeneration hr.generations⟩

section Kept

variable {d d' : Directory}

theorem recordsFit_of_kept (h : d.RecordsFit) (hk : RecordsKept d d') : d'.RecordsFit where
  generations := oneGeneration_of_kept h.generations hk
  room := hk.records.length_eq ▸ h.room
  ids := by
    rw [hk.map_eq fun _ _ hr => hr.recordId]
    exact h.ids
  identities := by
    intro r' hr'
    obtain ⟨r, hr, hrr⟩ := hk.origin hr'
    rw [hrr.recordId, hrr.stateId, hrr.cache, hrr.replica, hrr.location]
    exact h.identities r hr
  observations := hk.observations ▸ h.observations

/-- **A registration checks no id, neither the caller's nor the counter's.** -/
theorem recordsFit_of_committed {record r : DirectoryRecord} (h : d.RecordsFit)
    (hc : Committed d record r d') :
    d'.RecordsFit ↔ (d.effectiveId record).isNull = false ∧
      (∀ x ∈ d.records, x.recordId ≠ d.effectiveId record) ∧ d.records.length < 100000000 := by
  have hids := recordIds_committed hc
  have hlen := length_committed hc
  constructor
  · intro h'
    have hfresh := h'.ids
    rw [hids, nodup_map_append_singleton h.ids] at hfresh
    have hr : r ∈ d'.records := hc.records ▸ List.mem_append_right _ List.mem_cons_self
    have hroom := h'.room
    rw [hlen] at hroom
    exact ⟨hc.recordId ▸ (h'.identities r hr).1, hfresh, hroom⟩
  · intro h
    obtain ⟨hnull, hfresh, hroom⟩ := h
    refine ⟨oneGeneration_of_committed h.generations hc, hlen ▸ hroom, ?_, fun x hx => ?_,
      hc.observations ▸ h.observations⟩
    · rw [hids]
      exact (nodup_map_append_singleton h.ids).mpr hfresh
    · rw [hc.records] at hx
      rcases List.mem_append.mp hx with hx | hx
      · obtain ⟨y, hy, hyx⟩ := exists_of_forall₂ (forall₂_supersedeFor d r) hx
        rw [hyx.recordId, hyx.stateId, hyx.cache, hyx.replica, hyx.location]
        exact h.identities y hy
      · rw [List.mem_singleton.mp hx]
        exact ⟨hc.recordId ▸ hnull, hc.identities⟩

/-- A step that adds no entry keeps what there is. -/
theorem entriesFit_of_kept (h : d.EntriesFit) (hm : MapsKept d d') : d'.EntriesFit where
  caches := hm.caches ▸ h.caches
  locations := hm.locations ▸ h.locations
  replicas := hm.replicas ▸ h.replicas
  leases := by
    have hlen := congrArg List.length hm.leases
    rw [List.length_map, List.length_map] at hlen
    exact Nat.le_trans (Nat.le_of_eq hlen) h.leases
  leaseIds := by
    intro l hl
    have hmem := List.mem_map_of_mem (f := fun l : LeaseDescriptor => (l.leaseId, l.holder)) hl
    rw [hm.leases] at hmem
    obtain ⟨l', hl', he⟩ := List.mem_map.mp hmem
    have hid : l'.leaseId = l.leaseId := congrArg Prod.fst he
    have hholder : l'.holder = l.holder := congrArg Prod.snd he
    rw [← hid, ← hholder]
    exact h.leaseIds l' hl'
  tombstones := hm.tombstones ▸ h.tombstones
  tombstoneIds := hm.tombstones ▸ h.tombstoneIds
  kinds := hm.tombstones ▸ h.kinds

/-- **A step that keeps the records keeps the invariant, up to the entries it adds.** -/
theorem consistent_iff_entries (h : d.Consistent) (hk : RecordsKept d d') :
    d'.Consistent ↔ d'.EntriesFit := by
  rw [consistent_iff]
  exact and_iff_right (recordsFit_of_kept (consistent_iff.mp h).1 hk)

end Kept

/-! ## 2. The calls that add entries -/

section Adders

variable {F : Type} [ScoreArith F] {d d' : Directory}

/-- **An accepted call that puts a value into a map has only to find room for it.** -/
theorem consistent_put {κ ν : Type} {key : ν → κ} [DecidableEq κ] {op : Operation} {v : ν}
    (map : Directory → KeyedMap key) (h : d.Consistent) (hr : op.addsRecords = false)
    (hmap : ∀ t : Directory, t.EntriesFit → (map t).size ≤ 100000000) (hstep : op.step F d = d')
    (hput : map d' = (map d).put v)
    (hfits : ((map d).put v).size ≤ 100000000 → d'.EntriesFit) :
    (op.step F d).Consistent ↔ (map d).contains (key v) = true ∨ (map d).size < 100000000 := by
  have hk := recordsKept_step F op hr d
  have hbefore := hmap d (consistent_iff.mp h).2
  rw [consistent_iff_entries h hk, hstep, ← KeyedMap.size_put_le_iff hbefore, ← hput]
  exact ⟨hmap d', fun hroom => hfits (hput ▸ hroom)⟩

theorem consistent_registerCache {cache : CacheDescriptor} (h : d.Consistent)
    (hacc : (Operation.registerCache cache).Accepted F d) :
    ((Operation.registerCache cache).step F d).Consistent ↔
      (Operation.registerCache cache).Sustainable d :=
  consistent_put Directory.caches h rfl (fun _ ht => ht.caches) (accepted_report_guarded hacc).2
    rfl fun hroom => { (consistent_iff.mp h).2 with caches := hroom }

theorem consistent_registerLocation {loc : LocationDescriptor} (h : d.Consistent)
    (hacc : (Operation.registerLocation loc).Accepted F d) :
    ((Operation.registerLocation loc).step F d).Consistent ↔
      (Operation.registerLocation loc).Sustainable d :=
  consistent_put Directory.locations h rfl (fun _ ht => ht.locations)
    (accepted_report_guarded hacc).2 rfl
    fun hroom => { (consistent_iff.mp h).2 with locations := hroom }

theorem consistent_registerReplica {replica : ReplicaDescriptor} (h : d.Consistent)
    (hacc : (Operation.registerReplica replica).Accepted F d) :
    ((Operation.registerReplica replica).step F d).Consistent ↔
      (Operation.registerReplica replica).Sustainable d :=
  consistent_put Directory.replicas h rfl (fun _ ht => ht.replicas)
    (accepted_report_guarded hacc).2 rfl
    fun hroom => { (consistent_iff.mp h).2 with replicas := hroom }

/-- A lease is accepted with an id and a holder only, so room is all that can be missing. -/
theorem consistent_registerLease {lease : LeaseDescriptor} (h : d.Consistent)
    (hacc : (Operation.registerLease lease).Accepted F d) :
    ((Operation.registerLease lease).step F d).Consistent ↔
      (Operation.registerLease lease).Sustainable d := by
  obtain ⟨hpass, hstep⟩ := accepted_report_guarded hacc
  have hchecks := firstFailure_eq_none.mp hpass
  simp only [List.forall_mem_cons] at hchecks
  refine consistent_put Directory.leases h rfl (fun _ ht => ht.leases) hstep rfl
    fun hroom => { (consistent_iff.mp h).2 with leases := hroom, leaseIds := ?_ }
  intro l hl
  rcases KeyedMap.mem_put.mp hl with rfl | ⟨hl, _⟩
  · exact ⟨hchecks.1, hchecks.2.1⟩
  · exact h.sound.leases l hl

/-- A tombstone is accepted with an id, but the id may be taken and the kind undeclared. -/
theorem consistent_tombstone {t : TombstoneRecord} (h : d.Consistent)
    (hacc : (Operation.tombstone t).Accepted F d) :
    ((Operation.tombstone t).step F d).Consistent ↔ (Operation.tombstone t).Sustainable d := by
  have hk := recordsKept_step F (.tombstone t) rfl d
  obtain ⟨hpass, hstate⟩ := accepted_report_guarded hacc
  have hnull := (firstFailure_eq_none.mp hpass) _ List.mem_cons_self
  have hstep : (Operation.tombstone t).step F d = _ := hstate
  have hids : ((d.tombstones ++ [t]).map (·.tombstoneId)).Nodup ↔
      ∀ t' ∈ d.tombstones, t'.tombstoneId ≠ t.tombstoneId := by
    rw [List.map_append, List.map_singleton]
    exact nodup_map_append_singleton h.sound.tombstoneIds
  have hlen : (d.tombstones ++ [t]).length = d.tombstones.length + 1 := List.length_append
  rw [consistent_iff_entries h hk, hstep]
  constructor
  · intro h'
    have hroom : (d.tombstones ++ [t]).length ≤ 100000000 := h'.tombstones
    rw [hlen] at hroom
    exact ⟨(h'.kinds t (List.mem_append_right _ List.mem_cons_self)).2,
      hids.mp h'.tombstoneIds, hroom⟩
  · intro h
    obtain ⟨hkind, hfresh, hroom⟩ := h
    refine { (consistent_iff.mp h).2 with
      tombstones := hlen ▸ hroom, tombstoneIds := hids.mpr hfresh, kinds := fun t' ht' => ?_ }
    rcases List.mem_append.mp ht' with ht' | ht'
    · exact h.sound.tombstones t' ht'
    · rw [List.mem_singleton.mp ht']
      exact ⟨hnull, hkind⟩

theorem consistent_registerEntry {record : DirectoryRecord} {clk : Nat → TimestampNs}
    (h : d.Consistent) (hacc : (Operation.registerEntry record clk).Accepted F d) :
    ((Operation.registerEntry record clk).step F d).Consistent ↔
      (Operation.registerEntry record clk).Sustainable d := by
  obtain ⟨hr, he⟩ := consistent_iff.mp h
  have hc := committed_registerEntry clk (accepted_registerEntry.mp hacc)
  have he' := entriesFit_of_kept he (mapsKept_registerEntry record clk d)
  exact consistent_iff.trans ((and_iff_left he').trans (recordsFit_of_committed hr hc))

end Adders

/-! ## 3. The step -/

/-- **One step keeps the invariant exactly when the call is refused or sustainable.** -/
theorem consistent_step_iff (F : Type) [ScoreArith F] (op : Operation) (d : Directory)
    (h : d.Consistent) : op.Restarts F d ↔ (op.step F d).Consistent := by
  -- an operation that adds nothing is always sustainable
  have hquiet (hs : op.Sustainable d) (hr : op.addsRecords = false)
      (he : op.addsEntries = false) : op.Restarts F d ↔ (op.step F d).Consistent := by
    have hk := recordsKept_step F _ hr d
    refine iff_of_true (fun _ => hs) ((consistent_iff_entries h hk).mpr ?_)
    exact entriesFit_of_kept (consistent_iff.mp h).2 (mapsKept_step F he d)
  -- an operation that adds something does so only when it is accepted
  have hadds (hev : op.evidence = none) (hop : op ≠ .validateIndexes)
      (hacc : op.Accepted F d → ((op.step F d).Consistent ↔ op.Sustainable d)) :
      op.Restarts F d ↔ (op.step F d).Consistent := by
    by_cases ha : op.Accepted F d
    · rw [hacc ha]
      exact ⟨fun hs => hs ha, fun hs _ => hs⟩
    · rw [rejected_step hev hop ha]
      exact iff_of_true (fun h' => absurd h' ha) h
  cases op with
  | registerEntry record clk => exact hadds rfl nofun (consistent_registerEntry h)
  | registerCache cache => exact hadds rfl nofun (consistent_registerCache h)
  | registerLocation loc => exact hadds rfl nofun (consistent_registerLocation h)
  | registerReplica replica => exact hadds rfl nofun (consistent_registerReplica h)
  | registerLease lease => exact hadds rfl nofun (consistent_registerLease h)
  | tombstone t => exact hadds rfl nofun (consistent_tombstone h)
  | recoverFromBuffer buf =>
      refine iff_of_true (fun _ => trivial) (recover_keeps F h fun s hparse hs => ?_)
      exact ⟨oneGeneration_install hs d, countsFit_install (parseSnapshot_counts hparse) d,
        sound_install hs d⟩
  | _ => exact hquiet trivial rfl rfl

/-! ## 4. Runs -/

/-- **Restart along runs.** When every accepted call of a run is sustainable, every state of it
    with strings within the readers' limits can be restarted from its own snapshot, in any
    process. When every state of a run can, every accepted call was sustainable. Recovery in
    between may be given any bytes. -/
theorem restart_along_run (F : Type) [ScoreArith F] (ops : List Operation) :
    (Follows (Operation.step F) (Operation.Restarts F) {} ops →
      ∀ d, Reached F ops d → d.StringsFit → ∀ (o : MapOrders) (t : Directory),
        ∃ ack t', t.recoverFromBuffer (d.saveToBuffer o).2 = some (.ok ack, t')) ∧
    ((∀ d, Reached F ops d → d.SizesFit ∧ ∃ (o : MapOrders) (t : Directory), ∃ ack t',
        t.recoverFromBuffer (d.saveToBuffer o).2 = some (.ok ack, t')) →
      Follows (Operation.step F) (Operation.Restarts F) {} ops) := by
  have hiff : Follows (Operation.step F) (Operation.Restarts F) {} ops ↔
      ∀ d ∈ visited (Operation.step F) {} ops, d.Consistent :=
    follows_iff_visited (consistent_step_iff F) ops {} consistent_start
  constructor
  · intro hfollows d hd hstrings o t
    have hcons := hiff.mp hfollows d hd
    obtain ⟨ack, hrec⟩ := recover_saved (o := o) ⟨hcons.counts, hstrings, hcons.sound⟩ t
    exact ⟨ack, _, hrec⟩
  · intro hall
    refine hiff.mpr fun d hd => ?_
    obtain ⟨hfit, o, t, hrec⟩ := hall d hd
    have hres := (recover_saved_iff hfit t).mp hrec
    exact ⟨oneGeneration_reached hd, hres.counts, hres.sound⟩

/-- One tombstone recorded twice: nothing asks whether its id is taken. -/
def buriedTwice : Directory :=
  after (Operation.step Float) {}
    (oneCopy ++ [.tombstone (stateTombstone ⟨1⟩ 1), .tombstone (stateTombstone ⟨1⟩ 1)])

/-- **The counterexample**: what was reached by five registrations and two tombstones is refused
    by every directory it is recovered into. -/
theorem buriedTwice_cannot_restart :
    OwnReached Float buriedTwice ∧ buriedTwice.StringsFit ∧
      ∀ (o : MapOrders) (t : Directory),
        ∃ f, t.recoverFromBuffer (buriedTwice.saveToBuffer o).2 = some (.error f, t) := by
  have hstrings : buriedTwice.StringsFit := by decide +kernel
  have hcounts : buriedTwice.CountsFit := by decide +kernel
  refine ⟨ownReached_after _ _ (by decide) .start, hstrings, fun o t => ?_⟩
  rcases recoverFromBuffer_cases (buriedTwice.saveToBuffer o).2 t with hfail | ⟨s, ack, _, _, hrec⟩
  · exact hfail
  · have hres := (recover_saved_iff (sizesFit_of_limits hcounts hstrings) t).mp ⟨ack, _, hrec⟩
    have htwice : ¬ (buriedTwice.tombstones.map (·.tombstoneId)).Nodup := by decide +kernel
    exact absurd hres.sound.tombstoneIds htwice

theorem restart_along_run_buried :
    ∃ ack t', Directory.recoverFromBuffer (buried.saveToBuffer .stored).2 {} =
      some (.ok ack, t') := by
  refine (restart_along_run Float burial).1 ?_ buried (after_mem_visited _ _ _) ?_ .stored {}
  · refine ⟨fun _ => trivial, fun _ => .inr ?_, fun _ => .inr ?_, fun _ => .inr ?_,
      fun _ => ⟨?_, ?_, ?_⟩, fun _ => ⟨?_, ?_, ?_⟩, trivial⟩
    all_goals decide +kernel
  · decide +kernel

end CacheDirectory
