/-
  File:      CacheDirectory/Invariants/Isolation.lean
  Subject:   WHAT STRANGERS LEAVE ALONE.

  What is on file under the ids of one side is a directory of its own (`slice`). A call that names
  nothing of that side leaves it alone, and a call that names nothing else goes by it: its outcome
  and what it makes of the slice are the same wherever the slice is. What all calls share is the
  epoch, the policy, and two things nobody reads: the counter of commits, and with it the stamps
  `unstamped` blanks.

  * `slice_stranger` -- calls of the other side;
  * `seenAlike_own` -- calls of this one;
  * `seen_of_concerns` -- a run and the own calls in it.
-/
import CacheDirectory.Invariants.Realms
import CacheDirectory.Invariants.RecordIds
import CacheDirectory.Invariants.Schedules
import CacheDirectory.Queries.Transparency

namespace CacheDirectory

open Library Directory

/-! ## 1. The slice of a side -/

/-- A record but for the number of its commit and the time of its last update. -/
def unstamped (r : DirectoryRecord) : DirectoryRecord :=
  { r with recordGeneration := ⟨0⟩, updatedNs := 0 }

/-- The records under own ids. -/
def ownRecords (own : Identifier → Bool) (records : List DirectoryRecord) :
    List DirectoryRecord :=
  part (fun r => own (.record r.recordId)) unstamped records

/-- The tombstones of own boots. -/
def ownTombstones (own : Identifier → Bool) (tombstones : List TombstoneRecord) :
    List TombstoneRecord :=
  tombstones.filter fun t => own (.boot t.workerBoot)

/-- What is on file under own ids. -/
def Directory.slice (own : Identifier → Bool) (d : Directory) : Directory :=
  { d with
    directoryGeneration := ⟨0⟩
    records := ownRecords own d.records
    caches := d.caches.restrict fun id => own (.cache id)
    locations := d.locations.restrict fun id => own (.location id)
    replicas := d.replicas.restrict fun id => own (.replica id)
    leases := d.leases.restrict fun id => own (.lease id)
    tombstones := ownTombstones own d.tombstones
    currentStateGen := d.currentStateGen.restrict fun s => own (.state s)
    workers := d.workers.restrict fun b => own (.boot b)
    accounting := {}
    indexes := {}
    indexesDirty := true
    nextObj := 0 }

section Slice

variable {own : Identifier → Bool} {d : Directory}

@[simp] theorem ownRecords_ownRecords (l : List DirectoryRecord) :
    ownRecords own (ownRecords own l) = ownRecords own l := by
  apply part_part
  · exact fun _ => rfl
  · exact fun _ => rfl

theorem ownRecords_append (l m : List DirectoryRecord) :
    ownRecords own (l ++ m) = ownRecords own l ++ ownRecords own m := part_append l m

@[simp] theorem ownTombstones_ownTombstones (l : List TombstoneRecord) :
    ownTombstones own (ownTombstones own l) = ownTombstones own l := by
  unfold ownTombstones
  rw [List.filter_filter]
  simp

theorem slice_slice (own : Identifier → Bool) (d : Directory) :
    (d.slice own).slice own = d.slice own := by
  simp only [slice, KeyedMap.restrict_restrict, ownRecords_ownRecords, ownTombstones_ownTombstones]

theorem slice_content (own : Identifier → Bool) (d : Directory) :
    d.content.slice own = d.slice own := rfl

/-- Calls with the same content behind have the same slice behind. -/
theorem slice_congr {d' : Directory} (own : Identifier → Bool) (h : d.content = d'.content) :
    d.slice own = d'.slice own := by
  rw [← slice_content, h, slice_content]

/-! ## 2. Strangers -/

/-- The object an update works on, as a name. -/
def Object.name : Object → Option Identifier
  | .record id => some (.record id)
  | .cache id => some (.cache id)
  | .lease id => some (.lease id)
  | .policy => none
  | .counter => none

theorem name_mem_names {op : Operation} {x : Object} {n : Identifier} (hop : op.object = some x)
    (hx : x.name = some n) : n ∈ op.names := by
  cases op with
  | setRankingPolicy p =>
      cases hop
      cases hx
  | nextObjectId =>
      cases hop
      cases hx
  | updateHealth | updateFreshness | updateReachability | updateIntegrity | updateLifecycle |
    updateCacheHealth | updateCacheCapacity | renewLease | expireLease | revokeLease =>
      cases hop
      cases hx
      exact List.mem_singleton_self _
  | _ => cases hop

/-- The call sets the ranking policy, which is nobody's. -/
def Operation.isPolicy : Operation → Bool
  | .setRankingPolicy _ => true
  | _ => false

theorem evidence_mem_names {op : Operation} {id : DirectoryRecordId} {env : AuthorityEnvelope}
    {write : DirectoryRecord → DirectoryRecord} (h : op.evidence = some (id, env, write)) :
    .record id ∈ op.names := by
  cases op with
  | updateHealth | updateFreshness | updateReachability | updateIntegrity =>
      cases h
      exact List.mem_singleton_self _
  | _ => cases h

/-- What an invalidation selects has a name of it. -/
theorem name_of_selects {op : Operation} {r : DirectoryRecord} (h : op.selects d r = true) :
    ∃ n ∈ op.names, n ∈ r.names := by
  cases op with
  | invalidateState s g env reason clk =>
      unfold Operation.selects selectState at h
      simp only [Bool.and_eq_true, beq_iff_eq] at h
      exact ⟨.state s, List.mem_cons_self, by simp [DirectoryRecord.names, h.2.1.1]⟩
  | invalidateLocation loc env reason clk =>
      have hloc := beq_iff_eq.mp (Bool.and_eq_true_iff.mp h).2
      exact ⟨.location loc, List.mem_cons_self, by simp [DirectoryRecord.names, hloc]⟩
  | invalidateReplica rep env reason clk =>
      have hrep := beq_iff_eq.mp (Bool.and_eq_true_iff.mp h).2
      exact ⟨.replica rep, List.mem_cons_self, by simp [DirectoryRecord.names, hrep]⟩
  | invalidateCache c env reason clk =>
      have hcache := beq_iff_eq.mp (Bool.and_eq_true_iff.mp h).2
      exact ⟨.cache c, List.mem_cons_self, by simp [DirectoryRecord.names, hcache]⟩
  | invalidateWorkerBoot b env reason clk =>
      have hboot := beq_iff_eq.mp (Bool.and_eq_true_iff.mp h).2
      exact ⟨.boot b, List.mem_cons_self, by simp [DirectoryRecord.names, hboot]⟩
  | _ => cases h

/-- **A call edits the records that have a name of it.** -/
theorem Edited.named {op : Operation} {r r' : DirectoryRecord} (h : Edited d op r r') :
    r' = r ∨ r'.recordId = r.recordId ∧ ∃ n ∈ op.names, n ∈ r.names := by
  have hfound {id : DirectoryRecordId} {env : AuthorityEnvelope} {i : Fin d.records.length}
      (hi : Admitted id env d i) : .record id ∈ (d.records.get i).names := by
    rw [← recordId_found hi.found]
    exact List.mem_cons_self
  cases h with
  | untouched op r => exact .inl rfl
  | lost live boot =>
      exact .inr ⟨(kept_loseRecord r).recordId, _, List.mem_cons_self,
        by simp [DirectoryRecord.names, boot]⟩
  | @displaced record r clk admitted hit =>
      have hstate : r.stateId = record.stateId := by
        unfold displaces at hit
        simp only [Bool.and_eq_true, beq_iff_eq] at hit
        exact hit.1.2
      refine .inr ⟨rfl, .state record.stateId, ?_, ?_⟩
      · simp [Operation.names, DirectoryRecord.names]
      · simp [DirectoryRecord.names, hstate]
  | late hev hi hfrozen =>
      exact .inr ⟨(write_guarded hev _).1, _, evidence_mem_names hev, hfound hi⟩
  | evidence now hev hi hfree =>
      exact .inr ⟨(write_guarded hev _).1, _, evidence_mem_names hev, hfound hi⟩
  | relabelled hi can => exact .inr ⟨rfl, _, List.mem_singleton_self _, hfound hi⟩
  | invalidated now reach hit current _ => exact .inr ⟨rfl, name_of_selects hit⟩
  | @buried t r kind state floor =>
      refine .inr ⟨rfl, .state t.target.state, ?_, ?_⟩
      · simp [Operation.names, TombstoneRecord.names, kind]
      · simp [DirectoryRecord.names, state]

/-- A stranger's call leaves the own records alone. -/
theorem ownRecords_stranger (F : Type) [ScoreArith F] {op : Operation} (hop : op.Sided own)
    (hother : ∀ n ∈ op.names, own n = false) (h : Divided own d) :
    ownRecords own (op.step F d).records = ownRecords own d.records := by
  obtain ⟨l, hl, hrecords⟩ := edited_step F hop.fresh d
  have hedited : ownRecords own l = ownRecords own d.records := by
    refine part_of_forall₂ (((List.forall₂_and_left _ _).mpr ⟨fun _ => id, hl⟩).imp ?_)
    rintro r r' ⟨hr, hedit⟩
    refine hedit.named.imp_right ?_
    rintro ⟨hid, n, hn, hnr⟩
    have hr : own (.record r.recordId) = false := by
      rw [(h.records r hr).eq List.mem_cons_self hnr]
      exact hother n hn
    exact ⟨hr, by rw [hid]; exact hr⟩
  have happended : ownRecords own (op.appended d) = [] := by
    cases op with
    | registerEntry record clk =>
        cases hcheck : d.checkRegistration record with
        | some f =>
            rw [appended_rejected hcheck]
            rfl
        | none =>
            have hid : own (.record (d.stamped record clk).recordId) = false := by
              refine hother _ ?_
              show _ ∈ record.names
              rw [← names_stamped hop.named clk d]
              exact List.mem_cons_self
            rw [appended_admitted hcheck]
            unfold ownRecords
            rw [part_cons, if_neg (by rw [hid]; exact Bool.false_ne_true)]
            rfl
    | _ => rfl
  rw [hrecords, ownRecords_append, hedited, happended, List.append_nil]

/-- A revision of something that is not own. -/
theorem slice_apply {v : Revision} (hpolicy : v.object ≠ some .policy)
    (hother : ∀ x n, v.object = some x → x.name = some n → own n = false)
    (hrecords : ownRecords own (v.apply d).records = ownRecords own d.records) :
    (v.apply d).slice own = d.slice own := by
  cases v with
  | nothing => rfl
  | policy p => exact absurd rfl hpolicy
  | counter => rfl
  | record id f hf => exact congrArg (fun l => { d.slice own with records := l }) hrecords
  | cache id f hf =>
      have hid : own (.cache id) = false := hother _ _ rfl rfl
      refine congrArg (fun m => { d.slice own with caches := m })
        (KeyedMap.restrict_adjust_other hf fun c _ hc => ?_)
      rw [beq_iff_eq.mp hc]
      exact hid
  | lease id f hf =>
      have hid : own (.lease id) = false := hother _ _ rfl rfl
      refine congrArg (fun m => { d.slice own with leases := m })
        (KeyedMap.restrict_adjust_other hf fun l _ hl => ?_)
      rw [beq_iff_eq.mp hl]
      exact hid

theorem slice_update {F : Type} [ScoreArith F] {op : Operation} {x : Object}
    (hx : op.object = some x) (hop : op.Sided own) (hpolicy : op.isPolicy = false)
    (hother : ∀ n ∈ op.names, own n = false) (h : Divided own d) :
    (op.step F d).slice own = d.slice own := by
  obtain ⟨e, v, hlocal⟩ := local_update F hx d
  have hcontent : (op.step F d).content = (v.apply d).content :=
    (hlocal.run d rfl (same_of_content rfl x)).2
  have hrecords : (op.step F d).records = (v.apply d).records :=
    (congrArg Directory.records hcontent :)
  have hnot : x ≠ .policy := by
    rintro rfl
    cases op with
    | setRankingPolicy p => cases hpolicy
    | _ => cases hx
  rw [slice_congr own hcontent]
  rcases hlocal.object with rfl | hv
  · rfl
  · refine slice_apply ?_ (fun y n hy hn => ?_) ?_
    · rw [hv]
      exact fun heq => hnot (Option.some.inj heq)
    · rw [hv] at hy
      cases hy
      exact hother n (name_mem_names hx hn)
    · rw [← hrecords]
      exact ownRecords_stranger F hop hother h

theorem slice_guarded {α : Type} {checks : List (Bool × Failure)} {act : α × Directory}
    (h : act.2.slice own = d.slice own) : (guarded checks d act).2.slice own = d.slice own :=
  guarded_keeps (P := fun d' : Directory => d'.slice own = d.slice own) rfl fun _ => h

theorem slice_lost (h : Divided own d) {b : WorkerBootId} (hb : own (.boot b) = false)
    {reason : Bytes}
    (hrecords : ownRecords own (d.onWorkerLoss b reason).2.records = ownRecords own d.records) :
    (d.onWorkerLoss b reason).2.slice own = d.slice own := by
  unfold onWorkerLoss at hrecords ⊢
  cases hlive : d.workerLive b with
  | false => rfl
  | true =>
      rw [hlive] at hrecords
      simp only [slice, recomputeAccounting, Bool.not_true, Bool.false_eq_true, if_false]
        at hrecords ⊢
      rw [hrecords, KeyedMap.restrict_adjust_other, KeyedMap.restrict_adjust_other,
        KeyedMap.restrict_adjust_other, KeyedMap.restrict_adjust_other]
      · intro w _ hw
        rw [beq_iff_eq.mp hw, hb]
      · intro l hl hholder
        have hside := h.leases _ l (KeyedMap.find_eq_some.mpr ⟨hl, rfl⟩)
        rw [hside.eq (y := .boot l.holder) (by simp [LeaseDescriptor.names])
          (by simp [LeaseDescriptor.names]), beq_iff_eq.mp hholder, hb]
      · intro l hl hboot
        have hside := h.locations _ l (KeyedMap.find_eq_some.mpr ⟨hl, rfl⟩)
        rw [hside.eq (y := .boot l.workerBoot) (by simp [LocationDescriptor.names])
          (by simp [LocationDescriptor.names]), beq_iff_eq.mp hboot, hb]
      · intro c hc hboot
        have hside := h.caches _ c (KeyedMap.find_eq_some.mpr ⟨hc, rfl⟩)
        rw [hside.eq (y := .boot c.workerBoot) (by simp [CacheDescriptor.names])
          (by simp [CacheDescriptor.names]), beq_iff_eq.mp hboot, hb]

/-- A registration writes the records, and the generation of the state. -/
theorem slice_registered {record : DirectoryRecord} {clk : Nat → TimestampNs}
    (hcheck : d.checkRegistration record = none) :
    (d.registerEntry record clk).2.slice own =
      { d.slice own with
        records := ownRecords own (d.registerEntry record clk).2.records
        currentStateGen := (d.currentStateGen.put (record.stateId, record.stateGeneration)).restrict
          fun s => own (.state s) } := by
  rw [registerEntry_admitted hcheck]
  rfl

theorem slice_entry {record : DirectoryRecord} (hstate : own (.state record.stateId) = false)
    {clk : Nat → TimestampNs}
    (hrecords : ownRecords own (d.registerEntry record clk).2.records = ownRecords own d.records) :
    (d.registerEntry record clk).2.slice own = d.slice own := by
  cases hcheck : d.checkRegistration record with
  | some f => rw [registerEntry_rejected hcheck]
  | none =>
      have hgenerations : (d.currentStateGen.put (record.stateId, record.stateGeneration)).restrict
          (fun s => own (.state s)) = d.currentStateGen.restrict fun s => own (.state s) :=
        KeyedMap.restrict_put_other _ hstate
      rw [slice_registered hcheck, hrecords, hgenerations]
      rfl

/-- An invalidation that writes the records, and a descriptor that is not own. -/
theorem slice_invalidateWith {env : AuthorityEnvelope} {affected : UInt32} {message : Bytes}
    {act : Directory → Directory}
    (hrecords : ownRecords own (d.invalidateWith env affected message act).2.records =
      ownRecords own d.records)
    (hact : (act d).slice own = { d.slice own with records := ownRecords own (act d).records }) :
    (d.invalidateWith env affected message act).2.slice own = d.slice own := by
  cases h : env.epoch == d.epoch with
  | false => rw [invalidateWith_stale h]
  | true =>
      rw [invalidateWith_granted h] at hrecords ⊢
      exact hact.trans (congrArg (fun l => { d.slice own with records := l }) hrecords)

theorem slice_buried {t : TombstoneRecord} (hauthor : own (.boot t.workerBoot) = false)
    (hrecords : ownRecords own (d.tombstone t).2.records = ownRecords own d.records) :
    (d.tombstone t).2.slice own = d.slice own := by
  have htombstones : ownTombstones own (d.tombstones ++ [t]) = ownTombstones own d.tombstones := by
    unfold ownTombstones
    rw [List.filter_append, List.filter_cons_of_neg (by rw [hauthor]; exact Bool.false_ne_true)]
    exact List.append_nil _
  unfold tombstone at hrecords ⊢
  rcases guarded_cases _ d _ with ⟨f, hend⟩ | ⟨_, hend⟩
  · rw [hend]
  · rw [hend] at hrecords ⊢
    simp only [slice, recomputeAccounting] at hrecords ⊢
    rw [htombstones, hrecords]

/-- **A stranger's call leaves the slice alone.** -/
theorem slice_stranger (F : Type) [ScoreArith F] {op : Operation} (hop : op.Sided own)
    (hpolicy : op.isPolicy = false) (hother : ∀ n ∈ op.names, own n = false)
    (h : Divided own d) : (op.step F d).slice own = d.slice own := by
  have hrecords := ownRecords_stranger F hop hother h
  have hupdate {x : Object} (hx : op.object = some x) : (op.step F d).slice own = d.slice own :=
    slice_update hx hop hpolicy hother h
  cases op with
  | recoverFromBuffer buf => cases hop.fresh
  | setRankingPolicy p => cases hpolicy
  | query order q => exact slice_congr own (content_query F d order q)
  | indexes => exact slice_congr own (content_ensureIndexes d)
  | validateIndexes => exact slice_congr own (content_read rfl d)
  | registerWorkerSession session =>
      have hboot : own (.boot session.boot) = false := hother _ List.mem_cons_self
      have hworkers := d.workers.restrict_put_other (q := fun id => own (.boot id))
        (v := { session with live := true }) hboot
      exact slice_guarded (congrArg (fun m => { d.slice own with workers := m }) hworkers)
  | onWorkerLoss b reason => exact slice_lost h (hother _ List.mem_cons_self) hrecords
  | registerCache cache =>
      have hid : own (.cache cache.cacheId) = false := hother _ List.mem_cons_self
      exact slice_guarded (congrArg (fun m => { d.slice own with caches := m })
        (d.caches.restrict_put_other (q := fun id => own (.cache id)) hid))
  | registerLocation loc =>
      have hid : own (.location loc.locationId) = false := hother _ List.mem_cons_self
      exact slice_guarded (congrArg (fun m => { d.slice own with locations := m })
        (d.locations.restrict_put_other (q := fun id => own (.location id)) hid))
  | registerReplica replica =>
      have hid : own (.replica replica.replicaId) = false := hother _ List.mem_cons_self
      exact slice_guarded (congrArg (fun m => { d.slice own with replicas := m })
        (d.replicas.restrict_put_other (q := fun id => own (.replica id)) hid))
  | registerLease lease =>
      have hid : own (.lease lease.leaseId) = false := hother _ List.mem_cons_self
      exact slice_guarded (congrArg (fun m => { d.slice own with leases := m })
        (d.leases.restrict_put_other (q := fun id => own (.lease id)) hid))
  | registerEntry record clk =>
      have hstate : .state record.stateId ∈ record.names := by simp [DirectoryRecord.names]
      exact slice_entry (hother _ hstate) hrecords
  | invalidateState s g env reason clk => exact slice_invalidateWith hrecords rfl
  | invalidateReplica rep env reason clk => exact slice_invalidateWith hrecords rfl
  | invalidateWorkerBoot b env reason clk => exact slice_invalidateWith hrecords rfl
  | invalidateLocation loc env reason clk =>
      have hid : own (.location loc) = false := hother _ List.mem_cons_self
      refine slice_invalidateWith hrecords ?_
      simp only [slice]
      rw [KeyedMap.restrict_adjust_other]
      intro l _ hl
      rw [beq_iff_eq.mp hl, hid]
  | invalidateCache c env reason clk =>
      have hid : own (.cache c) = false := hother _ List.mem_cons_self
      refine slice_invalidateWith hrecords ?_
      simp only [slice]
      rw [KeyedMap.restrict_adjust_other]
      intro cd _ hc
      rw [beq_iff_eq.mp hc, hid]
  | tombstone t => exact slice_buried (hother _ List.mem_cons_self) hrecords
  | _ => exact hupdate rfl

/-! ## 3. Own calls -/

/-- Two outcomes with the same failure and the same slice behind. -/
structure SeenAlike (own : Identifier → Bool) (x y : Option Failure × Directory) : Prop where
  failure : x.1 = y.1
  slice : x.2.slice own = y.2.slice own

theorem SeenAlike.same {e : Option Failure} : SeenAlike own (e, d.slice own) (e, d) :=
  ⟨rfl, slice_slice own d⟩

theorem seen_guarded {α : Type} {checks checks' : List (Bool × Failure)} {act act' : α × Directory}
    (hchecks : checks' = checks) (h : act'.2.slice own = act.2.slice own) :
    SeenAlike own (Operation.report (guarded checks' (d.slice own) act'))
      (Operation.report (guarded checks d act)) := by
  rw [hchecks]
  unfold guarded
  cases firstFailure checks with
  | some f => exact .same
  | none => exact ⟨rfl, h⟩

theorem workerLive_slice {b : WorkerBootId} (h : own (.boot b) = true) :
    (d.slice own).workerLive b = d.workerLive b := by
  have hfind : (d.slice own).workers.find b = d.workers.find b :=
    KeyedMap.find_restrict (q := fun b => own (.boot b)) h
  unfold workerLive
  rw [hfind]

theorem currentGen_slice {s : StateId} (h : own (.state s) = true) :
    (d.slice own).currentGen s = d.currentGen s := by
  have hfind : (d.slice own).currentStateGen.find s = d.currentStateGen.find s :=
    KeyedMap.find_restrict (q := fun s => own (.state s)) h
  unfold currentGen
  rw [hfind]

theorem record_slice {id : DirectoryRecordId} (h : own (.record id) = true) :
    (d.slice own).record id = (d.record id).map unstamped := by
  rw [record_eq_find, record_eq_find]
  refine find?_part (fun r _ hr => ?_) fun _ => rfl
  rw [beq_iff_eq.mp hr]
  exact h

/-- The record an own update finds in the slice, and an assignment there. -/
theorem found_in_slice {id : DirectoryRecordId} {r : DirectoryRecord}
    (h : own (.record id) = true) (hr : d.record id = some r) :
    ∃ j, (d.slice own).findRecordIndex id = some j ∧ (d.slice own).records.get j = unstamped r ∧
      ∀ f : DirectoryRecord → DirectoryRecord, (∀ r, (f r).recordId = r.recordId) →
        (∀ r, unstamped (f (unstamped r)) = unstamped (f r)) →
          ownRecords own ((d.slice own).records.set j (f (unstamped r))) =
            ownRecords own (reviseFirst (fun r => r.recordId == id) f d.records) := by
  have hslice : (d.slice own).record id = some (unstamped r) := by
    rw [record_slice h, hr]
    rfl
  obtain ⟨j, hj, hget, hset⟩ := found_record hslice
  refine ⟨j, hj, hget, fun f hid hf => ?_⟩
  rw [hset f]
  refine part_reviseFirst (fun r _ hr => ?_) (fun _ => rfl) (fun _ => rfl) (fun _ => rfl)
    (fun r => by rw [hid]) hf
  rw [beq_iff_eq.mp hr]
  exact h

theorem missing_in_slice {id : DirectoryRecordId} (h : own (.record id) = true)
    (hr : d.record id = none) :
    d.findRecordIndex id = none ∧ (d.slice own).findRecordIndex id = none := by
  have hslice : (d.slice own).record id = none := by
    rw [record_slice h, hr]
    rfl
  exact ⟨Option.map_eq_none_iff.mp hr, Option.map_eq_none_iff.mp hslice⟩

/-- Directories that differ in their records. -/
theorem slice_records {l l' : List DirectoryRecord} (h : ownRecords own l' = ownRecords own l) :
    ({ d.slice own with records := l' } : Directory).slice own =
      ({ d with records := l } : Directory).slice own := by
  simp only [slice, KeyedMap.restrict_restrict, ownTombstones_ownTombstones, h]

theorem seen_evidence {write : DirectoryRecord → DirectoryRecord} {id : DirectoryRecordId}
    {env : AuthorityEnvelope} {now : TimestampNs} (hid : ∀ r, (write r).recordId = r.recordId)
    (hwrite : ∀ r, write (unstamped r) = unstamped (write r)) (h : own (.record id) = true) :
    SeenAlike own (Operation.report (updateEvidence write id env now (d.slice own)))
      (Operation.report (updateEvidence write id env now d)) := by
  cases hr : d.record id with
  | none =>
      obtain ⟨hnone, hslice⟩ := missing_in_slice h hr
      unfold updateEvidence
      rw [hnone, hslice]
      exact .same
  | some r =>
      obtain ⟨i, hi, hget, hset⟩ := found_record hr
      obtain ⟨j, hj, hget', hset'⟩ := found_in_slice h hr
      have hauth : (d.slice own).checkUpdateAuthority (unstamped r) env =
          d.checkUpdateAuthority r env := rfl
      have hderive (r : DirectoryRecord) :
          deriveLifecycle (write (unstamped r)) = deriveLifecycle (write r) := by
        rw [hwrite]
        rfl
      have hlabel : (unstamped r).lifecycle = r.lifecycle := rfl
      unfold updateEvidence
      rw [hi, hj]
      dsimp only
      rw [hget, hget', hauth, hderive, hlabel]
      cases d.checkUpdateAuthority r env with
      | some f => exact .same
      | none =>
          dsimp only
          cases canLifecycle r.lifecycle (deriveLifecycle (write r)) with
          | false =>
              have hrecords := hset' write hid fun r => by
                rw [hwrite]
                rfl
              rw [← hset write] at hrecords
              exact ⟨rfl, slice_records (d := d) hrecords⟩
          | true =>
              have hrecords := hset'
                (fun r => restamped (deriveLifecycle (write r)) env now (write r)) hid fun r => by
                  rw [hderive, hwrite]
                  rfl
              rw [hderive, ← hset fun r => restamped (deriveLifecycle (write r)) env now (write r)]
                at hrecords
              exact ⟨rfl, slice_records (d := d) hrecords⟩

theorem seen_lifecycle {id : DirectoryRecordId} {s : LifecycleState} {env : AuthorityEnvelope}
    {now : TimestampNs} (h : own (.record id) = true) :
    SeenAlike own (Operation.report ((d.slice own).updateLifecycle id s env now))
      (Operation.report (d.updateLifecycle id s env now)) := by
  cases hr : d.record id with
  | none =>
      obtain ⟨hnone, hslice⟩ := missing_in_slice h hr
      unfold updateLifecycle
      rw [hnone, hslice]
      exact .same
  | some r =>
      obtain ⟨i, hi, hget, hset⟩ := found_record hr
      obtain ⟨j, hj, hget', hset'⟩ := found_in_slice h hr
      have hauth : (d.slice own).checkUpdateAuthority (unstamped r) env =
          d.checkUpdateAuthority r env := rfl
      have hlabel : (unstamped r).lifecycle = r.lifecycle := rfl
      unfold updateLifecycle
      rw [hi, hj]
      dsimp only
      rw [hget, hget', hauth, hlabel]
      cases d.checkUpdateAuthority r env with
      | some f => exact .same
      | none =>
          dsimp only
          cases canLifecycle r.lifecycle s with
          | false => exact .same
          | true =>
              have hrecords := hset' (restamped s env now) (fun _ => rfl) fun _ => rfl
              rw [← hset (restamped s env now)] at hrecords
              exact ⟨rfl, slice_records (d := d) hrecords⟩

/-- Revisions of other things than records. -/
theorem slice_apply_slice {v : Revision} (h : ∀ id, v.object ≠ some (.record id)) :
    (v.apply (d.slice own)).slice own = (v.apply d).slice own := by
  cases v with
  | record id f hf => exact absurd rfl (h id)
  | nothing => exact slice_slice own d
  | policy p => simp [slice, Revision.apply]
  | counter => exact slice_slice own d
  | cache id f hf => simp [slice, Revision.apply, KeyedMap.restrict_adjust_own]
  | lease id f hf => simp [slice, Revision.apply, KeyedMap.restrict_adjust_own]

theorem seen_update {F : Type} [ScoreArith F] {op : Operation} {x : Object}
    (hx : op.object = some x) (hrecord : ∀ id, x ≠ .record id)
    (hsame : x.Same (d.slice own) d) :
    SeenAlike own (op.run F (d.slice own)) (op.run F d) := by
  obtain ⟨e, v, hlocal⟩ := local_update F hx d
  obtain ⟨hfailure, hcontent⟩ := hlocal.run d rfl (same_of_content rfl x)
  obtain ⟨hfailure', hcontent'⟩ := hlocal.run (d.slice own) rfl hsame
  refine ⟨hfailure'.trans hfailure.symm, ?_⟩
  rw [slice_congr own hcontent, slice_congr own hcontent']
  refine slice_apply_slice fun id hid => ?_
  rcases hlocal.object with rfl | hv
  · cases hid
  · exact hrecord id (Option.some.inj (hv.symm.trans hid))

/-- A loop over the records that does not look at the stamps. -/
theorem ownRecords_map_own {f : DirectoryRecord → DirectoryRecord}
    (hid : ∀ r, (f r).recordId = r.recordId)
    (hf : ∀ r, unstamped (f (unstamped r)) = unstamped (f r)) (l : List DirectoryRecord) :
    ownRecords own ((ownRecords own l).map f) = ownRecords own (l.map f) := by
  apply part_map
  · intro r
    rw [hid]
  · exact fun _ => rfl
  · exact hf

/-- The loops of the invalidations do not look at them, and write one. -/
theorem ownRecords_invalidated (own : Identifier → Bool) (sel : DirectoryRecord → Bool)
    (also : DirectoryRecord → DirectoryRecord) (clk : Nat → TimestampNs)
    (hid : ∀ r, (also r).recordId = r.recordId) (hsel : ∀ r, sel (unstamped r) = sel r)
    (halso : ∀ r, unstamped (also (unstamped r)) = unstamped (also r))
    (l : List DirectoryRecord) :
    ownRecords own (invalidateRecords sel also clk (ownRecords own l)) =
      ownRecords own (invalidateRecords sel also clk l) := by
  have hkeep (i : Nat) (r : DirectoryRecord) :
      (if sel r && r.current then
        also { r with current := false, lifecycle := .invalidated, updatedNs := clk i }
      else r).recordId = r.recordId := by
    split
    · rw [hid]
    · rfl
  apply part_mapIdx
  · intro i r
    rw [hkeep i r]
  · intro i r
    rw [hkeep i r]
  · exact fun _ => rfl
  · intro i j r
    have hcurrent : (unstamped r).current = r.current := rfl
    rw [hsel, hcurrent]
    split
    · rw [← halso, ← halso { r with
        current := false
        lifecycle := .invalidated
        updatedNs := clk j }]
      rfl
    · rfl

theorem seen_session {session : WorkerSession} (h : own (.boot session.boot) = true) :
    SeenAlike own (Operation.report ((d.slice own).registerWorkerSession session))
      (Operation.report (d.registerWorkerSession session)) := by
  have hfind : (d.slice own).workers.find session.boot = d.workers.find session.boot :=
    KeyedMap.find_restrict (q := fun b => own (.boot b)) h
  have hput := d.workers.restrict_put_own (q := fun b => own (.boot b))
    (v := { session with live := true }) h
  unfold registerWorkerSession
  dsimp only
  rw [hfind]
  exact seen_guarded rfl (by simp [slice, hput])

theorem seen_lost {b : WorkerBootId} {reason : Bytes} (h : own (.boot b) = true) :
    SeenAlike own (Operation.report ((d.slice own).onWorkerLoss b reason))
      (Operation.report (d.onWorkerLoss b reason)) := by
  have hrecords : ownRecords own ((ownRecords own d.records).map fun r =>
      if r.workerBoot == b then loseRecord r else r) =
        ownRecords own (d.records.map fun r => if r.workerBoot == b then loseRecord r else r) := by
    apply ownRecords_map_own
    · exact fun r => (kept_loseRecord r).ite.recordId
    · intro r
      have hboot : (unstamped r).workerBoot = r.workerBoot := rfl
      rw [hboot]
      split
      · unfold loseRecord unstamped
        dsimp only
        split <;> rfl
      · rfl
  unfold onWorkerLoss
  rw [workerLive_slice h]
  cases d.workerLive b with
  | false => exact .same
  | true =>
      refine ⟨rfl, ?_⟩
      simpa [Operation.report, slice, recomputeAccounting, KeyedMap.restrict_adjust_own]
        using hrecords

theorem seen_registerCache {cache : CacheDescriptor} (h : ∀ n ∈ cache.names, own n = true) :
    SeenAlike own (Operation.report ((d.slice own).registerCache cache))
      (Operation.report (d.registerCache cache)) := by
  have hid : own (.cache cache.cacheId) = true := h _ (by simp [CacheDescriptor.names])
  have hboot : own (.boot cache.workerBoot) = true := h _ (by simp [CacheDescriptor.names])
  have hfind : (d.slice own).caches.find cache.cacheId = d.caches.find cache.cacheId :=
    KeyedMap.find_restrict (q := fun id => own (.cache id)) hid
  have hput := d.caches.restrict_put_own (q := fun id => own (.cache id)) (v := cache) hid
  unfold registerCache
  dsimp only
  rw [hfind, workerLive_slice hboot]
  exact seen_guarded rfl (by simp [slice, recomputeAccounting, hput])

theorem seen_registerLocation {loc : LocationDescriptor} (h : ∀ n ∈ loc.names, own n = true) :
    SeenAlike own (Operation.report ((d.slice own).registerLocation loc))
      (Operation.report (d.registerLocation loc)) := by
  have hid : own (.location loc.locationId) = true := h _ (by simp [LocationDescriptor.names])
  have hboot : own (.boot loc.workerBoot) = true := h _ (by simp [LocationDescriptor.names])
  have hfind : (d.slice own).locations.find loc.locationId = d.locations.find loc.locationId :=
    KeyedMap.find_restrict (q := fun id => own (.location id)) hid
  have hput := d.locations.restrict_put_own (q := fun id => own (.location id)) (v := loc) hid
  unfold registerLocation
  dsimp only
  rw [hfind, workerLive_slice hboot]
  exact seen_guarded rfl (by simp [slice, recomputeAccounting, hput])

theorem seen_registerReplica {replica : ReplicaDescriptor}
    (h : ∀ n ∈ replica.names, own n = true) :
    SeenAlike own (Operation.report ((d.slice own).registerReplica replica))
      (Operation.report (d.registerReplica replica)) := by
  have hid : own (.replica replica.replicaId) = true := h _ (by simp [ReplicaDescriptor.names])
  have hloc : own (.location replica.location) = true := h _ (by simp [ReplicaDescriptor.names])
  have hboot : own (.boot replica.authority.boot) = true := h _ (by simp [ReplicaDescriptor.names])
  have hfind : (d.slice own).replicas.find replica.replicaId = d.replicas.find replica.replicaId :=
    KeyedMap.find_restrict (q := fun id => own (.replica id)) hid
  have hlocation : (d.slice own).locations.contains replica.location =
      d.locations.contains replica.location :=
    congrArg Option.isSome (KeyedMap.find_restrict (q := fun id => own (.location id)) hloc)
  have hput := d.replicas.restrict_put_own (q := fun id => own (.replica id)) (v := replica) hid
  unfold registerReplica
  rw [hfind, hlocation, workerLive_slice hboot]
  exact seen_guarded rfl (by simp [slice, recomputeAccounting, hput])

theorem seen_registerLease {lease : LeaseDescriptor} (h : ∀ n ∈ lease.names, own n = true) :
    SeenAlike own (Operation.report ((d.slice own).registerLease lease))
      (Operation.report (d.registerLease lease)) := by
  have hid : own (.lease lease.leaseId) = true := h _ (by simp [LeaseDescriptor.names])
  have hboot : own (.boot lease.holder) = true := h _ (by simp [LeaseDescriptor.names])
  have hfind : (d.slice own).leases.find lease.leaseId = d.leases.find lease.leaseId :=
    KeyedMap.find_restrict (q := fun id => own (.lease id)) hid
  have hput := d.leases.restrict_put_own (q := fun id => own (.lease id)) (v := lease) hid
  unfold registerLease
  rw [hfind, workerLive_slice hboot]
  exact seen_guarded rfl (by simp [slice, recomputeAccounting, hput])

/-- The checks of a registration go by what the record names. -/
theorem checkRegistration_slice (hdivided : Divided own d) {record : DirectoryRecord}
    (h : ∀ n ∈ record.names, own n = true) :
    (d.slice own).checkRegistration record = d.checkRegistration record := by
  have hcache : (d.slice own).caches.find record.cache = d.caches.find record.cache :=
    KeyedMap.find_restrict (q := fun id => own (.cache id)) (h _ (by simp [DirectoryRecord.names]))
  have hloc : (d.slice own).locations.find record.location = d.locations.find record.location :=
    KeyedMap.find_restrict (q := fun id => own (.location id))
      (h _ (by simp [DirectoryRecord.names]))
  have hrep : (d.slice own).replicas.find record.replica = d.replicas.find record.replica :=
    KeyedMap.find_restrict (q := fun id => own (.replica id))
      (h _ (by simp [DirectoryRecord.names]))
  have hboot : own (.boot record.authority.boot) = true := h _ (by simp [DirectoryRecord.names])
  have hstate : own (.state record.stateId) = true := h _ (by simp [DirectoryRecord.names])
  have hdeps : (d.slice own).dependencyChecks record = d.dependencyChecks record := by
    unfold dependencyChecks
    rw [hcache, hloc, hrep, workerLive_slice hboot]
    rfl
  have htombstones : (d.slice own).coveredByTombstone (stateTarget record) =
      d.coveredByTombstone (stateTarget record) := by
    show (d.tombstones.filter _).any _ = d.tombstones.any _
    rw [List.any_filter, Bool.eq_iff_iff, List.any_eq_true, List.any_eq_true]
    refine exists_congr fun t => and_congr_right fun ht => ?_
    rw [Bool.and_eq_true, and_iff_right_iff_imp]
    intro hcovers
    obtain ⟨hkind, hsame, _⟩ := covers_stateTarget.mp hcovers
    rw [(hdivided.tombstones t ht).eq (y := .state t.target.state) List.mem_cons_self
      (by simp [TombstoneRecord.names, hkind]), hsame]
    exact hstate
  have hduplicate : (d.slice own).duplicateCheck record = d.duplicateCheck record := by
    have hfind : (d.slice own).records.find? (sameCopy record) =
        (d.records.find? (sameCopy record)).map unstamped := by
      refine find?_part (fun r hr hsame => ?_) fun _ => rfl
      have hsame : r.stateId = record.stateId := by
        unfold sameCopy at hsame
        simp only [Bool.and_eq_true, beq_iff_eq] at hsame
        exact hsame.1.1.1.1.2
      rw [(hdivided.records r hr).eq (y := .state r.stateId) List.mem_cons_self
        (by simp [DirectoryRecord.names]), hsame]
      exact hstate
    unfold duplicateCheck
    rw [hfind, Option.map_map]
    rfl
  unfold checkRegistration tombstoneCheck generationCheck
  rw [hdeps, htombstones, hduplicate, currentGen_slice hstate]

/-- Wherever a record that comes with its id is registered, it is stored alike. -/
theorem unstamped_stamped {record : DirectoryRecord} (hnamed : record.recordId.isNull = false)
    (clk : Nat → TimestampNs) (d d' : Directory) :
    unstamped (d.stamped record clk) = unstamped (d'.stamped record clk) := by
  unfold stamped
  rw [effectiveId_named hnamed, effectiveId_named hnamed]
  rfl

theorem seen_registerEntry (hdivided : Divided own d) {record : DirectoryRecord}
    {clk : Nat → TimestampNs} (hnamed : record.recordId.isNull = false)
    (h : ∀ n ∈ record.names, own n = true) :
    SeenAlike own (Operation.report ((d.slice own).registerEntry record clk))
      (Operation.report (d.registerEntry record clk)) := by
  have hcheck := checkRegistration_slice hdivided h
  cases hend : d.checkRegistration record with
  | some f =>
      rw [registerEntry_rejected hend, registerEntry_rejected (hcheck.trans hend)]
      exact .same
  | none =>
      have hstate : own (.state record.stateId) = true := h _ (by simp [DirectoryRecord.names])
      have hdisplaces (r : DirectoryRecord) :
          displaces (d.slice own) record r = displaces d record r := by
        unfold displaces outdates
        rw [currentGen_slice hstate, effectiveId_named hnamed, effectiveId_named hnamed]
      have hedited : ownRecords own ((d.slice own).records.map fun r =>
          if displaces (d.slice own) record r then superseded r else r) =
            ownRecords own (d.records.map fun r =>
              if displaces d record r then superseded r else r) := by
        simp only [hdisplaces]
        apply ownRecords_map_own
        · exact fun r => (kept_superseded r).ite.recordId
        · intro r
          have hhit : displaces d record (unstamped r) = displaces d record r := rfl
          rw [hhit]
          split <;> rfl
      have happended : ownRecords own [(d.slice own).stamped record clk] =
          ownRecords own [d.stamped record clk] := by
        have hsame : ((d.slice own).stamped record clk).recordId =
            (d.stamped record clk).recordId :=
          (effectiveId_named hnamed _).trans (effectiveId_named hnamed d).symm
        unfold ownRecords
        rw [part_cons, part_cons, unstamped_stamped hnamed clk (d.slice own) d, hsame]
      have hgenerations := d.currentStateGen.restrict_put_own (q := fun s => own (.state s))
        (v := (record.stateId, record.stateGeneration)) hstate
      refine ⟨?_, ?_⟩
      · rw [registerEntry_admitted hend, registerEntry_admitted (hcheck.trans hend)]
        rfl
      · show ((d.slice own).registerEntry record clk).2.slice own =
          (d.registerEntry record clk).2.slice own
        rw [slice_registered hend, slice_registered (hcheck.trans hend), slice_slice,
          records_registerEntry record clk hend,
          records_registerEntry record clk (hcheck.trans hend),
          ownRecords_append, ownRecords_append, hedited, happended]
        exact congrArg (fun m => { d.slice own with
          records := ownRecords own (d.records.map fun r =>
            if displaces d record r then superseded r else r) ++
              ownRecords own [d.stamped record clk]
          currentStateGen := m }) hgenerations

theorem seen_invalidateWith {env : AuthorityEnvelope} {affected affected' : UInt32}
    {message message' : Bytes} {act act' : Directory → Directory}
    (h : (act' (d.slice own)).slice own = (act d).slice own) :
    SeenAlike own (Operation.report ((d.slice own).invalidateWith env affected' message' act'))
      (Operation.report (d.invalidateWith env affected message act)) :=
  seen_guarded rfl h

theorem seen_buried {t : TombstoneRecord} (h : ∀ n ∈ t.names, own n = true) :
    SeenAlike own (Operation.report ((d.slice own).tombstone t))
      (Operation.report (d.tombstone t)) := by
  have hrecords : ownRecords own ((ownRecords own d.records).map (buryRecord t.target)) =
      ownRecords own (d.records.map (buryRecord t.target)) := by
    apply ownRecords_map_own
    · exact fun r => (kept_buryRecord t.target r).recordId
    · intro r
      unfold buryRecord unstamped
      dsimp only
      split <;> rfl
  have htombstones : ownTombstones own (ownTombstones own d.tombstones ++ [t]) =
      ownTombstones own (d.tombstones ++ [t]) := by
    unfold ownTombstones
    rw [List.filter_append, List.filter_append, List.filter_filter]
    simp only [Bool.and_self]
  have hauthor : own (.boot t.workerBoot) = true := h _ List.mem_cons_self
  unfold tombstone
  rw [workerLive_slice hauthor]
  exact seen_guarded rfl (by simp [slice, recomputeAccounting, hrecords, htombstones])

/-- The call names something own, or sets the policy. -/
def Operation.concerns (own : Identifier → Bool) (op : Operation) : Bool :=
  op.isPolicy || op.names.any own

theorem not_concerns {op : Operation} (h : op.concerns own = false) :
    op.isPolicy = false ∧ ∀ n ∈ op.names, own n = false := by
  unfold Operation.concerns at h
  simpa using h

theorem own_of_concerns {op : Operation} (hop : op.Sided own) (h : op.concerns own = true)
    (hpolicy : op.isPolicy = false) : ∀ n ∈ op.names, own n = true := by
  unfold Operation.concerns at h
  rw [hpolicy, Bool.false_or, List.any_eq_true] at h
  obtain ⟨n, hn, hown⟩ := h
  intro m hm
  rw [hop.names.eq hm hn, hown]

/-- **An own call goes by the slice.** -/
theorem seenAlike_own (F : Type) [ScoreArith F] {op : Operation} (hop : op.Sided own)
    (h : op.concerns own = true) (hdivided : Divided own d) :
    SeenAlike own (op.run F (d.slice own)) (op.run F d) := by
  cases hpolicy : op.isPolicy with
  | true =>
      cases op with
      | setRankingPolicy p => exact ⟨rfl, by simp [slice, setRankingPolicy, Operation.run]⟩
      | _ => cases hpolicy
  | false =>
      have hown := own_of_concerns hop h hpolicy
      have hcache {id : CacheId} (hid : own (.cache id) = true) :
          Object.Same (.cache id) (d.slice own) d :=
        KeyedMap.find_restrict (q := fun id => own (.cache id)) hid
      have hlease {id : LeaseId} (hid : own (.lease id) = true) :
          Object.Same (.lease id) (d.slice own) d :=
        KeyedMap.find_restrict (q := fun id => own (.lease id)) hid
      have hcacheOnly (id : CacheId) : ∀ r, Object.cache id ≠ .record r :=
        fun _ => Object.noConfusion
      have hleaseOnly (id : LeaseId) : ∀ r, Object.lease id ≠ .record r :=
        fun _ => Object.noConfusion
      cases op with
      | recoverFromBuffer buf => cases hop.fresh
      | registerWorkerSession session => exact seen_session (hown _ List.mem_cons_self)
      | onWorkerLoss b reason => exact seen_lost (hown _ List.mem_cons_self)
      | registerCache cache => exact seen_registerCache hown
      | registerLocation loc => exact seen_registerLocation hown
      | registerReplica replica => exact seen_registerReplica hown
      | registerEntry record clk => exact seen_registerEntry hdivided hop.named hown
      | registerLease lease => exact seen_registerLease hown
      | updateHealth id health env now =>
          exact seen_evidence (fun _ => rfl) (fun _ => rfl) (hown _ List.mem_cons_self)
      | updateFreshness id fresh env now =>
          exact seen_evidence (fun _ => rfl) (fun _ => rfl) (hown _ List.mem_cons_self)
      | updateReachability id reach env now =>
          exact seen_evidence (fun _ => rfl) (fun _ => rfl) (hown _ List.mem_cons_self)
      | updateIntegrity id integ env now =>
          exact seen_evidence (fun _ => rfl) (fun _ => rfl) (hown _ List.mem_cons_self)
      | updateLifecycle id s env now => exact seen_lifecycle (hown _ List.mem_cons_self)
      | updateCacheHealth id health reach env =>
          exact seen_update rfl (hcacheOnly id) (hcache (hown _ List.mem_cons_self))
      | updateCacheCapacity id capacity free env =>
          exact seen_update rfl (hcacheOnly id) (hcache (hown _ List.mem_cons_self))
      | renewLease id env now =>
          exact seen_update rfl (hleaseOnly id) (hlease (hown _ List.mem_cons_self))
      | expireLease id env reason =>
          exact seen_update rfl (hleaseOnly id) (hlease (hown _ List.mem_cons_self))
      | revokeLease id env reason =>
          exact seen_update rfl (hleaseOnly id) (hlease (hown _ List.mem_cons_self))
      | invalidateState s g env reason clk =>
          have hlive : own (.boot env.boot) = true := hown _ (by simp [Operation.names])
          have hselect : (d.slice own).selectState s g env = d.selectState s g env := by
            unfold selectState
            rw [workerLive_slice hlive]
          refine seen_invalidateWith (slice_records (d := d) ?_)
          rw [hselect]
          exact ownRecords_invalidated own (d.selectState s g env) id clk (fun _ => rfl)
            (fun _ => rfl) (fun _ => rfl) d.records
      | invalidateReplica rep env reason clk =>
          have hrecords := ownRecords_invalidated own (fun r => r.replica == rep) id clk
            (fun _ => rfl) (fun _ => rfl) (fun _ => rfl) d.records
          exact seen_invalidateWith (slice_records (d := d) hrecords)
      | invalidateWorkerBoot b env reason clk =>
          have hrecords := ownRecords_invalidated own (fun r => r.workerBoot == b)
            (fun r => { r with reachability := .unreachable }) clk (fun _ => rfl) (fun _ => rfl)
            (fun _ => rfl) d.records
          exact seen_invalidateWith (slice_records (d := d) hrecords)
      | invalidateLocation loc env reason clk =>
          have hrecords := ownRecords_invalidated own (fun r => r.location == loc)
            (fun r => { r with reachability := .unreachable }) clk (fun _ => rfl) (fun _ => rfl)
            (fun _ => rfl) d.records
          refine seen_invalidateWith ?_
          simp only [slice, KeyedMap.restrict_restrict, KeyedMap.restrict_adjust_own,
            ownTombstones_ownTombstones, hrecords]
      | invalidateCache c env reason clk =>
          have hrecords := ownRecords_invalidated own (fun r => r.cache == c) id clk
            (fun _ => rfl) (fun _ => rfl) (fun _ => rfl) d.records
          refine seen_invalidateWith ?_
          simp only [slice, KeyedMap.restrict_restrict, KeyedMap.restrict_adjust_own,
            ownTombstones_ownTombstones, hrecords]
      | tombstone t => exact seen_buried hown
      | setRankingPolicy p => cases hpolicy
      | query | validateIndexes | indexes | nextObjectId => cases h

end Slice

/-! ## 4. Runs -/

section Runs

variable {F : Type} [ScoreArith F] {own : Identifier → Bool}

theorem divided_after (ops : List Operation) (hops : ∀ op ∈ ops, op.Sided own) :
    Divided own (after (Operation.step F) {} ops) := by
  have hfollows : Follows (Operation.step F) (fun op _ => op.Sided own) {} ops :=
    (follows_const _ _ _).mpr hops
  exact visited_of_follows (fun op d hd hop => divided_step hop hd) ops {} (divided_empty own)
    hfollows _ (after_mem_visited _ _ _)

/-- A run and the own calls in it. -/
theorem seen_of_concerns (ops : List Operation) (hops : ∀ op ∈ ops, op.Sided own) :
    (after (Operation.step F) {} ops).slice own =
        (after (Operation.step F) {} (ops.filter (Operation.concerns own))).slice own ∧
      (reports (Operation.step F) (Operation.failure F) {} ops).filter
          (fun x => x.1.concerns own) =
        reports (Operation.step F) (Operation.failure F) {}
          (ops.filter (Operation.concerns own)) := by
  have hkeep : ∀ op ∈ ops, ∀ d, Divided own d → Divided own (op.step F d) :=
    fun op hop d hd => divided_step (hops op hop) hd
  refine seen_of_own ops hkeep (fun op hop hother d hd => ?_)
    (fun op hop hown d d' hd hd' hview => ?_) (divided_empty own) (divided_empty own) rfl
  · obtain ⟨hpolicy, hnames⟩ := not_concerns hother
    exact slice_stranger F (hops op hop) hpolicy hnames hd
  · have h := seenAlike_own F (hops op hop) hown hd
    have h' := seenAlike_own F (hops op hop) hown hd'
    rw [hview] at h
    exact ⟨h.slice.symm.trans h'.slice, h.failure.symm.trans h'.failure⟩

end Runs

end CacheDirectory
