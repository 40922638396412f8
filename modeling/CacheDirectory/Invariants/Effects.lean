/-
  File:      CacheDirectory/Invariants/Effects.lean
  Subject:   WHAT ONE STEP CAN DO TO THE RECORDS.

  Every invariant of the record vector is derived from the lemmas of this file; none of them
  opens an operation again.

  * `Kept` -- a record before and after: its identity and its content stay, `current` only drops;
  * `RecordsKept` -- a directory before and after: the vector is kept entry by entry, the
    generation map and the observations are the same, a new tombstone covers no current record,
    and the cached index is either declared dirty, or untouched, or built anew;
  * `recordsKept_step` -- every operation but `register_entry` and `recover_from_buffer` does
    no more than that, whether it succeeds or fails;
  * `Committed`, `committed_registerEntry` -- what a registration does;
  * `step_keeps` -- the step rule the invariants of the records use;
  * `MapsKept`, `mapsKept_step` -- which operations leave the keys of the maps and the tombstones
    as they are;
  * `RestKept`, `restKept_step` -- which operations leave the directory's generation, the leases
    and the tombstones;
  * `DescriptorsKept`, `descriptorsKept_step` -- which operations leave caches and locations.
-/
import CacheDirectory.Library.Pointwise
import CacheDirectory.Invariants.Outcomes

namespace CacheDirectory

open Library

/-! ## 1. One record -/

/-- The fields no operation but recovery writes in a stored record; the others are blanked. -/
def core (r : DirectoryRecord) : DirectoryRecord :=
  { r with
    health := .unknown
    freshness := .unknown
    integrity := .unknown
    reachability := .unknown
    lifecycle := .registered
    current := false
    updatedNs := 0
    semanticDigest := Digest.Sha256.zero
    authority := { r.authority with fence := 0 } }

/-- A stored record before and after a step. -/
structure Kept (r r' : DirectoryRecord) : Prop where
  core : core r' = core r
  current : r'.current = true → r.current = true

namespace Kept

theorem refl (r : DirectoryRecord) : Kept r r := ⟨rfl, id⟩

theorem trans {a b c : DirectoryRecord} (h : Kept a b) (h' : Kept b c) : Kept a c :=
  ⟨h'.core.trans h.core, fun hc => h.current (h'.current hc)⟩

variable {r r' : DirectoryRecord}

theorem recordId (h : Kept r r') : r'.recordId = r.recordId := congrArg (·.recordId) h.core
theorem stateId (h : Kept r r') : r'.stateId = r.stateId := congrArg (·.stateId) h.core
theorem stateGeneration (h : Kept r r') : r'.stateGeneration = r.stateGeneration :=
  congrArg (·.stateGeneration) h.core
theorem cache (h : Kept r r') : r'.cache = r.cache := congrArg (·.cache) h.core
theorem replica (h : Kept r r') : r'.replica = r.replica := congrArg (·.replica) h.core
theorem location (h : Kept r r') : r'.location = r.location := congrArg (·.location) h.core

/-- A conditional edit keeps when the edit does. -/
theorem ite {b : Bool} {x : DirectoryRecord} (h : Kept r x) : Kept r (if b then x else r) := by
  cases b with
  | true => exact h
  | false => exact refl r

end Kept

theorem kept_loseRecord (r : DirectoryRecord) : Kept r (Directory.loseRecord r) := by
  unfold Directory.loseRecord
  split <;> exact ⟨rfl, id⟩

theorem kept_superseded (r : DirectoryRecord) : Kept r (Directory.superseded r) :=
  ⟨rfl, fun h => by cases h⟩

theorem kept_supersedeOlderOf (x r : DirectoryRecord) : Kept r (Directory.supersedeOlderOf x r) :=
  (kept_superseded r).ite

theorem kept_supersedeCopyOf (x r : DirectoryRecord) : Kept r (Directory.supersedeCopyOf x r) :=
  (kept_superseded r).ite

theorem kept_buryRecord (t : TombstoneTarget) (r : DirectoryRecord) :
    Kept r (Directory.buryRecord t r) :=
  .ite ⟨rfl, fun h => by cases h⟩

/-! ## 2. The directory -/

/-- What a step that registers nothing and recovers nothing leaves of the records. -/
structure RecordsKept (d d' : Directory) : Prop where
  records : List.Forall₂ Kept d.records d'.records
  generations : d'.currentStateGen = d.currentStateGen
  observations : d'.observations = d.observations
  tombstones : ∀ t ∈ d'.tombstones, t ∈ d.tombstones ∨
    ∀ r ∈ d'.records, r.current = true → Directory.covers t.target (Directory.stateTarget r) = false
  index : d'.indexesDirty = true ∨
    (d'.indexesDirty = d.indexesDirty ∧ d'.indexes = d.indexes) ∨
    d'.indexes = Directory.buildIndexes d'.records

namespace RecordsKept

variable {d d' : Directory}

theorem refl (d : Directory) : RecordsKept d d :=
  ⟨forall₂_refl Kept.refl _, rfl, rfl, fun _ => .inl, .inr (.inl ⟨rfl, rfl⟩)⟩

/-- A step that leaves the vector alone and declares the index dirty, or leaves both alone. -/
theorem of_same (hr : d'.records = d.records) (hg : d'.currentStateGen = d.currentStateGen)
    (ho : d'.observations = d.observations) (ht : d'.tombstones = d.tombstones)
    (hi : d'.indexesDirty = true ∨ (d'.indexesDirty = d.indexesDirty ∧ d'.indexes = d.indexes)) :
    RecordsKept d d' :=
  ⟨by rw [hr]; exact forall₂_refl Kept.refl _, hg, ho, fun t h => .inl (by rwa [ht] at h),
    hi.imp_right .inl⟩

/-- An entry of the vector behind the step and the one it came from. -/
theorem origin (h : RecordsKept d d') {r' : DirectoryRecord} (hr : r' ∈ d'.records) :
    ∃ r ∈ d.records, Kept r r' :=
  exists_of_forall₂ h.records hr

theorem map_eq {α : Type} (h : RecordsKept d d') {f : DirectoryRecord → α}
    (hf : ∀ r r', Kept r r' → f r' = f r) : d'.records.map f = d.records.map f :=
  map_eq_of_forall₂ hf h.records

theorem currentGen (h : RecordsKept d d') (s : StateId) : d'.currentGen s = d.currentGen s := by
  unfold Directory.currentGen
  rw [h.generations]

theorem guarded {ε α : Type} {checks : List (Bool × ε)} {act : α × Directory}
    (h : RecordsKept d act.2) : RecordsKept d (Library.guarded checks d act).2 :=
  guarded_keeps (P := RecordsKept d) (refl d) fun _ => h

end RecordsKept

/-! ## 3. The operations -/

section Operations

open Directory

theorem records_ensureIndexes (d : Directory) : d.ensureIndexes.records = d.records := by
  unfold ensureIndexes
  split
  · rfl
  · rfl

theorem recordsKept_ensureIndexes (d : Directory) : RecordsKept d d.ensureIndexes := by
  unfold ensureIndexes
  split
  · exact .refl d
  · exact ⟨forall₂_refl Kept.refl _, rfl, rfl, fun _ => .inl, .inr (.inr rfl)⟩

theorem kept_restamped (s : LifecycleState) (env : AuthorityEnvelope) (now : TimestampNs)
    (r : DirectoryRecord) : Kept r (restamped s env now r) :=
  ⟨rfl, fun h => h⟩

theorem recordsKept_storeAt {d : Directory} {i : Fin d.records.length} {r : DirectoryRecord}
    (h : Kept (d.records.get i) r) : RecordsKept d (storeAt d i r) :=
  ⟨forall₂_set_self Kept.refl _ _ _ fun _ => h, rfl, rfl, fun _ => .inl, .inl rfl⟩

theorem recordsKept_updateEvidence (write : DirectoryRecord → DirectoryRecord)
    (hwrite : ∀ r, Kept r (write r)) (id : DirectoryRecordId) (env : AuthorityEnvelope)
    (now : TimestampNs) (d : Directory) :
    RecordsKept d (updateEvidence write id env now d).2 := by
  refine updateEvidence_keeps (P := RecordsKept d) (.refl d) (fun i _ => ?_) fun i s _ => ?_
  · exact ⟨forall₂_set_self Kept.refl _ _ _ fun _ => hwrite _, rfl, rfl, fun _ => .inl,
      .inr (.inl ⟨rfl, rfl⟩)⟩
  · exact recordsKept_storeAt ((hwrite _).trans (kept_restamped s env now _))

theorem recordsKept_updateLifecycle (id : DirectoryRecordId) (s : LifecycleState)
    (env : AuthorityEnvelope) (now : TimestampNs) (d : Directory) :
    RecordsKept d (d.updateLifecycle id s env now).2 :=
  updateLifecycle_keeps (P := RecordsKept d) (.refl d)
    fun _ _ => recordsKept_storeAt (kept_restamped s env now _)

theorem recordsKept_updateCache {write : CacheDescriptor → CacheDescriptor}
    (hwrite : ∀ c, (write c).cacheId = c.cacheId) (id : CacheId) (env : AuthorityEnvelope)
    (d : Directory) : RecordsKept d (updateCache write hwrite id env d).2 :=
  updateCache_keeps (P := RecordsKept d) (.refl d) (.of_same rfl rfl rfl rfl (.inl rfl))

theorem recordsKept_onWorkerLoss (boot : WorkerBootId) (reason : Bytes) (d : Directory) :
    RecordsKept d (d.onWorkerLoss boot reason).2 := by
  unfold onWorkerLoss
  split
  · exact .refl d
  · exact ⟨forall₂_map_self (fun r => (kept_loseRecord r).ite) _, rfl, rfl, fun _ => .inl,
      .inl rfl⟩

theorem recordsKept_leaseAt {d : Directory} {id : LeaseId} {f : LeaseDescriptor → LeaseDescriptor}
    {hf : ∀ l, (f l).leaseId = l.leaseId} : RecordsKept d (leaseAt d id f hf) :=
  .of_same rfl rfl rfl rfl (.inr ⟨rfl, rfl⟩)

theorem recordsKept_renewLease (id : LeaseId) (env : AuthorityEnvelope) (now : TimestampNs)
    (d : Directory) : RecordsKept d (d.renewLease id env now).2 :=
  renewLease_keeps (P := RecordsKept d) (.refl d) recordsKept_leaseAt

theorem recordsKept_expireLease (id : LeaseId) (env : AuthorityEnvelope) (reason : Bytes)
    (d : Directory) : RecordsKept d (d.expireLease id env reason).2 :=
  expireLease_keeps (P := RecordsKept d) (.refl d) recordsKept_leaseAt

theorem recordsKept_revokeLease (id : LeaseId) (env : AuthorityEnvelope) (reason : Bytes)
    (d : Directory) : RecordsKept d (d.revokeLease id env reason).2 :=
  revokeLease_keeps (P := RecordsKept d) (.refl d) recordsKept_leaseAt

theorem kept_invalidatedAt (now : TimestampNs) (r : DirectoryRecord) :
    Kept r { r with current := false, lifecycle := .invalidated, updatedNs := now } :=
  ⟨rfl, fun h => by cases h⟩

theorem forall₂_invalidateRecords {also : DirectoryRecord → DirectoryRecord}
    (halso : ∀ r, Kept r (also r)) (sel : DirectoryRecord → Bool) (clk : Nat → TimestampNs)
    (records : List DirectoryRecord) :
    List.Forall₂ Kept records (invalidateRecords sel also clk records) :=
  forall₂_mapIdx_self (fun _ r => (Kept.trans (kept_invalidatedAt _ r) (halso _)).ite) _

theorem recordsKept_invalidateWith {env : AuthorityEnvelope} {affected : UInt32}
    {message : Bytes} {act : Directory → Directory} {d : Directory}
    (h : RecordsKept d (act d)) : RecordsKept d (d.invalidateWith env affected message act).2 :=
  .guarded ⟨h.records, h.generations, h.observations, h.tombstones, .inl rfl⟩

theorem recordsKept_invalidated {d d' : Directory} {sel : DirectoryRecord → Bool}
    {clk : Nat → TimestampNs} (also : DirectoryRecord → DirectoryRecord)
    (halso : ∀ r, Kept r (also r))
    (hr : d'.records = invalidateRecords sel also clk d.records)
    (hg : d'.currentStateGen = d.currentStateGen) (ho : d'.observations = d.observations)
    (ht : d'.tombstones = d.tombstones)
    (hi : d'.indexesDirty = d.indexesDirty ∧ d'.indexes = d.indexes) : RecordsKept d d' :=
  ⟨by rw [hr]; exact forall₂_invalidateRecords halso _ _ _, hg, ho,
    fun t h => .inl (by rwa [ht] at h), .inr (.inl hi)⟩

/-- Against the target of a registration only tombstones of kind STATE count. -/
theorem covers_stateTarget {t : TombstoneTarget} {r : DirectoryRecord} :
    covers t (stateTarget r) = true ↔
      t.kind = .state ∧ t.state = r.stateId ∧ r.stateGeneration.value ≤ t.generationFloor := by
  unfold covers stateTarget
  by_cases hk : t.kind = .state
  · simp [hk]
  · simp [hk]

theorem coveredByTombstone_eq_false {d : Directory} {target : TombstoneTarget} :
    d.coveredByTombstone target = false ↔ ∀ t ∈ d.tombstones, covers t.target target = false := by
  unfold coveredByTombstone
  simp only [List.any_eq_false, Bool.not_eq_true]

/-- What a tombstone buries is not current. -/
theorem buryRecord_uncovered {t : TombstoneTarget} {r : DirectoryRecord}
    (h : (buryRecord t r).current = true) : covers t (stateTarget (buryRecord t r)) = false := by
  have hkept := kept_buryRecord t r
  rw [Bool.eq_false_iff]
  intro hcov
  obtain ⟨hk, hs, hg⟩ := covers_stateTarget.mp hcov
  rw [hkept.stateId] at hs
  rw [hkept.stateGeneration] at hg
  unfold buryRecord at h
  rw [if_pos (by simp [hk, hs, hg])] at h
  cases h

theorem recordsKept_tombstone (t : TombstoneRecord) (d : Directory) :
    RecordsKept d (d.tombstone t).2 := by
  refine .guarded ⟨forall₂_map_self (kept_buryRecord t.target) _, rfl, rfl, ?_, .inl rfl⟩
  intro t' ht'
  rcases List.mem_append.mp ht' with h | h
  · exact .inl h
  · rw [List.mem_singleton.mp h]
    refine .inr fun r hr hcur => ?_
    obtain ⟨x, _, rfl⟩ := List.mem_map.mp hr
    exact buryRecord_uncovered hcur

end Operations

/-! ## 4. The step lemma -/

/-- The two operations that add records. -/
def Operation.addsRecords : Operation → Bool
  | .registerEntry _ _ => true
  | .recoverFromBuffer _ => true
  | _ => false

/-- **Every operation but `register_entry` and recovery keeps the records.** -/
theorem recordsKept_step (F : Type) [ScoreArith F] (op : Operation)
    (hop : op.addsRecords = false) (d : Directory) : RecordsKept d (op.step F d) := by
  cases op with
  | registerEntry record clk => cases hop
  | recoverFromBuffer buf => cases hop
  | registerWorkerSession session =>
      exact RecordsKept.guarded (.of_same rfl rfl rfl rfl (.inr ⟨rfl, rfl⟩))
  | onWorkerLoss boot reason => exact recordsKept_onWorkerLoss boot reason d
  | registerCache cache => exact RecordsKept.guarded (.of_same rfl rfl rfl rfl (.inl rfl))
  | registerLocation loc => exact RecordsKept.guarded (.of_same rfl rfl rfl rfl (.inl rfl))
  | registerReplica replica => exact RecordsKept.guarded (.of_same rfl rfl rfl rfl (.inl rfl))
  | updateHealth id h env now =>
      exact recordsKept_updateEvidence (fun r => { r with health := h })
        (fun _ => ⟨rfl, fun h => h⟩) id env now d
  | updateFreshness id f env now =>
      exact recordsKept_updateEvidence (fun r => { r with freshness := f })
        (fun _ => ⟨rfl, fun h => h⟩) id env now d
  | updateReachability id reach env now =>
      exact recordsKept_updateEvidence (fun r => { r with reachability := reach })
        (fun _ => ⟨rfl, fun h => h⟩) id env now d
  | updateIntegrity id integ env now =>
      exact recordsKept_updateEvidence (fun r => { r with integrity := integ })
        (fun _ => ⟨rfl, fun h => h⟩) id env now d
  | updateLifecycle id s env now => exact recordsKept_updateLifecycle id s env now d
  | updateCacheHealth id h reach env => exact recordsKept_updateCache _ id env d
  | updateCacheCapacity id capacity free env => exact recordsKept_updateCache _ id env d
  | registerLease lease => exact RecordsKept.guarded (.of_same rfl rfl rfl rfl (.inl rfl))
  | renewLease id env now => exact recordsKept_renewLease id env now d
  | expireLease id env reason => exact recordsKept_expireLease id env reason d
  | revokeLease id env reason => exact recordsKept_revokeLease id env reason d
  | invalidateState s g env reason clk =>
      exact recordsKept_invalidateWith
        (recordsKept_invalidated id Kept.refl rfl rfl rfl rfl ⟨rfl, rfl⟩)
  | invalidateLocation loc env reason clk =>
      exact recordsKept_invalidateWith
        (recordsKept_invalidated (fun r => { r with reachability := .unreachable })
          (fun _ => ⟨rfl, fun h => h⟩) rfl rfl rfl rfl ⟨rfl, rfl⟩)
  | invalidateReplica rep env reason clk =>
      exact recordsKept_invalidateWith
        (recordsKept_invalidated id Kept.refl rfl rfl rfl rfl ⟨rfl, rfl⟩)
  | invalidateCache c env reason clk =>
      exact recordsKept_invalidateWith
        (recordsKept_invalidated id Kept.refl rfl rfl rfl rfl ⟨rfl, rfl⟩)
  | invalidateWorkerBoot b env reason clk =>
      exact recordsKept_invalidateWith
        (recordsKept_invalidated (fun r => { r with reachability := .unreachable })
          (fun _ => ⟨rfl, fun h => h⟩) rfl rfl rfl rfl ⟨rfl, rfl⟩)
  | tombstone t => exact recordsKept_tombstone t d
  | query order q =>
      have h := recordsKept_ensureIndexes d
      exact ⟨h.records, h.generations, h.observations, h.tombstones, h.index⟩
  | setRankingPolicy p => exact .of_same rfl rfl rfl rfl (.inr ⟨rfl, rfl⟩)
  | validateIndexes =>
      have h := recordsKept_ensureIndexes d
      exact guarded_keeps (P := RecordsKept d) h fun _ => h
  | indexes => exact recordsKept_ensureIndexes d
  | nextObjectId => exact .of_same rfl rfl rfl rfl (.inr ⟨rfl, rfl⟩)

/-! ## 5. Registration -/

section Registration

open Directory

variable {d : Directory} {record : DirectoryRecord} {clk : Nat → TimestampNs}

theorem checkRegistration_eq_none :
    d.checkRegistration record = none ↔
      firstFailure (d.dependencyChecks record) = none ∧
        d.coveredByTombstone (stateTarget record) = false ∧
        (d.generationCheck record).1 = false ∧ d.duplicateCheck record = none := by
  have hfences : firstFailure [d.tombstoneCheck record, d.generationCheck record] = none ↔
      d.coveredByTombstone (stateTarget record) = false ∧
        (d.generationCheck record).1 = false := by
    rw [firstFailure_eq_none]
    simp [tombstoneCheck]
  unfold checkRegistration
  rw [Option.or_eq_none_iff, firstFailure_append, Option.or_eq_none_iff, hfences]
  simp only [and_assoc]

theorem registerEntry_rejected {f : Failure} (h : d.checkRegistration record = some f) :
    d.registerEntry record clk = (.error f, d) := by
  unfold registerEntry
  rw [h]

theorem registerEntry_admitted (h : d.checkRegistration record = none) :
    d.registerEntry record clk =
      (.ok (d.stamped record clk),
        (d.commitRecord record
          ((d.currentGen record.stateId).any fun cg => record.stateGeneration.value > cg.value)
          clk).2) := by
  unfold registerEntry
  rw [h]
  rfl

/-- A registration keeps what the commit of its record keeps: a refused one changes nothing. -/
theorem commit_keeps {P : Directory → Prop} (hd : P d)
    (hcommit : ∀ supersede, P (d.commitRecord record supersede clk).2) :
    P (d.registerEntry record clk).2 := by
  cases hcheck : d.checkRegistration record with
  | some f =>
      rw [registerEntry_rejected hcheck]
      exact hd
  | none =>
      rw [registerEntry_admitted hcheck]
      exact hcommit _

theorem registerEntry_error {f : Failure} :
    (d.registerEntry record clk).1 = .error f ↔ d.checkRegistration record = some f := by
  cases h : d.checkRegistration record with
  | some g => simp [registerEntry_rejected h]
  | none => simp [registerEntry_admitted h]

/-- The vector behind the two loops of `commit_record`. -/
def supersedeFor (d : Directory) (r : DirectoryRecord) : List DirectoryRecord :=
  (if (d.currentGen r.stateId).any fun cg => r.stateGeneration.value > cg.value then
    d.records.map (supersedeOlderOf r) else d.records).map (supersedeCopyOf r)

theorem forall₂_supersedeFor (d : Directory) (r : DirectoryRecord) :
    List.Forall₂ Kept d.records (supersedeFor d r) := by
  have hcopy (l : List DirectoryRecord) := forall₂_map_self (kept_supersedeCopyOf r) l
  unfold supersedeFor
  split
  · exact forall₂_trans (R := Kept) (fun _ _ _ => Kept.trans)
      (forall₂_map_self (kept_supersedeOlderOf r) _) (hcopy _)
  · exact hcopy _

/-- A generation above the current one leaves nothing older of its state current. -/
theorem supersedeFor_older {r x : DirectoryRecord} {cg : StateGeneration}
    (hx : x ∈ supersedeFor d r) (hcur : x.current = true) (hs : x.stateId = r.stateId)
    (hcg : d.currentGen r.stateId = some cg) (hlt : cg.value < r.stateGeneration.value) :
    ¬ x.stateGeneration.value < r.stateGeneration.value := by
  intro hold
  unfold supersedeFor at hx
  rw [hcg, Option.any_some, if_pos (by simpa using hlt)] at hx
  obtain ⟨y, hy, rfl⟩ := List.mem_map.mp hx
  obtain ⟨z, hz, rfl⟩ := List.mem_map.mp hy
  have hcopy := kept_supersedeCopyOf r (supersedeOlderOf r z)
  have holder := kept_supersedeOlderOf r z
  have hzc : (supersedeOlderOf r z).current = true := hcopy.current hcur
  have hzs : z.stateId = r.stateId := by rw [← holder.stateId, ← hcopy.stateId, hs]
  have hzg : z.stateGeneration.value < r.stateGeneration.value := by
    rw [← holder.stateGeneration, ← hcopy.stateGeneration]
    exact hold
  -- the first loop has superseded it
  have hsup : supersedeOlderOf r z = superseded z := by
    unfold supersedeOlderOf
    rw [if_pos (by simp [hzs, hzg, holder.current hzc])]
  rw [hsup] at hzc
  cases hzc

/-- What a successful registration of `record` as `r` leaves behind. -/
structure Committed (d : Directory) (record r : DirectoryRecord) (d' : Directory) : Prop where
  records : d'.records = supersedeFor d r ++ [r]
  generations : d'.currentStateGen = d.currentStateGen.put (r.stateId, r.stateGeneration)
  observations : d'.observations = d.observations
  tombstones : d'.tombstones = d.tombstones
  dirty : d'.indexesDirty = true
  recordId : r.recordId = d.effectiveId record
  stateId : r.stateId = record.stateId
  stateGeneration : r.stateGeneration = record.stateGeneration
  nameSpace : r.nameSpace = record.nameSpace
  identities : r.stateId.isNull = false ∧ r.cache.isNull = false ∧ r.replica.isNull = false ∧
    r.location.isNull = false
  uncovered : d.coveredByTombstone (stateTarget r) = false
  notBelow : ∀ cg, d.currentGen r.stateId = some cg →
    ¬ r.stateGeneration.value < cg.value

theorem committed_registerEntry (clk : Nat → TimestampNs)
    (h : d.checkRegistration record = none) :
    Committed d record (d.stamped record clk) (d.registerEntry record clk).2 := by
  obtain ⟨hdep, htomb, hgen, _⟩ := checkRegistration_eq_none.mp h
  rw [registerEntry_admitted h]
  refine ⟨rfl, rfl, rfl, rfl, rfl, rfl, rfl, rfl, rfl, ?_, htomb, fun cg hcg hlt => ?_⟩
  · have hall := firstFailure_eq_none.mp hdep
    simp only [dependencyChecks, List.forall_mem_cons] at hall
    exact ⟨hall.1, hall.2.1, hall.2.2.2.1, hall.2.2.2.2.1⟩
  · unfold generationCheck at hgen
    rw [show d.currentGen record.stateId = some cg from hcg] at hgen
    simp only [Option.any_some, decide_eq_false_iff_not] at hgen
    exact hgen hlt

/-- The record ids behind a registration: the ones before, and the one it committed under. -/
theorem recordIds_committed {record r : DirectoryRecord} {d' : Directory}
    (hc : Committed d record r d') :
    d'.records.map (·.recordId) = d.records.map (·.recordId) ++ [d.effectiveId record] := by
  rw [hc.records, List.map_append, List.map_singleton, hc.recordId,
    map_eq_of_forall₂ (fun _ _ hr => hr.recordId) (forall₂_supersedeFor d r)]

theorem length_committed {record r : DirectoryRecord} {d' : Directory}
    (hc : Committed d record r d') : d'.records.length = d.records.length + 1 := by
  have h := congrArg List.length (recordIds_committed hc)
  simpa using h

/-- The same rule, with what the commit leaves spelled out. -/
theorem registerEntry_keeps {P : Directory → Prop} (hd : P d)
    (hcommit : ∀ r d', Committed d record r d' → P d') : P (d.registerEntry record clk).2 := by
  cases hcheck : d.checkRegistration record with
  | some f =>
      rw [registerEntry_rejected hcheck]
      exact hd
  | none => exact hcommit _ _ (committed_registerEntry clk hcheck)

theorem accepted_registerEntry {F : Type} [ScoreArith F] :
    (Operation.registerEntry record clk).Accepted F d ↔ d.checkRegistration record = none := by
  show (Operation.report (d.registerEntry record clk)).1 = none ↔ _
  cases h : d.checkRegistration record with
  | some f => simp [registerEntry_rejected h, Operation.report]
  | none => simp [registerEntry_admitted h, Operation.report]

end Registration

/-- **The step rule**: an invariant that survives a step that keeps the records, and a
    registration, survives every operation but recovery. -/
theorem step_keeps (F : Type) [ScoreArith F] {Inv : Directory → Prop}
    (hkept : ∀ {d d' : Directory}, Inv d → RecordsKept d d' → Inv d')
    (hcommit : ∀ {d d' : Directory} {record r : DirectoryRecord}, Inv d →
      Committed d record r d' → Inv d')
    (op : Operation) (d : Directory) (hop : op.isRecovery = false) (h : Inv d) :
    Inv (op.step F d) := by
  cases hadd : op.addsRecords with
  | false => exact hkept h (recordsKept_step F op hadd d)
  | true =>
      cases op with
      | registerEntry record clk => exact registerEntry_keeps h fun r d' hc => hcommit h hc
      | recoverFromBuffer buf => cases hop
      | _ => cases hadd

/-! ## 6. The maps and the tombstones -/

/-- A step that adds no descriptor, no lease and no tombstone. -/
structure MapsKept (d d' : Directory) : Prop where
  caches : d'.caches.size = d.caches.size
  locations : d'.locations.size = d.locations.size
  replicas : d'.replicas.size = d.replicas.size
  leases : d'.leases.values.map (fun l => (l.leaseId, l.holder)) =
    d.leases.values.map fun l => (l.leaseId, l.holder)
  tombstones : d'.tombstones = d.tombstones

namespace MapsKept

theorem refl (d : Directory) : MapsKept d d := ⟨rfl, rfl, rfl, rfl, rfl⟩

theorem guarded {d : Directory} {ε α : Type} {checks : List (Bool × ε)} {act : α × Directory}
    (h : MapsKept d act.2) : MapsKept d (Library.guarded checks d act).2 :=
  guarded_keeps (P := MapsKept d) (refl d) fun _ => h

end MapsKept

/-- Editing leases in place leaves ids and holders. -/
theorem map_adjust_leases {leases : List LeaseDescriptor} {p : LeaseDescriptor → Bool}
    {f : LeaseDescriptor → LeaseDescriptor}
    (hf : ∀ l, ((f l).leaseId, (f l).holder) = (l.leaseId, l.holder)) :
    (leases.map fun l => if p l then f l else l).map (fun l => (l.leaseId, l.holder)) =
      leases.map fun l => (l.leaseId, l.holder) := by
  rw [List.map_map]
  refine List.map_congr_left fun l _ => ?_
  simp only [Function.comp]
  split
  · exact hf l
  · rfl

section Maps

open Directory

theorem mapsKept_ensureIndexes (d : Directory) : MapsKept d d.ensureIndexes := by
  unfold ensureIndexes
  split
  · exact .refl d
  · exact ⟨rfl, rfl, rfl, rfl, rfl⟩

theorem mapsKept_updateEvidence (write : DirectoryRecord → DirectoryRecord)
    (id : DirectoryRecordId) (env : AuthorityEnvelope) (now : TimestampNs) (d : Directory) :
    MapsKept d (updateEvidence write id env now d).2 :=
  updateEvidence_keeps (P := MapsKept d) (.refl d) (fun _ _ => ⟨rfl, rfl, rfl, rfl, rfl⟩)
    fun _ _ _ => ⟨rfl, rfl, rfl, rfl, rfl⟩

theorem mapsKept_updateLifecycle (id : DirectoryRecordId) (s : LifecycleState)
    (env : AuthorityEnvelope) (now : TimestampNs) (d : Directory) :
    MapsKept d (d.updateLifecycle id s env now).2 :=
  updateLifecycle_keeps (P := MapsKept d) (.refl d) fun _ _ => ⟨rfl, rfl, rfl, rfl, rfl⟩

theorem mapsKept_updateCache {write : CacheDescriptor → CacheDescriptor}
    (hwrite : ∀ c, (write c).cacheId = c.cacheId) (id : CacheId) (env : AuthorityEnvelope)
    (d : Directory) : MapsKept d (updateCache write hwrite id env d).2 :=
  updateCache_keeps (P := MapsKept d) (.refl d) ⟨List.length_map _, rfl, rfl, rfl, rfl⟩

theorem mapsKept_onWorkerLoss (boot : WorkerBootId) (reason : Bytes) (d : Directory) :
    MapsKept d (d.onWorkerLoss boot reason).2 := by
  unfold onWorkerLoss
  split
  · exact .refl d
  · exact ⟨List.length_map _, List.length_map _, rfl,
      map_adjust_leases (fun _ => rfl), rfl⟩

theorem mapsKept_leaseAt {d : Directory} {id : LeaseId} {f : LeaseDescriptor → LeaseDescriptor}
    {hf : ∀ l, (f l).leaseId = l.leaseId}
    (h : ∀ l, ((f l).leaseId, (f l).holder) = (l.leaseId, l.holder)) :
    MapsKept d (leaseAt d id f hf) :=
  ⟨rfl, rfl, rfl, map_adjust_leases h, rfl⟩

theorem mapsKept_renewLease (id : LeaseId) (env : AuthorityEnvelope) (now : TimestampNs)
    (d : Directory) : MapsKept d (d.renewLease id env now).2 :=
  renewLease_keeps (P := MapsKept d) (.refl d) (mapsKept_leaseAt fun _ => rfl)

theorem mapsKept_expireLease (id : LeaseId) (env : AuthorityEnvelope) (reason : Bytes)
    (d : Directory) : MapsKept d (d.expireLease id env reason).2 :=
  expireLease_keeps (P := MapsKept d) (.refl d) (mapsKept_leaseAt fun _ => rfl)

theorem mapsKept_revokeLease (id : LeaseId) (env : AuthorityEnvelope) (reason : Bytes)
    (d : Directory) : MapsKept d (d.revokeLease id env reason).2 :=
  revokeLease_keeps (P := MapsKept d) (.refl d) (mapsKept_leaseAt fun _ => rfl)

theorem mapsKept_registerEntry (record : DirectoryRecord) (clk : Nat → TimestampNs)
    (d : Directory) : MapsKept d (d.registerEntry record clk).2 :=
  commit_keeps (P := MapsKept d) (.refl d) fun _ => ⟨rfl, rfl, rfl, rfl, rfl⟩

end Maps

/-- The operations that add to a map or to the tombstones. -/
def Operation.addsEntries : Operation → Bool
  | .registerCache _ => true
  | .registerLocation _ => true
  | .registerReplica _ => true
  | .registerLease _ => true
  | .tombstone _ => true
  | .recoverFromBuffer _ => true
  | _ => false

/-- **Every other operation keeps the keys of the maps and the tombstones.** -/
theorem mapsKept_step (F : Type) [ScoreArith F] {op : Operation} (hop : op.addsEntries = false)
    (d : Directory) : MapsKept d (op.step F d) := by
  cases op with
  | registerCache cache => cases hop
  | registerLocation loc => cases hop
  | registerReplica replica => cases hop
  | registerLease lease => cases hop
  | tombstone t => cases hop
  | recoverFromBuffer buf => cases hop
  | registerWorkerSession session => exact MapsKept.guarded ⟨rfl, rfl, rfl, rfl, rfl⟩
  | onWorkerLoss boot reason => exact mapsKept_onWorkerLoss boot reason d
  | registerEntry record clk => exact mapsKept_registerEntry record clk d
  | updateHealth id h env now => exact mapsKept_updateEvidence _ id env now d
  | updateFreshness id f env now => exact mapsKept_updateEvidence _ id env now d
  | updateReachability id reach env now => exact mapsKept_updateEvidence _ id env now d
  | updateIntegrity id integ env now => exact mapsKept_updateEvidence _ id env now d
  | updateLifecycle id s env now => exact mapsKept_updateLifecycle id s env now d
  | updateCacheHealth id h reach env => exact mapsKept_updateCache _ id env d
  | updateCacheCapacity id capacity free env => exact mapsKept_updateCache _ id env d
  | renewLease id env now => exact mapsKept_renewLease id env now d
  | expireLease id env reason => exact mapsKept_expireLease id env reason d
  | revokeLease id env reason => exact mapsKept_revokeLease id env reason d
  | invalidateState s g env reason clk => exact MapsKept.guarded ⟨rfl, rfl, rfl, rfl, rfl⟩
  | invalidateLocation loc env reason clk =>
      exact MapsKept.guarded ⟨rfl, List.length_map _, rfl, rfl, rfl⟩
  | invalidateReplica rep env reason clk => exact MapsKept.guarded ⟨rfl, rfl, rfl, rfl, rfl⟩
  | invalidateCache c env reason clk =>
      exact MapsKept.guarded ⟨List.length_map _, rfl, rfl, rfl, rfl⟩
  | invalidateWorkerBoot b env reason clk => exact MapsKept.guarded ⟨rfl, rfl, rfl, rfl, rfl⟩
  | query order q =>
      have h := mapsKept_ensureIndexes d
      exact ⟨h.caches, h.locations, h.replicas, h.leases, h.tombstones⟩
  | setRankingPolicy p => exact ⟨rfl, rfl, rfl, rfl, rfl⟩
  | validateIndexes =>
      have h := mapsKept_ensureIndexes d
      exact guarded_keeps (P := MapsKept d) h fun _ => h
  | indexes => exact mapsKept_ensureIndexes d
  | nextObjectId => exact ⟨rfl, rfl, rfl, rfl, rfl⟩

/-! ## 7. The counter, the leases, the tombstones -/

/-- The operations that write leases. -/
def Operation.onLeases : Operation → Bool
  | .onWorkerLoss _ _ => true
  | .registerLease _ => true
  | .renewLease _ _ _ => true
  | .expireLease _ _ _ => true
  | .revokeLease _ _ _ => true
  | .recoverFromBuffer _ => true
  | _ => false

/-- The operations that write the list of tombstones. -/
def Operation.onTombstones : Operation → Bool
  | .tombstone _ => true
  | .recoverFromBuffer _ => true
  | _ => false

/-- What a step that commits nothing and recovers nothing leaves of the rest. -/
structure RestKept (op : Operation) (d d' : Directory) : Prop where
  directoryGeneration : d'.directoryGeneration = d.directoryGeneration
  leases : op.onLeases = false → d'.leases = d.leases
  tombstones : op.onTombstones = false → d'.tombstones = d.tombstones

namespace RestKept

variable {op : Operation} {d d' : Directory}

theorem of_same (hg : d'.directoryGeneration = d.directoryGeneration) (hl : d'.leases = d.leases)
    (ht : d'.tombstones = d.tombstones) : RestKept op d d' := ⟨hg, fun _ => hl, fun _ => ht⟩

theorem refl (op : Operation) (d : Directory) : RestKept op d d := .of_same rfl rfl rfl

theorem guarded {ε α : Type} {checks : List (Bool × ε)} {act : α × Directory}
    (h : RestKept op d act.2) : RestKept op d (Library.guarded checks d act).2 :=
  guarded_keeps (P := RestKept op d) (refl op d) fun _ => h

theorem ensureIndexes (op : Operation) (d : Directory) : RestKept op d d.ensureIndexes := by
  unfold Directory.ensureIndexes
  split
  · exact refl op d
  · exact .of_same rfl rfl rfl

theorem updateEvidence {write : DirectoryRecord → DirectoryRecord} {id : DirectoryRecordId}
    {env : AuthorityEnvelope} {now : TimestampNs} :
    RestKept op d (Directory.updateEvidence write id env now d).2 :=
  updateEvidence_keeps (P := RestKept op d) (refl op d) (fun _ _ => .of_same rfl rfl rfl)
    fun _ _ _ => .of_same rfl rfl rfl

/-- A step of a lease leaves the counter and the tombstones. -/
theorem leaseAt {id : LeaseId} {f : LeaseDescriptor → LeaseDescriptor}
    {hf : ∀ l, (f l).leaseId = l.leaseId} (hop : op.onLeases = true) :
    RestKept op d (CacheDirectory.leaseAt d id f hf) :=
  ⟨rfl, fun h => absurd (hop.symm.trans h) Bool.true_eq_false.mp, fun _ => rfl⟩

end RestKept

/-- **Every operation but `register_entry` and recovery** leaves the generation of the directory,
    and writes leases and tombstones only if it is one of those that do. -/
theorem restKept_step (F : Type) [ScoreArith F] {op : Operation} (hop : op.addsRecords = false)
    (d : Directory) : RestKept op d (op.step F d) := by
  cases op with
  | registerEntry record clk => cases hop
  | recoverFromBuffer buf => cases hop
  | onWorkerLoss boot reason =>
      show RestKept _ d (d.onWorkerLoss boot reason).2
      unfold Directory.onWorkerLoss
      split
      · exact .refl _ d
      · exact ⟨rfl, fun h => absurd h Bool.noConfusion, fun _ => rfl⟩
  | registerLease lease =>
      exact RestKept.guarded ⟨rfl, fun h => absurd h Bool.noConfusion, fun _ => rfl⟩
  | tombstone t => exact RestKept.guarded ⟨rfl, fun _ => rfl, fun h => absurd h Bool.noConfusion⟩
  | updateHealth id h env now => exact RestKept.updateEvidence
  | updateFreshness id f env now => exact RestKept.updateEvidence
  | updateReachability id reach env now => exact RestKept.updateEvidence
  | updateIntegrity id integ env now => exact RestKept.updateEvidence
  | updateLifecycle id s env now =>
      exact updateLifecycle_keeps (P := RestKept _ d) (.refl _ d) fun _ _ => .of_same rfl rfl rfl
  | updateCacheHealth id h reach env =>
      exact updateCache_keeps (P := RestKept _ d) (.refl _ d) (.of_same rfl rfl rfl)
  | updateCacheCapacity id capacity free env =>
      exact updateCache_keeps (P := RestKept _ d) (.refl _ d) (.of_same rfl rfl rfl)
  | renewLease id env now =>
      exact renewLease_keeps (P := RestKept _ d) (.refl _ d) (.leaseAt rfl)
  | expireLease id env reason =>
      exact expireLease_keeps (P := RestKept _ d) (.refl _ d) (.leaseAt rfl)
  | revokeLease id env reason =>
      exact revokeLease_keeps (P := RestKept _ d) (.refl _ d) (.leaseAt rfl)
  | query order q =>
      have h := RestKept.ensureIndexes (.query order q) d
      exact ⟨h.directoryGeneration, h.leases, h.tombstones⟩
  | indexes => exact RestKept.ensureIndexes _ d
  | validateIndexes =>
      have h := RestKept.ensureIndexes .validateIndexes d
      exact guarded_keeps (P := RestKept _ d) h fun _ => h
  | setRankingPolicy p => exact .of_same rfl rfl rfl
  | nextObjectId => exact .of_same rfl rfl rfl
  | _ => exact RestKept.guarded (.of_same rfl rfl rfl)

/-! ## 8. Caches and locations -/

/-- The operations that write descriptors of caches or locations. -/
def Operation.onDescriptors : Operation → Bool
  | .onWorkerLoss _ _ => true
  | .registerCache _ => true
  | .registerLocation _ => true
  | .updateCacheHealth _ _ _ _ => true
  | .updateCacheCapacity _ _ _ _ => true
  | .invalidateLocation _ _ _ _ => true
  | .invalidateCache _ _ _ _ => true
  | .recoverFromBuffer _ => true
  | _ => false

/-- Caches and locations before and after a step. -/
structure DescriptorsKept (d d' : Directory) : Prop where
  caches : d'.caches = d.caches
  locations : d'.locations = d.locations

namespace DescriptorsKept

variable {d : Directory}

theorem refl (d : Directory) : DescriptorsKept d d := ⟨rfl, rfl⟩

theorem guarded {ε α : Type} {checks : List (Bool × ε)} {act : α × Directory}
    (h : DescriptorsKept d act.2) : DescriptorsKept d (Library.guarded checks d act).2 :=
  guarded_keeps (P := DescriptorsKept d) (refl d) fun _ => h

theorem ensureIndexes (d : Directory) : DescriptorsKept d d.ensureIndexes := by
  unfold Directory.ensureIndexes
  split
  · exact refl d
  · exact ⟨rfl, rfl⟩

theorem registerEntry (record : DirectoryRecord) (clk : Nat → TimestampNs) (d : Directory) :
    DescriptorsKept d (d.registerEntry record clk).2 :=
  commit_keeps (P := DescriptorsKept d) (refl d) fun _ => ⟨rfl, rfl⟩

theorem updateEvidence {write : DirectoryRecord → DirectoryRecord} {id : DirectoryRecordId}
    {env : AuthorityEnvelope} {now : TimestampNs} :
    DescriptorsKept d (Directory.updateEvidence write id env now d).2 :=
  updateEvidence_keeps (P := DescriptorsKept d) (refl d) (fun _ _ => ⟨rfl, rfl⟩)
    fun _ _ _ => ⟨rfl, rfl⟩

end DescriptorsKept

/-- **No other operation writes a descriptor.** -/
theorem descriptorsKept_step (F : Type) [ScoreArith F] {op : Operation}
    (hop : op.onDescriptors = false) (d : Directory) : DescriptorsKept d (op.step F d) := by
  cases op with
  | onWorkerLoss boot reason => cases hop
  | registerCache cache => cases hop
  | registerLocation loc => cases hop
  | updateCacheHealth id h reach env => cases hop
  | updateCacheCapacity id capacity free env => cases hop
  | invalidateLocation loc env reason clk => cases hop
  | invalidateCache c env reason clk => cases hop
  | recoverFromBuffer buf => cases hop
  | registerEntry record clk => exact DescriptorsKept.registerEntry record clk d
  | updateHealth id h env now => exact DescriptorsKept.updateEvidence
  | updateFreshness id f env now => exact DescriptorsKept.updateEvidence
  | updateReachability id reach env now => exact DescriptorsKept.updateEvidence
  | updateIntegrity id integ env now => exact DescriptorsKept.updateEvidence
  | updateLifecycle id s env now =>
      exact updateLifecycle_keeps (P := DescriptorsKept d) (.refl d) fun _ _ => ⟨rfl, rfl⟩
  | renewLease id env now =>
      exact renewLease_keeps (P := DescriptorsKept d) (.refl d) ⟨rfl, rfl⟩
  | expireLease id env reason =>
      exact expireLease_keeps (P := DescriptorsKept d) (.refl d) ⟨rfl, rfl⟩
  | revokeLease id env reason =>
      exact revokeLease_keeps (P := DescriptorsKept d) (.refl d) ⟨rfl, rfl⟩
  | query order q =>
      have h := DescriptorsKept.ensureIndexes d
      exact ⟨h.caches, h.locations⟩
  | indexes => exact DescriptorsKept.ensureIndexes d
  | validateIndexes =>
      have h := DescriptorsKept.ensureIndexes d
      exact guarded_keeps (P := DescriptorsKept d) h fun _ => h
  | setRankingPolicy p => exact ⟨rfl, rfl⟩
  | nextObjectId => exact ⟨rfl, rfl⟩
  | _ => exact DescriptorsKept.guarded ⟨rfl, rfl⟩

end CacheDirectory
