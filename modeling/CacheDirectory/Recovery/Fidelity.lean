/-
  File:      CacheDirectory/Recovery/Fidelity.lean
  Subject:   A SNAPSHOT RECOVERS EXACTLY WHAT WAS SAVED.

  * `recover_saved`, `recover_saved_iff` -- recovering a snapshot of `d` succeeds exactly when
    counts and strings are within the limits and `d` is sound, whatever directory it is
    recovered into;
  * `restoredRecord`, `restoredLocation`, `restoredLease` -- the documented transformation;
  * `snapshot_fidelity` -- the recovered directory holds the saved one's canonical content under
    that transformation, whatever order the maps were written in.
-/
import CacheDirectory.Invariants.Failures
import CacheDirectory.Recovery.RoundTrip

namespace CacheDirectory

open Library Directory

/-! ## 1. When a snapshot is accepted -/

section Accepted

variable {o : MapOrders} {d : Directory}

theorem perm_map_order {α κ : Type} {e : Enumeration α} {l : List α} {key : α → κ} :
    ((e.order l).map key).Nodup ↔ (l.map key).Nodup :=
  ((e.perm l).map key).nodup_iff

theorem noRegression_map {f : DirectoryRecord → DirectoryRecord}
    (hf : ∀ r, (f r).current = r.current ∧ (f r).stateId = r.stateId ∧
      (f r).stateGeneration = r.stateGeneration) {records : List DirectoryRecord} :
    NoRegression (records.map f) ↔ NoRegression records := by
  unfold NoRegression
  simp only [List.forall_mem_map, (hf _).1, (hf _).2.1, (hf _).2.2]

/-- The snapshot is sound when the directory is. -/
theorem sound_snapshotOf : (d.snapshotOf o).Sound ↔ d.Sound := by
  have hrec : (d.snapshotOf o).records.map (·.recordId) = d.records.map (·.recordId) :=
    List.map_map
  have hloc : (d.snapshotOf o).locations.map (·.locationId) =
      (o.locations.order d.locations.values).map (·.locationId) :=
    List.map_map
  have hgen : NoRegression (d.snapshotOf o).records ↔ NoRegression d.records :=
    noRegression_map (f := recordAsRead {}) fun _ => ⟨rfl, rfl, rfl⟩
  constructor
  · intro h
    refine ⟨hrec ▸ h.recordIds, d.caches.nodup, d.locations.nodup, d.replicas.nodup,
      d.leases.nodup, h.tombstoneIds, h.observationIds, fun r hr => ?_, h.tombstones,
      fun l hl => ?_, hgen.mp h.generations⟩
    · exact h.identities (recordAsRead {} r) (List.mem_map_of_mem hr)
    · exact h.leases l ((o.leases.perm _).mem_iff.mpr hl)
  · intro h
    refine ⟨hrec ▸ h.recordIds, perm_map_order.mpr d.caches.nodup, ?_,
      perm_map_order.mpr d.replicas.nodup, perm_map_order.mpr d.leases.nodup, h.tombstoneIds,
      h.observationIds, fun r hr => ?_, h.tombstones, fun l hl => ?_, hgen.mpr h.generations⟩
    · rw [hloc]
      exact perm_map_order.mpr d.locations.nodup
    · obtain ⟨x, hx, rfl⟩ := List.mem_map.mp hr
      exact h.identities x hx
    · exact h.leases l ((o.leases.perm _).mem_iff.mp hl)

/-- Everything recovery asks of a snapshot, said of the directory it was taken of. -/
@[mk_iff] structure Directory.Restartable (d : Directory) : Prop where
  counts : d.CountsFit
  strings : d.StringsFit
  sound : d.Sound

instance (d : Directory) : Decidable d.Restartable := decidable_of_iff _ d.restartable_iff.symm

theorem recover_saved (h : d.Restartable) (t : Directory) :
    ∃ ack, t.recoverFromBuffer (d.saveToBuffer o).2 =
      some (.ok ack, t.install (d.snapshotOf o)) := by
  have hparse := (parseSnapshot_saved (o := o) (sizesFit_of_limits h.counts h.strings)).1
    ⟨h.counts, h.strings⟩
  unfold Directory.recoverFromBuffer
  rw [hparse]
  simp only [problem_eq_none.mpr (sound_snapshotOf.mpr h.sound)]
  exact ⟨_, rfl⟩

theorem restartable_of_recovered (hfit : d.SizesFit) {t t' : Directory} {ack : AckResult}
    (h : t.recoverFromBuffer (d.saveToBuffer o).2 = some (.ok ack, t')) :
    d.Restartable ∧ t' = t.install (d.snapshotOf o) := by
  obtain ⟨hok, hno⟩ := parseSnapshot_saved (o := o) hfit
  by_cases hlim : d.CountsFit ∧ d.StringsFit
  · rcases recoverFromBuffer_cases (d.saveToBuffer o).2 t with ⟨f, hf⟩ | ⟨s, ack', hp, hprob, hrec⟩
    · rw [hf] at h
      cases h
    · rw [hok hlim] at hp
      cases hp
      rw [hrec] at h
      cases h
      exact ⟨⟨hlim.1, hlim.2, sound_snapshotOf.mp (problem_eq_none.mp hprob)⟩, rfl⟩
  · obtain ⟨f, hf⟩ := hno hlim
    unfold Directory.recoverFromBuffer at h
    rw [hf] at h
    cases h

/-- **A snapshot is accepted exactly when its directory can be restarted from.** -/
theorem recover_saved_iff (hfit : d.SizesFit) (t : Directory) :
    (∃ ack t', t.recoverFromBuffer (d.saveToBuffer o).2 = some (.ok ack, t')) ↔
      d.Restartable := by
  constructor
  · intro h
    obtain ⟨ack, t', h⟩ := h
    exact (restartable_of_recovered hfit h).1
  · intro h
    obtain ⟨ack, hrec⟩ := recover_saved (o := o) h t
    exact ⟨ack, _, hrec⟩

/-- Recovery of a snapshot as a step: nothing happens, or the saved directory was fit and its
    snapshot is installed. -/
theorem step_recover_saved (F : Type) [ScoreArith F] (hfit : d.SizesFit) (t : Directory) :
    (Operation.recoverFromBuffer (d.saveToBuffer o).2).step F t = t ∨
      (d.Restartable ∧
        (Operation.recoverFromBuffer (d.saveToBuffer o).2).step F t =
          t.install (d.snapshotOf o)) := by
  rcases recoverFromBuffer_cases (d.saveToBuffer o).2 t with ⟨f, hrec⟩ | ⟨s, ack, _, _, hrec⟩
  · exact .inl (step_of_recovered F hrec)
  · obtain ⟨hres, hinst⟩ := restartable_of_recovered hfit hrec
    exact .inr ⟨hres, (step_of_recovered F hrec).trans hinst⟩

end Accepted

/-- **The rule for runs with recovery of own snapshots.** -/
theorem ownReached_keeps {F : Type} [ScoreArith F] {Inv : Directory → Prop} (hstart : Inv {})
    (hstep : ∀ (op : Operation) (d : Directory), op.isRecovery = false → Inv d →
      Inv (op.step F d))
    (hinst : ∀ {d : Directory}, Inv d → ∀ (o : MapOrders) (t : Directory),
      Inv (t.install (d.snapshotOf o)))
    {d : Directory} (hd : OwnReached F d) : Inv d := by
  refine ownReached_invariant Inv hstart hstep (fun t d o ht h hfit => ?_) hd
  rcases step_recover_saved F (o := o) hfit t with hsame | ⟨_, hnew⟩
  · rw [hsame]
    exact ht
  · rw [hnew]
    exact hinst h o t

/-! ## 2. The documented transformation -/

/-- A record under recovery: its evidence is devalued, an unknown digest and an absent lease come
    back as defaults, lifecycle and semantic digest are computed anew. -/
def restoredRecord (r : DirectoryRecord) : DirectoryRecord :=
  let r' : DirectoryRecord :=
    { r with
      contentDigest := if r.contentDigestKnown then r.contentDigest else Digest.Sha256.zero
      lease := if r.hasLease then r.lease else {}
      freshness := if isProcessLocal r.domain then .revalidationRequired else .stale
      reachability := .revalidationRequired }
  { r' with
    lifecycle := if r.integrity == .corrupt then .failed else .stale
    semanticDigest := semanticDigestOf r' }

def restoredLocation (l : LocationDescriptor) : LocationDescriptor :=
  { l with
    contentDigest := if l.contentDigestKnown then l.contentDigest else Digest.Sha256.zero
    freshness := if isProcessLocal l.domain then .revalidationRequired else .stale
    reachability := .revalidationRequired }

def restoredLease (l : LeaseDescriptor) : LeaseDescriptor :=
  { l with state := .revalidationRequired }

theorem recoverRecord_asRead (r : DirectoryRecord) :
    recoverRecord (recordAsRead {} r) = restoredRecord r := by
  unfold recordAsRead restoredRecord
  cases r.hasLease <;> rfl

theorem recoverLocation_asRead (l : LocationDescriptor) :
    recoverLocation (locationAsRead {} l) = restoredLocation l := rfl

/-! ## 3. Fidelity -/

/-- A map loaded from its own entries, in any order, is the map. -/
theorem find_ofList_order {κ ν : Type} [DecidableEq κ] {key : ν → κ} (m : KeyedMap key)
    (e : Enumeration ν) (k : κ) : (KeyedMap.ofList key (e.order m.values)).find k = m.find k :=
  KeyedMap.find_of_perm
    ((KeyedMap.values_ofList (perm_map_order.mpr m.nodup)).trans (e.perm _)) k

/-- The same when every entry was edited on the way. -/
theorem find_ofList_order_map {κ ν : Type} [DecidableEq κ] {key : ν → κ} (m : KeyedMap key)
    (e : Enumeration ν) (f : ν → ν) (hf : ∀ v, key (f v) = key v) (k : κ) :
    (KeyedMap.ofList key ((e.order m.values).map f)).find k = (m.find k).map f := by
  have hkeys : (((e.order m.values).map f).map key).Nodup := by
    rw [List.map_map, show key ∘ f = key from funext hf]
    exact perm_map_order.mpr m.nodup
  have hperm : (KeyedMap.ofList key ((e.order m.values).map f)).values.Perm
      (m.adjust (fun _ => true) f hf).values := by
    refine (KeyedMap.values_ofList hkeys).trans ?_
    simp only [KeyedMap.adjust, if_true]
    exact (e.perm _).map f
  rw [KeyedMap.find_of_perm hperm, KeyedMap.find_adjust_all]

/-- **Fidelity**: what an accepted snapshot of `d` installs is `d`'s canonical content under the
    documented transformation. -/
theorem snapshot_fidelity (d t t' : Directory) (o : MapOrders) (ack : AckResult)
    (hfit : d.SizesFit)
    (h : t.recoverFromBuffer (d.saveToBuffer o).2 = some (.ok ack, t')) :
    t'.records = d.records.map restoredRecord ∧
      (∀ id, t'.caches.find id = d.caches.find id) ∧
      (∀ id, t'.locations.find id = (d.locations.find id).map restoredLocation) ∧
      (∀ id, t'.replicas.find id = d.replicas.find id) ∧
      (∀ id, t'.leases.find id = (d.leases.find id).map restoredLease) ∧
      t'.tombstones = d.tombstones ∧
      t'.observations = d.observations ∧
      t'.workers.values = [] ∧
      t'.directoryGeneration = d.directoryGeneration ∧
      t'.epoch.value = d.epoch.value + 1 := by
  obtain ⟨_, rfl⟩ := restartable_of_recovered hfit h
  refine ⟨?_, fun id => ?_, fun id => ?_, fun id => ?_, fun id => ?_, rfl, rfl, rfl, rfl, rfl⟩
  · show (d.records.map (recordAsRead {})).map recoverRecord = _
    rw [List.map_map]
    exact List.map_congr_left fun r _ => recoverRecord_asRead r
  · exact find_ofList_order d.caches o.caches id
  · refine (KeyedMap.find_adjust_all _ recoverLocation (fun _ => rfl) id).trans ?_
    refine (congrArg (Option.map recoverLocation) (find_ofList_order_map d.locations o.locations
      (locationAsRead {}) (fun _ => rfl) id)).trans ?_
    rw [Option.map_map]
    exact congrArg (Option.map · _) (funext recoverLocation_asRead)
  · exact find_ofList_order d.replicas o.replicas id
  · refine (KeyedMap.find_adjust_all _ recoverLease (fun _ => rfl) id).trans ?_
    exact congrArg (Option.map recoverLease) (find_ofList_order d.leases o.leases id)

theorem restartable_afterRegistration : afterRegistration.Restartable := by decide +kernel

/-- One of everything: a copy, a lease of its worker, a tombstone over another state. -/
def oneOfEach : List Operation :=
  registeredOnce ++
    [.registerLease
        { leaseId := ⟨1⟩, holder := ⟨1⟩, state := .active, authority := { epoch := ⟨1⟩ } },
      .tombstone { stateTombstone ⟨7⟩ 3 with target := { kind := .state, state := ⟨2⟩ } }]

def furnished : Directory := after (Operation.step Float) {} oneOfEach

theorem snapshot_fidelity_furnished :
    ∃ ack t', Directory.recoverFromBuffer (furnished.saveToBuffer .stored).2 {} =
        some (.ok ack, t') ∧
      t'.records.map (fun r => (r.recordId, r.current, r.freshness, r.lifecycle)) =
        [(⟨1⟩, true, .stale, .stale)] ∧
      (t'.caches.find ⟨1⟩).map (·.workerBoot) = some ⟨1⟩ ∧
      (t'.locations.find ⟨1⟩).map (fun l => (l.workerBoot, l.freshness)) = some (⟨1⟩, .stale) ∧
      (t'.replicas.find ⟨1⟩).map (·.location) = some ⟨1⟩ ∧
      (t'.leases.find ⟨1⟩).map (fun l => (l.holder, l.state)) =
        some (⟨1⟩, .revalidationRequired) ∧
      t'.tombstones.map (·.tombstoneId) = [⟨7⟩] ∧ t'.workers.values = [] ∧
      t'.epoch.value = 2 := by
  have hres : furnished.Restartable := by decide +kernel
  obtain ⟨ack, hrec⟩ := recover_saved (o := .stored) hres {}
  obtain ⟨hrecords, hcaches, hlocations, hreplicas, hleases, htombstones, _, hworkers, _, hepoch⟩ :=
    snapshot_fidelity furnished {} _ .stored ack (sizesFit_of_limits hres.counts hres.strings) hrec
  refine ⟨ack, _, hrec, ?_, ?_, ?_, ?_, ?_, ?_, hworkers, ?_⟩
  · rw [hrecords]
    decide +kernel
  · rw [hcaches]
    decide +kernel
  · rw [hlocations]
    decide +kernel
  · rw [hreplicas]
    decide +kernel
  · rw [hleases]
    decide +kernel
  · rw [htombstones]
    decide +kernel
  · rw [hepoch]
    decide +kernel

end CacheDirectory
