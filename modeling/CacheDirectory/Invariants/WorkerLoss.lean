/-
  File:      CacheDirectory/Invariants/WorkerLoss.lean
  Subject:   THE LOSS OF A WORKER.

  Connections close in any order, and each closure rewrites five containers and counts again. What
  the loss of a boot edits is the boot's own and stays it, so losses touch disjoint parts and the
  count at the end sees the same whole.

  * `markLost`, `onWorkerLoss_live` -- the edits of a loss, in front of the count;
  * `ChangesOnly`, `changesOnly_onWorkerLoss` -- the frame;
  * `Ended`, `ended_onWorkerLoss` -- what holds of the lost boot;
  * `markLost_comm`, `onWorkerLoss_comm` -- the order of two losses;
  * `worker_loss` -- all four of every directory.
-/
import CacheDirectory.Invariants.Descriptors
import CacheDirectory.Invariants.Edits

namespace CacheDirectory

open Library Directory

/-! ## 1. The edits -/

/-- The session that has ended. -/
def endSession (w : WorkerSession) : WorkerSession :=
  { w with live := false, sourceAuthority := w.sourceAuthority + 1 }

/-- The lease that is no longer held. -/
def demote (l : LeaseDescriptor) : LeaseDescriptor := { l with state := .revalidationRequired }

theorem boot_endSession (w : WorkerSession) : (endSession w).boot = w.boot := rfl

theorem leaseId_demote (l : LeaseDescriptor) : (demote l).leaseId = l.leaseId := rfl

/-- What the loss of a live boot edits. -/
def Directory.markLost (b : WorkerBootId) (d : Directory) : Directory :=
  { d with
    workers := d.workers.adjust (fun w => w.boot == b) endSession boot_endSession
    records := d.records.map fun r => if r.workerBoot == b then loseRecord r else r
    locations := d.locations.adjust (fun l => l.workerBoot == b) loseLocation
      locationId_loseLocation
    caches := d.caches.adjust (fun c => c.workerBoot == b) loseCache cacheId_loseCache
    leases := d.leases.adjust (fun l => l.holder == b) demote leaseId_demote
    indexesDirty := true }

section Loss

variable {d : Directory} {b : WorkerBootId}

/-- The loss of a live boot: the edits, and the count. -/
theorem onWorkerLoss_live (reason : Bytes) (hlive : d.workerLive b = true) :
    (d.onWorkerLoss b reason).2 = (d.markLost b).recomputeAccounting := by
  unfold onWorkerLoss
  rw [hlive]
  rfl

theorem workerBoot_loseRecord (r : DirectoryRecord) :
    (loseRecord r).workerBoot = r.workerBoot := by
  unfold loseRecord
  split
  · rfl
  · rfl

/-! ## 2. The frame -/

/-- Only what belongs to the boot differs, and what is derived: the counters of what there is, and
    the flag of the index. -/
structure ChangesOnly (b : WorkerBootId) (d d' : Directory) : Prop where
  workers : KeyedMap.SameBut (fun w => w.boot = b) d.workers d'.workers
  records : List.Forall₂ (fun r r' => r' = r ∨ r.workerBoot = b ∧ r'.workerBoot = b)
    d.records d'.records
  locations : KeyedMap.SameBut (fun l => l.workerBoot = b) d.locations d'.locations
  caches : KeyedMap.SameBut (fun c => c.workerBoot = b) d.caches d'.caches
  leases : KeyedMap.SameBut (fun l => l.holder = b) d.leases d'.leases
  rest : d' = { d with
    workers := d'.workers
    records := d'.records
    locations := d'.locations
    caches := d'.caches
    leases := d'.leases
    accounting := d'.accounting
    indexesDirty := d'.indexesDirty }
  derived : d' = d ∨ d'.indexesDirty = true ∧
    d'.accounting = { d' with accounting := d.accounting }.recomputeAccounting.accounting

theorem ChangesOnly.refl (b : WorkerBootId) (d : Directory) : ChangesOnly b d d where
  workers := .refl _ _
  records := forall₂_refl (fun _ => .inl rfl) _
  locations := .refl _ _
  caches := .refl _ _
  leases := .refl _ _
  rest := rfl
  derived := .inl rfl

/-- **A loss changes what belongs to the boot only.** -/
theorem changesOnly_onWorkerLoss (d : Directory) (b : WorkerBootId) (reason : Bytes) :
    ChangesOnly b d (d.onWorkerLoss b reason).2 := by
  by_cases hlive : d.workerLive b = true
  · rw [onWorkerLoss_live reason hlive]
    refine
      { workers := ?_
        records := forall₂_map_self (fun r => ?_) _
        locations := ?_
        caches := ?_
        leases := ?_
        rest := rfl
        derived := .inr ⟨rfl, rfl⟩ }
    · exact d.workers.sameBut_adjust boot_endSession fun w hw =>
        ⟨beq_iff_eq.mp hw, beq_iff_eq.mp hw⟩
    · split
      · next hboot =>
          have hboot := beq_iff_eq.mp hboot
          exact .inr ⟨hboot, (workerBoot_loseRecord r).trans hboot⟩
      · exact .inl rfl
    · exact d.locations.sameBut_adjust locationId_loseLocation fun l hl =>
        ⟨beq_iff_eq.mp hl, beq_iff_eq.mp hl⟩
    · exact d.caches.sameBut_adjust cacheId_loseCache fun c hc =>
        ⟨beq_iff_eq.mp hc, beq_iff_eq.mp hc⟩
    · exact d.leases.sameBut_adjust leaseId_demote fun l hl =>
        ⟨beq_iff_eq.mp hl, beq_iff_eq.mp hl⟩
  · rw [onWorkerLoss_idle hlive]
    exact .refl b d

/-! ## 3. What has ended -/

/-- Nothing of the boot counts as current, reachable, available or held. -/
structure Ended (b : WorkerBootId) (d : Directory) : Prop where
  records : ∀ r ∈ d.records, r.workerBoot = b →
    r.freshness ≠ .current ∧ r.reachability ≠ .reachable ∧ r.lifecycle ≠ .available
  locations : ∀ l ∈ d.locations.values, l.workerBoot = b →
    l.freshness ≠ .current ∧ l.reachability ≠ .reachable
  leases : ∀ l ∈ d.leases.values, l.holder = b → l.state ≠ .active

theorem ended_loseRecord (r : DirectoryRecord) : (loseRecord r).freshness ≠ .current ∧
    (loseRecord r).reachability ≠ .reachable ∧ (loseRecord r).lifecycle ≠ .available := by
  unfold loseRecord
  split
  · exact ⟨by simp, by simp, by simp⟩
  · exact ⟨by simp, by simp, by simp⟩

/-- **Of a boot that was live nothing is left behind its loss.** -/
theorem ended_onWorkerLoss (reason : Bytes) (hlive : d.workerLive b = true) :
    Ended b (d.onWorkerLoss b reason).2 := by
  rw [onWorkerLoss_live reason hlive]
  refine ⟨fun r hr hboot => ?_, fun l hl hboot => ?_, fun l hl hholder => ?_⟩
  · have hr : r ∈ d.records.map fun r => if r.workerBoot == b then loseRecord r else r := hr
    obtain ⟨x, _, rfl⟩ := KeyedMap.edited_of_due hr (beq_iff_eq.mpr hboot)
    exact ended_loseRecord x
  · have hl : l ∈ d.locations.values.map fun l =>
        if l.workerBoot == b then loseLocation l else l := hl
    obtain ⟨x, _, rfl⟩ := KeyedMap.edited_of_due hl (beq_iff_eq.mpr hboot)
    exact ⟨by simp [loseLocation], by simp [loseLocation]⟩
  · have hl : l ∈ d.leases.values.map fun l => if l.holder == b then demote l else l := hl
    obtain ⟨x, _, rfl⟩ := KeyedMap.edited_of_due hl (beq_iff_eq.mpr hholder)
    simp [demote]

/-! ## 4. Two losses -/

/-- The second loss of a boot changes nothing. -/
theorem onWorkerLoss_idem (d : Directory) (b : WorkerBootId) (reason reason' : Bytes) :
    ((d.onWorkerLoss b reason).2.onWorkerLoss b reason').2 = (d.onWorkerLoss b reason).2 :=
  onWorkerLoss_idle fun h => ((workerLive_lost b reason).mp h).2 rfl

/-- Different boots own different things. -/
theorem beq_disjoint {b b' : WorkerBootId} (hne : b ≠ b') (x : WorkerBootId) (h : (x == b) = true) :
    (x == b') = false := by
  rw [beq_iff_eq] at h
  rw [h, beq_eq_false_iff_ne]
  exact hne

/-- **The edits of two losses commute.** -/
theorem markLost_comm {b' : WorkerBootId} (hne : b ≠ b') (d : Directory) :
    (d.markLost b).markLost b' = (d.markLost b').markLost b := by
  have hrecords : ((d.markLost b).markLost b').records = ((d.markLost b').markLost b).records := by
    show (d.records.map _).map _ = (d.records.map _).map _
    rw [List.map_map, List.map_map]
    refine List.map_congr_left fun r _ => ?_
    exact KeyedMap.edits_comm (fun r => beq_disjoint hne r.workerBoot)
      (fun r => by rw [workerBoot_loseRecord]) (fun r => by rw [workerBoot_loseRecord]) r
  have hworkers : ((d.markLost b).markLost b').workers = ((d.markLost b').markLost b).workers :=
    d.workers.adjust_comm boot_endSession boot_endSession
      (fun w => beq_disjoint hne w.boot) (fun _ => rfl) fun _ => rfl
  have hlocations :
      ((d.markLost b).markLost b').locations = ((d.markLost b').markLost b).locations :=
    d.locations.adjust_comm locationId_loseLocation locationId_loseLocation
      (fun l => beq_disjoint hne l.workerBoot) (fun _ => rfl) fun _ => rfl
  have hcaches : ((d.markLost b).markLost b').caches = ((d.markLost b').markLost b).caches :=
    d.caches.adjust_comm cacheId_loseCache cacheId_loseCache
      (fun c => beq_disjoint hne c.workerBoot) (fun _ => rfl) fun _ => rfl
  have hleases : ((d.markLost b).markLost b').leases = ((d.markLost b').markLost b).leases :=
    d.leases.adjust_comm leaseId_demote leaseId_demote
      (fun l => beq_disjoint hne l.holder) (fun _ => rfl) fun _ => rfl
  show ({ d with
      workers := ((d.markLost b).markLost b').workers
      records := ((d.markLost b).markLost b').records
      locations := ((d.markLost b).markLost b').locations
      caches := ((d.markLost b).markLost b').caches
      leases := ((d.markLost b).markLost b').leases
      indexesDirty := true } : Directory) = _
  rw [hworkers, hrecords, hlocations, hcaches, hleases]
  rfl

/-- One count at the end is enough. -/
theorem recomputeAccounting_markLost (d : Directory) (b : WorkerBootId) :
    (d.recomputeAccounting.markLost b).recomputeAccounting =
      (d.markLost b).recomputeAccounting := rfl

/-- **The order of two losses does not matter.** -/
theorem onWorkerLoss_comm (d : Directory) (b b' : WorkerBootId) (reason reason' : Bytes) :
    ((d.onWorkerLoss b reason).2.onWorkerLoss b' reason').2 =
      ((d.onWorkerLoss b' reason').2.onWorkerLoss b reason).2 := by
  by_cases hne : b = b'
  · rw [hne]
    rfl
  have hstill {x y : WorkerBootId} (hxy : x ≠ y) (s : Bytes) :
      (d.onWorkerLoss y s).2.workerLive x = true ↔ d.workerLive x = true := by
    rw [workerLive_lost, and_iff_left hxy]
  by_cases hb : d.workerLive b = true
  · by_cases hb' : d.workerLive b' = true
    · rw [onWorkerLoss_live reason' ((hstill (Ne.symm hne) reason).mpr hb'),
        onWorkerLoss_live reason ((hstill hne reason').mpr hb), onWorkerLoss_live reason hb,
        onWorkerLoss_live reason' hb', recomputeAccounting_markLost, recomputeAccounting_markLost,
        markLost_comm hne]
    · rw [onWorkerLoss_idle (mt (hstill (Ne.symm hne) reason).mp hb'), onWorkerLoss_idle hb']
  · rw [onWorkerLoss_idle hb, onWorkerLoss_idle (mt (hstill hne reason').mp hb)]

/-- **The loss of a worker is local, idempotent and independent of the order**, and nothing of the
    lost boot counts as usable behind it. In every directory. -/
theorem worker_loss (d : Directory) (b b' : WorkerBootId) (reason reason' : Bytes) :
    ChangesOnly b d (d.onWorkerLoss b reason).2 ∧
      ((d.onWorkerLoss b reason).2.onWorkerLoss b reason').2 = (d.onWorkerLoss b reason).2 ∧
      (d.workerLive b = true → Ended b (d.onWorkerLoss b reason).2) ∧
      ((d.onWorkerLoss b reason).2.onWorkerLoss b' reason').2 =
        ((d.onWorkerLoss b' reason').2.onWorkerLoss b reason).2 :=
  ⟨changesOnly_onWorkerLoss d b reason, onWorkerLoss_idem d b reason reason',
    ended_onWorkerLoss reason, onWorkerLoss_comm d b b' reason reason'⟩

theorem worker_loss_afterRegistration :
    Ended ⟨1⟩ (afterRegistration.onWorkerLoss ⟨1⟩ []).2 :=
  (worker_loss afterRegistration ⟨1⟩ ⟨2⟩ [] []).2.2.1 (by decide +kernel)

end Loss

end CacheDirectory
