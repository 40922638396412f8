/-
  File:      CacheDirectory/Invariants/TombstoneKinds.lean
  Subject:   WHAT TOMBSTONES OF THE OTHER KINDS DO.

  `covered_by_tombstone` matches thirteen kinds of target. The registration check asks it about
  the target of kind STATE only, and `tombstone` buries records under one of kind STATE only; a
  tombstone of another kind is recorded and acknowledged, and that is all.

  * `rejected_tombstoned_iff` -- when a registration is rejected with TOMBSTONED;
  * `Matches` -- a record and a tombstone of another kind;
  * `respectsTombstones_iff` -- one call keeps current records unmatched exactly when its own
    records and tombstones are;
  * `other_kinds_block_iff` -- both, the second along runs.
-/
import CacheDirectory.Invariants.Edits
import CacheDirectory.Invariants.Tombstones
import CacheDirectory.Recovery.Epochs

namespace CacheDirectory

open Library Directory

/-! ## 1. Rejection -/

/-- Before the tombstone check nothing fails with TOMBSTONED. -/
theorem dependencyChecks_not_tombstoned {d : Directory} {record : DirectoryRecord} {f : Failure}
    (h : firstFailure (d.dependencyChecks record) = some f) : f.error ≠ .tombstoned := by
  have hall : ∀ c ∈ d.dependencyChecks record, c.2.error ≠ .tombstoned := by
    simp [dependencyChecks]
  exact hall (true, f) (mem_of_firstFailure h)

/-- **A registration is rejected with TOMBSTONED exactly when its dependencies are there and a
    tombstone of kind STATE covers it.** -/
theorem rejected_tombstoned_iff {d : Directory} {record : DirectoryRecord}
    {clk : Nat → TimestampNs} :
    (∃ f, (d.registerEntry record clk).1 = .error f ∧ f.error = .tombstoned) ↔
      firstFailure (d.dependencyChecks record) = none ∧
        ∃ t ∈ d.tombstones, t.target.kind = .state ∧ t.target.state = record.stateId ∧
          record.stateGeneration.value ≤ t.target.generationFloor := by
  have hcovered : d.coveredByTombstone (stateTarget record) = true ↔
      ∃ t ∈ d.tombstones, t.target.kind = .state ∧ t.target.state = record.stateId ∧
        record.stateGeneration.value ≤ t.target.generationFloor := by
    unfold coveredByTombstone
    simp only [List.any_eq_true, covers_stateTarget]
  cases hdep : firstFailure (d.dependencyChecks record) with
  | none => rw [registerEntry_tombstoned_iff hdep, hcovered, and_iff_right rfl]
  | some g =>
      refine iff_of_false ?_ fun h => by cases h.1
      intro h
      obtain ⟨f, hf, htomb⟩ := h
      have hcheck : d.checkRegistration record = some g := by
        unfold checkRegistration
        rw [firstFailure_append, hdep]
        rfl
      rw [registerEntry_error, hcheck] at hf
      cases hf
      exact dependencyChecks_not_tombstoned hdep htomb

/-! ## 2. Matching -/

/-- The target of a kind a record makes itself: its own ids, and its own generation of that kind
    where it has one. -/
def ownTarget (kind : TombstoneKind) (r : DirectoryRecord) : TombstoneTarget where
  kind := kind
  state := r.stateId
  cache := r.cache
  entry := r.entry
  replica := r.replica
  location := r.location
  workerBoot := r.workerBoot
  node := r.node
  device := r.device
  compatibility := r.compatibility
  policyGeneration := r.policyGeneration
  content := r.contentDigest
  generationFloor :=
    match kind with
    | .state => r.stateGeneration.value
    | .entry => r.entryGeneration.value
    | .replica => r.replicaGeneration.value
    | .location => r.locationGeneration.value
    | _ => 0

/-- The tombstone is of another kind than STATE, and covers the record by that kind. A record
    names no storage backend. -/
def Matches (t : TombstoneTarget) (r : DirectoryRecord) : Prop :=
  t.kind ≠ .state ∧ t.kind ≠ .backend ∧ covers t (ownTarget t.kind r) = true

/-- No current record matches a recorded tombstone. -/
def Unmatched (tombstones : List TombstoneRecord) (records : List DirectoryRecord) : Prop :=
  ∀ t ∈ tombstones, ∀ r ∈ records, r.current = true → ¬ Matches t.target r

/-- Whether a tombstone matches does not change while the record is kept. -/
theorem Kept.matches_iff {t : TombstoneTarget} {r r' : DirectoryRecord} (h : Kept r r') :
    Matches t r' ↔ Matches t r := by
  have hown : ownTarget t.kind r' = ownTarget t.kind r := by
    show ownTarget t.kind (CacheDirectory.core r') = ownTarget t.kind (CacheDirectory.core r)
    rw [h.core]
  unfold Matches
  rw [hown]

theorem unmatched_of_kept {tombstones : List TombstoneRecord} {l l' : List DirectoryRecord}
    (h : List.Forall₂ Kept l l') (hl : Unmatched tombstones l) : Unmatched tombstones l' := by
  intro t ht r' hr' hcur
  obtain ⟨r, hr, hkept⟩ := exists_of_forall₂ h hr'
  rw [hkept.matches_iff]
  exact hl t ht r hr (hkept.current hcur)

theorem unmatched_append {ts : List TombstoneRecord} {t : TombstoneRecord}
    {l : List DirectoryRecord} :
    Unmatched (ts ++ [t]) l ↔
      Unmatched ts l ∧ ∀ r ∈ l, r.current = true → ¬ Matches t.target r := by
  unfold Unmatched
  simp only [List.forall_mem_append, List.forall_mem_singleton]

theorem unmatched_concat {ts : List TombstoneRecord} {l : List DirectoryRecord}
    {x : DirectoryRecord} (hx : x.current = true) :
    Unmatched ts (l ++ [x]) ↔ Unmatched ts l ∧ ∀ t ∈ ts, ¬ Matches t.target x := by
  unfold Unmatched
  simp only [List.forall_mem_append, List.forall_mem_singleton, hx, true_implies]
  exact forall₂_and

/-! ## 3. One call -/

/-- The call brings no tombstone together with a current record that matches it: a tombstone that
    is accepted finds none, an admitted registration is matched by none on file, and a recovered
    snapshot holds no such pair. -/
def Operation.RespectsTombstones (op : Operation) (d : Directory) : Prop :=
  match op with
  | .tombstone t =>
      t.tombstoneId.isNull = false → t.epoch = d.epoch → d.workerLive t.workerBoot = true →
        ∀ r ∈ d.records, r.current = true → ¬ Matches t.target r
  | .registerEntry record _ =>
      d.checkRegistration record = none → ∀ t ∈ d.tombstones, ¬ Matches t.target record
  | .recoverFromBuffer buf => ∀ s, acceptedSnapshot buf = some s → Unmatched s.tombstones s.records
  | _ => True

section Step

variable {F : Type} [ScoreArith F] {d : Directory}

/-- A tombstone of another kind buries nothing. -/
theorem buried_unmatched {t : TombstoneTarget} {l : List DirectoryRecord} :
    (∀ r ∈ l.map (buryRecord t), r.current = true → ¬ Matches t r) ↔
      ∀ r ∈ l, r.current = true → ¬ Matches t r := by
  by_cases hkind : t.kind = .state
  · exact iff_of_true (fun _ _ _ h => h.1 hkind) fun _ _ _ h => h.1 hkind
  · have hid : l.map (buryRecord t) = l :=
      map_eq_self_iff.mpr fun r _ => if_neg (by simp [hkind])
    rw [hid]

theorem tombstone_accepted {t : TombstoneRecord}
    (h : t.tombstoneId.isNull = false ∧ t.epoch = d.epoch ∧ d.workerLive t.workerBoot = true) :
    (d.tombstone t).2.tombstones = d.tombstones ++ [t] ∧
      (d.tombstone t).2.records = d.records.map (buryRecord t.target) := by
  have hpass : firstFailure
      [(t.tombstoneId.isNull, (⟨.invalidIdentity, "empty TombstoneId"⟩ : Failure)),
        (t.epoch != d.epoch, ⟨.staleEpoch, "stale epoch"⟩),
        (!d.workerLive t.workerBoot, ⟨.noAuthority, "tombstone author not live"⟩)] = none := by
    rw [firstFailure_eq_none]
    simpa using h
  unfold tombstone
  rw [guarded_of_none hpass]
  exact ⟨rfl, rfl⟩

/-- **One call keeps current records unmatched exactly when it respects the tombstones.** -/
theorem respectsTombstones_iff (op : Operation) (d : Directory)
    (hd : Unmatched d.tombstones d.records) :
    op.RespectsTombstones d ↔ Unmatched (op.step F d).tombstones (op.step F d).records := by
  have hquiet (hadd : op.addsRecords = false) (hop : op.onTombstones = false) :
      Unmatched (op.step F d).tombstones (op.step F d).records := by
    rw [(restKept_step F hadd d).tombstones hop]
    exact unmatched_of_kept (recordsKept_step F op hadd d).records hd
  cases op with
  | tombstone t =>
      show _ ↔ Unmatched (d.tombstone t).2.tombstones (d.tombstone t).2.records
      by_cases haccepted : t.tombstoneId.isNull = false ∧ t.epoch = d.epoch ∧
          d.workerLive t.workerBoot = true
      · obtain ⟨htombs, hrecords⟩ := tombstone_accepted haccepted
        have hold : Unmatched d.tombstones (d.records.map (buryRecord t.target)) :=
          unmatched_of_kept (forall₂_map_self (kept_buryRecord t.target) _) hd
        rw [htombs, hrecords, unmatched_append, and_iff_right hold, buried_unmatched]
        exact ⟨fun h => h haccepted.1 haccepted.2.1 haccepted.2.2, fun h _ _ _ => h⟩
      · have hrejected : ¬ (Operation.tombstone t).Accepted F d := fun hacc =>
          haccepted (accepted_tombstone.mp hacc)
        have hsame : (d.tombstone t).2 = d := rejected_step rfl (by simp) hrejected
        rw [hsame]
        exact iff_of_true (fun h1 h2 h3 => absurd ⟨h1, h2, h3⟩ haccepted) hd
  | registerEntry record clk =>
      show _ ↔ Unmatched (d.registerEntry record clk).2.tombstones
        (d.registerEntry record clk).2.records
      cases hcheck : d.checkRegistration record with
      | some f =>
          rw [registerEntry_rejected hcheck]
          refine iff_of_true (fun h => ?_) hd
          rw [hcheck] at h
          cases h
      | none =>
          have hc := committed_registerEntry clk hcheck
          have hold : Unmatched d.tombstones (supersedeFor d (d.stamped record clk)) :=
            unmatched_of_kept (forall₂_supersedeFor d _) hd
          have hown (t : TombstoneTarget) :
              Matches t (d.stamped record clk) ↔ Matches t record := Iff.rfl
          rw [hc.tombstones, hc.records, unmatched_concat rfl, and_iff_right hold]
          exact ⟨fun h => h hcheck, fun h _ => h⟩
  | recoverFromBuffer buf =>
      refine recovery_iff (P := fun d' => Unmatched d'.tombstones d'.records) hd fun s _ => ?_
      refine forall₂_congr fun t _ => ?_
      exact (List.forall_mem_map (f := recoverRecord)
        (P := fun r => r.current = true → ¬ Matches t.target r)).symm
  | _ => exact iff_of_true trivial (hquiet rfl rfl)

end Step

/-! ## 4. Runs -/

/-- **What tombstones block.** A registration is rejected with TOMBSTONED exactly when its
    dependencies are there and a tombstone of kind STATE covers it, whatever others match it; and
    no current record matches a tombstone of another kind in any state reached exactly along the
    runs whose calls never bring two such together. -/
theorem other_kinds_block_iff (F : Type) [ScoreArith F] (ops : List Operation) :
    (∀ (d : Directory) (record : DirectoryRecord) (clk : Nat → TimestampNs),
        (∃ f, (d.registerEntry record clk).1 = .error f ∧ f.error = .tombstoned) ↔
          firstFailure (d.dependencyChecks record) = none ∧
            ∃ t ∈ d.tombstones, t.target.kind = .state ∧ t.target.state = record.stateId ∧
              record.stateGeneration.value ≤ t.target.generationFloor) ∧
      (Follows (Operation.step F) Operation.RespectsTombstones {} ops ↔
        ∀ d, Reached F ops d → Unmatched d.tombstones d.records) :=
  ⟨fun _ _ _ => rejected_tombstoned_iff,
    follows_iff_visited respectsTombstones_iff ops {} fun _ h => (List.not_mem_nil h).elim⟩

/-- A tombstone over cache 1. -/
def cacheTombstone : TombstoneRecord :=
  { tombstoneId := ⟨1⟩, target := { kind := .cache, cache := ⟨1⟩ }, epoch := ⟨1⟩
    workerBoot := ⟨1⟩ }

/-- One copy in cache 1, and the cache is tombstoned. -/
def cacheBuried : List Operation := registeredOnce ++ [.tombstone cacheTombstone]

def afterCacheBuried : Directory := after (Operation.step Float) {} cacheBuried

/-- **The counterexample**: the tombstone is accepted and on file, the copy in the cache stays
    current, and the next generation of it is registered. -/
theorem cache_tombstone_blocks_nothing :
    Reached Float cacheBuried afterCacheBuried ∧
      (Operation.tombstone cacheTombstone).Accepted Float afterRegistration ∧
      afterCacheBuried.tombstones = [cacheTombstone] ∧
      (∃ r ∈ afterCacheBuried.records, r.current = true ∧
        covers cacheTombstone.target (ownTarget .cache r) = true) ∧
      covers cacheTombstone.target (ownTarget .cache (copyRecord ⟨2⟩ ⟨2⟩)) = true ∧
      (Operation.registerEntry (copyRecord ⟨2⟩ ⟨2⟩) fun _ => 2).Accepted Float afterCacheBuried :=
  ⟨after_mem_visited _ _ _, by decide +kernel, by decide +kernel, by decide +kernel,
    by decide +kernel, by decide +kernel⟩

end CacheDirectory
