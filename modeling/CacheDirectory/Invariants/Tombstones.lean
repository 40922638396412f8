/-
  File:      CacheDirectory/Invariants/Tombstones.lean
  Subject:   STATE TOMBSTONES BLOCK RESURRECTION, AND NOTHING ELSE.

  * `Directory.Laid` -- the invariant: no current record is covered by a tombstone;
  * `laid_ownReached` -- it holds along every run that recovers own snapshots only;
  * `registerEntry_tombstoned_iff` -- the tombstone check refuses exactly the generations up to
    the highest floor over the state;
  * `tombstone_elsewhere` -- a tombstone neither changes nor blocks what it does not cover;
  * `tombstones_block_resurrection` -- the four together.
-/
import CacheDirectory.Recovery.Fidelity
import Mathlib.Data.List.MinMax

namespace CacheDirectory

open Library

namespace Directory

/-- No current record is covered by a tombstone. -/
def Laid (d : Directory) : Prop :=
  ∀ r ∈ d.records, r.current = true → ∀ t ∈ d.tombstones, covers t.target (stateTarget r) = false

/-- The floors of the STATE tombstones of a state. -/
def stateFloors (d : Directory) (s : StateId) : List Nat :=
  (d.tombstones.filter fun t => t.target.kind == .state && t.target.state == s).map fun t =>
    t.target.generationFloor.toNat

end Directory

open Directory

/-! ## 1. The invariant -/

/-- Coverage reads the state and the generation of a record only. -/
theorem Kept.stateTarget_eq {r r' : DirectoryRecord} (h : Kept r r') :
    stateTarget r' = stateTarget r := by
  unfold stateTarget
  rw [h.stateId, h.stateGeneration]

theorem laid_of_kept {d d' : Directory} (h : d.Laid) (hk : RecordsKept d d') : d'.Laid := by
  intro r' hr' hcur t ht
  rcases hk.tombstones t ht with hold | hnew
  · obtain ⟨r, hr, hrr⟩ := hk.origin hr'
    rw [hrr.stateTarget_eq]
    exact h r hr (hrr.current hcur) t hold
  · exact hnew r' hr' hcur

theorem laid_of_committed {d d' : Directory} {record r : DirectoryRecord} (h : d.Laid)
    (hc : Committed d record r d') : d'.Laid := by
  intro x hx hcur t ht
  rw [hc.tombstones] at ht
  rw [hc.records] at hx
  rcases List.mem_append.mp hx with hx | hx
  · obtain ⟨y, hy, hyx⟩ := exists_of_forall₂ (forall₂_supersedeFor d r) hx
    rw [hyx.stateTarget_eq]
    exact h y hy (hyx.current hcur) t ht
  · rw [List.mem_singleton.mp hx]
    exact coveredByTombstone_eq_false.mp hc.uncovered t ht

/-- A snapshot brings the tombstones back with the records they cover. -/
theorem laid_install {d : Directory} (h : d.Laid) (o : MapOrders) (t : Directory) :
    (t.install (d.snapshotOf o)).Laid := by
  intro r' hr' hcur x hx
  obtain ⟨r, hr, rfl⟩ := List.mem_map.mp hr'
  obtain ⟨y, hy, rfl⟩ := List.mem_map.mp hr
  exact h y hy hcur x hx

/-- **The invariant in every state reached by own snapshots.** -/
theorem laid_ownReached {F : Type} [ScoreArith F] {d : Directory} (hd : OwnReached F d) :
    d.Laid :=
  ownReached_keeps (fun _ hr => absurd hr List.not_mem_nil)
    (step_keeps F laid_of_kept laid_of_committed) laid_install hd

/-! ## 2. What is blocked -/

/-- **Coverage is the highest floor.** -/
theorem coveredByTombstone_iff {d : Directory} {record : DirectoryRecord} :
    d.coveredByTombstone (stateTarget record) = true ↔
      WithBot.some record.stateGeneration.value.toNat ≤
        (d.stateFloors record.stateId).maximum := by
  rw [List.coe_le_maximum_iff]
  unfold coveredByTombstone stateFloors
  simp only [List.any_eq_true, covers_stateTarget, List.mem_map, List.mem_filter,
    Bool.and_eq_true, beq_iff_eq, UInt64.le_iff_toNat_le]
  constructor
  · intro h
    obtain ⟨t, ht, hk, hs, hg⟩ := h
    exact ⟨_, ⟨t, ⟨ht, hk, hs⟩, rfl⟩, hg⟩
  · rintro ⟨_, ⟨t, ⟨ht, hk, hs⟩, rfl⟩, hg⟩
    exact ⟨t, ht, hk, hs, hg⟩

/-- The duplicate search fails with codes of its own. -/
theorem duplicateCheck_not_tombstoned {d : Directory} {record : DirectoryRecord} {f : Failure}
    (h : d.duplicateCheck record = some f) : f.error ≠ .tombstoned := by
  obtain ⟨r, _, hr⟩ := Option.map_eq_some_iff.mp h
  split at hr
  · rw [← hr]
    decide
  · rw [← hr]
    decide

/-- Past the dependency checks the tombstone check comes first, and nothing after it fails with
    TOMBSTONED. -/
theorem registerEntry_tombstoned_iff {d : Directory} {record : DirectoryRecord}
    {clk : Nat → TimestampNs} (hdep : firstFailure (d.dependencyChecks record) = none) :
    (∃ f, (d.registerEntry record clk).1 = .error f ∧ f.error = .tombstoned) ↔
      d.coveredByTombstone (stateTarget record) = true := by
  have hcheck : d.checkRegistration record =
      (firstFailure [d.tombstoneCheck record, d.generationCheck record]).or
        (d.duplicateCheck record) := by
    unfold checkRegistration
    rw [firstFailure_append, hdep, Option.none_or]
  simp only [registerEntry_error, hcheck]
  cases hcov : d.coveredByTombstone (stateTarget record) with
  | true =>
      refine iff_of_true ⟨⟨.tombstoned, "covered by state tombstone"⟩, ?_, rfl⟩ rfl
      rw [tombstoneCheck, hcov]
      rfl
  | false =>
      refine iff_of_false ?_ Bool.false_ne_true
      intro h
      obtain ⟨f, hf, htomb⟩ := h
      rw [tombstoneCheck, hcov] at hf
      rcases Option.or_eq_some_iff.mp hf with hgen | ⟨_, hdup⟩
      · -- only the generation check is left, and its code is STALE_GENERATION
        have hmem : (true, f) ∈ [d.generationCheck record] := mem_of_firstFailure hgen
        have hstale : f = (d.generationCheck record).2 :=
          congrArg Prod.snd (List.mem_singleton.mp hmem)
        rw [hstale] at htomb
        cases htomb
      · exact duplicateCheck_not_tombstoned hdup htomb

/-! ## 3. What is left alone -/

/-- The tombstone is of no state, of another one, or below the record's generation. -/
def Elsewhere (t : TombstoneTarget) (r : DirectoryRecord) : Prop :=
  t.kind = .state → t.state = r.stateId → t.generationFloor < r.stateGeneration.value

theorem covers_elsewhere {t : TombstoneTarget} {r : DirectoryRecord} (h : Elsewhere t r) :
    covers t (stateTarget r) = false := by
  rw [Bool.eq_false_iff]
  intro hcov
  obtain ⟨hk, hs, hg⟩ := covers_stateTarget.mp hcov
  exact UInt64.lt_irrefl _ (UInt64.lt_of_lt_of_le (h hk hs) hg)

theorem buryRecord_elsewhere {t : TombstoneTarget} {r : DirectoryRecord} (h : Elsewhere t r) :
    buryRecord t r = r := by
  unfold buryRecord
  refine if_neg fun hb => ?_
  simp only [Bool.and_eq_true, beq_iff_eq, decide_eq_true_eq] at hb
  obtain ⟨⟨hk, hs⟩, hg⟩ := hb
  exact UInt64.lt_irrefl _ (UInt64.lt_of_lt_of_le (h hk hs.symm) hg)

/-- **Recording a tombstone leaves records it does not cover where and as they are, and blocks no
    registration it does not cover.** -/
theorem tombstone_elsewhere {d : Directory} {t : TombstoneRecord} {r : DirectoryRecord}
    (h : Elsewhere t.target r) :
    (∀ i : Nat, d.records[i]? = some r → (d.tombstone t).2.records[i]? = some r) ∧
      (d.tombstone t).2.coveredByTombstone (stateTarget r) =
        d.coveredByTombstone (stateTarget r) := by
  constructor
  · intro i hi
    refine guarded_keeps (P := fun d' : Directory => d'.records[i]? = some r) hi fun _ => ?_
    show (d.records.map (buryRecord t.target))[i]? = some r
    rw [List.getElem?_map, hi, Option.map_some, buryRecord_elsewhere h]
  · refine guarded_keeps (P := fun d' : Directory =>
      d'.coveredByTombstone (stateTarget r) = d.coveredByTombstone (stateTarget r)) rfl fun _ => ?_
    show ((d.tombstones ++ [t]).any fun t => covers t.target (stateTarget r)) = _
    rw [List.any_append, List.any_cons, List.any_nil, covers_elsewhere h]
    exact Bool.or_false _

/-- **State tombstones block resurrection over whole runs, and nothing else**: no current record
    is covered; past the dependency checks a registration fails with TOMBSTONED exactly up to the
    highest floor of its state; a tombstone neither changes nor blocks what is of another state
    or above its floor. -/
theorem tombstones_block_resurrection (F : Type) [ScoreArith F] (d : Directory)
    (hd : OwnReached F d) :
    (∀ r ∈ d.records, r.current = true → ¬ ∃ t ∈ d.tombstones, t.target.kind = .state ∧
      t.target.state = r.stateId ∧ r.stateGeneration.value ≤ t.target.generationFloor) ∧
    (∀ (record : DirectoryRecord) (clk : Nat → TimestampNs),
      firstFailure (d.dependencyChecks record) = none →
      ((∃ f, (d.registerEntry record clk).1 = .error f ∧ f.error = .tombstoned) ↔
        WithBot.some record.stateGeneration.value.toNat ≤
          (d.stateFloors record.stateId).maximum)) ∧
    (∀ (t : TombstoneRecord) (r : DirectoryRecord), Elsewhere t.target r →
      (∀ i : Nat, d.records[i]? = some r → (d.tombstone t).2.records[i]? = some r) ∧
        (d.tombstone t).2.coveredByTombstone (stateTarget r) =
          d.coveredByTombstone (stateTarget r)) := by
  refine ⟨?_, fun record clk hdep => ?_, fun t r => tombstone_elsewhere⟩
  · rintro r hr hcur ⟨t, ht, hcov⟩
    have hfree := laid_ownReached hd r hr hcur t ht
    rw [covers_stateTarget.mpr hcov] at hfree
    cases hfree
  · rw [registerEntry_tombstoned_iff hdep]
    exact coveredByTombstone_iff

theorem tombstones_block_resurrection_buried :
    ∃ f, (buried.registerEntry (copyRecord {} ⟨1⟩) fun _ => 3).1 = .error f ∧
      f.error = .tombstoned := by
  refine ((tombstones_block_resurrection Float buried
    (ownReached_after burial {} (by decide) .start)).2.1 _ _ ?_).mpr ?_
  · decide +kernel
  · decide +kernel

end CacheDirectory
