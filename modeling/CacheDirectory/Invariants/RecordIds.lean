/-
  File:      CacheDirectory/Invariants/RecordIds.lean
  Subject:   WHEN RECORD IDS ARE UNIQUE.

  A registration commits under the id the caller gives, or under the counter's when that is null;
  neither is compared with the ids already there, and recovery brings ids back without moving
  the counter past them.

  * `Operation.FreshId` -- an accepted registration commits under an id no record has;
  * `uniqueIds_step_iff` -- one step keeps the ids distinct exactly when that holds;
  * `record_ids_unique_iff` -- the ids are distinct along a run, and updates reach the one record
    they name, exactly when every accepted registration of the run had a fresh id.
-/
import CacheDirectory.Invariants.Failures

namespace CacheDirectory

open Library Directory

/-- No two records have one id. -/
def Directory.UniqueIds (d : Directory) : Prop := (d.records.map (·.recordId)).Nodup

/-- The id a registration commits under is not in use. -/
def Operation.FreshId (F : Type) [ScoreArith F] (op : Operation) (d : Directory) : Prop :=
  match op with
  | .registerEntry record clk =>
      (Operation.registerEntry record clk).Accepted F d →
        ∀ r ∈ d.records, r.recordId ≠ d.effectiveId record
  | _ => True

/-! ## 1. The step -/

/-- **One step keeps the ids distinct exactly when a registration finds its id unused.** -/
theorem uniqueIds_step_iff (F : Type) [ScoreArith F] (op : Operation) (d : Directory)
    (h : d.UniqueIds) : op.FreshId F d ↔ (op.step F d).UniqueIds := by
  have hkept (hfresh : op.FreshId F d) (hop : op.addsRecords = false) :
      op.FreshId F d ↔ (op.step F d).UniqueIds := by
    refine iff_of_true hfresh ?_
    unfold Directory.UniqueIds
    rw [(recordsKept_step F _ hop d).map_eq fun _ _ hr => hr.recordId]
    exact h
  cases op with
  | registerEntry record clk =>
      show (_ → _) ↔ (d.registerEntry record clk).2.UniqueIds
      rw [accepted_registerEntry]
      cases hcheck : d.checkRegistration record with
      | some f =>
          rw [registerEntry_rejected hcheck]
          exact iff_of_true nofun h
      | none =>
          have hids := recordIds_committed (committed_registerEntry clk hcheck)
          unfold Directory.UniqueIds
          rw [hids, nodup_map_append_singleton h]
          exact ⟨fun hfresh => hfresh rfl, fun hfresh _ => hfresh⟩
  | recoverFromBuffer buf =>
      exact iff_of_true trivial (recover_keeps F h fun s _ hs => (sound_install hs d).recordIds)
  | _ => exact hkept trivial rfl

/-! ## 2. What an update reaches -/

section Reach

variable {d : Directory} {id : DirectoryRecordId} {env : AuthorityEnvelope} {now : TimestampNs}

/-- What the search for an id finds has it. -/
theorem recordId_found {i : Fin d.records.length} (h : d.findRecordIndex id = some i) :
    (d.records.get i).recordId = id := by
  have hp := (List.findFinIdx?_eq_some_iff.mp h).1
  simpa using hp

/-- Assigning the entry that was found leaves every entry of another id. -/
theorem getElem?_set_found {i : Fin d.records.length} (h : d.findRecordIndex id = some i)
    (x : DirectoryRecord) {j : Fin d.records.length} (hj : (d.records.get j).recordId ≠ id) :
    (d.records.set i x)[j.val]? = d.records[j.val]? := by
  refine List.getElem?_set_ne fun hij => hj ?_
  rw [← Fin.ext hij]
  exact recordId_found h

theorem updateEvidence_elsewhere {write : DirectoryRecord → DirectoryRecord}
    {j : Fin d.records.length} (hj : (d.records.get j).recordId ≠ id) :
    (updateEvidence write id env now d).2.records[j.val]? = d.records[j.val]? := by
  refine updateEvidence_keeps (P := fun t : Directory => t.records[j.val]? = d.records[j.val]?) rfl
    (fun i hi => ?_) fun i s hi => ?_
  · exact getElem?_set_found hi.found _ hj
  · exact getElem?_set_found hi.found _ hj

theorem updateLifecycle_elsewhere {s : LifecycleState} {j : Fin d.records.length}
    (hj : (d.records.get j).recordId ≠ id) :
    (d.updateLifecycle id s env now).2.records[j.val]? = d.records[j.val]? :=
  updateLifecycle_keeps (P := fun t : Directory => t.records[j.val]? = d.records[j.val]?) rfl
    fun _ hi => getElem?_set_found hi.found _ hj

end Reach

/-- The record an update is addressed to. -/
def Operation.recordUpdated : Operation → Option DirectoryRecordId
  | .updateHealth id _ _ _ => some id
  | .updateFreshness id _ _ _ => some id
  | .updateReachability id _ _ _ => some id
  | .updateIntegrity id _ _ _ => some id
  | .updateLifecycle id _ _ _ => some id
  | _ => none

/-- Ids are distinct, the search for an id finds the only record under it, and an update leaves
    every record of another id where and as it is. -/
structure Directory.AddressesOne (F : Type) [ScoreArith F] (d : Directory) : Prop where
  ids : d.UniqueIds
  found : ∀ id i, d.findRecordIndex id = some i →
    ∀ j : Fin d.records.length, (d.records.get j).recordId = id → j = i
  updates : ∀ (op : Operation) (id : DirectoryRecordId), op.recordUpdated = some id →
    ∀ j : Fin d.records.length, (d.records.get j).recordId ≠ id →
      (op.step F d).records[j.val]? = d.records[j.val]?

theorem addressesOne_of_uniqueIds (F : Type) [ScoreArith F] {d : Directory} (h : d.UniqueIds) :
    d.AddressesOne F where
  ids := h
  found := by
    intro id i hi j hj
    have hlen : (d.records.map (·.recordId)).length = d.records.length := List.length_map _
    have heq : (d.records.map (·.recordId))[j.val] = (d.records.map (·.recordId))[i.val] := by
      simpa using hj.trans (recordId_found hi).symm
    exact Fin.ext ((List.Nodup.getElem_inj_iff h).mp heq)
  updates := by
    intro op id hop j hj
    cases op with
    | updateHealth id' health env now =>
        cases hop
        exact updateEvidence_elsewhere hj
    | updateFreshness id' f env now =>
        cases hop
        exact updateEvidence_elsewhere hj
    | updateReachability id' reach env now =>
        cases hop
        exact updateEvidence_elsewhere hj
    | updateIntegrity id' integ env now =>
        cases hop
        exact updateEvidence_elsewhere hj
    | updateLifecycle id' s env now =>
        cases hop
        exact updateLifecycle_elsewhere hj
    | _ => cases hop

/-! ## 3. Runs -/

/-- **Record ids are unique along a run exactly when every accepted registration of it commits
    under a fresh id**; recovery in between may be given any bytes. -/
theorem record_ids_unique_iff (F : Type) [ScoreArith F] (ops : List Operation) :
    Follows (Operation.step F) (Operation.FreshId F) {} ops ↔
      ∀ d, Reached F ops d → d.AddressesOne F := by
  have hiff : Follows (Operation.step F) (Operation.FreshId F) {} ops ↔
      ∀ d ∈ visited (Operation.step F) {} ops, d.UniqueIds :=
    follows_iff_visited (uniqueIds_step_iff F) ops {} List.nodup_nil
  refine hiff.trans ⟨fun h d hd => addressesOne_of_uniqueIds F (h d hd), fun h d hd => ?_⟩
  exact (h d hd).ids

/-- A registration under the caller's id 1, then one that leaves the id to the counter. -/
def collision : List Operation :=
  registeredOnce ++ [.registerEntry (copyRecord {} ⟨2⟩) fun _ => 2]

def collided : Directory := after (Operation.step Float) {} collision

/-- **The counterexample**: the counter starts at the id the caller chose. -/
theorem collided_ids :
    OwnReached Float collided ∧ collided.records.map (·.recordId) = [⟨1⟩, ⟨1⟩] ∧
      (collided.findRecordIndex ⟨1⟩).map Fin.val = some 0 :=
  ⟨ownReached_after collision {} (by decide) .start, by decide +kernel, by decide +kernel⟩

end CacheDirectory
